import Mathlib.Data.List.Nodup

/-! Lookup in a list of pairs whose keys are distinct, which is a map: the order of the pairs is
no matter. -/
namespace DddFramework.Library

variable {α β : Type} [DecidableEq α] {pairs others : List (α × β)} {key : α} {value : β}

theorem mem_of_lookup (h : pairs.lookup key = some value) : (key, value) ∈ pairs := by
  obtain ⟨left, right, rfl, -⟩ := List.lookup_eq_some_iff.mp h
  exact List.mem_append_right left List.mem_cons_self

theorem lookup_eq_some_iff_mem (hkeys : (pairs.map Prod.fst).Nodup) :
    pairs.lookup key = some value ↔ (key, value) ∈ pairs := by
  apply Iff.intro mem_of_lookup
  intro hmem
  obtain ⟨left, right, rfl⟩ := List.append_of_mem hmem
  rw [List.map_append, List.map_cons, List.nodup_middle, List.nodup_cons] at hkeys
  have hleft : left.lookup key = none := by
    rw [List.lookup_eq_none_iff]
    intro pair hpair
    apply bne_iff_ne.mpr
    rintro rfl
    have hagain : pair.1 ∈ left.map Prod.fst := List.mem_map_of_mem hpair
    exact hkeys.1 (List.mem_append_left _ hagain)
  rw [List.lookup_append, hleft, List.lookup_cons_self]
  rfl

theorem lookup_eq_of_perm (hkeys : (pairs.map Prod.fst).Nodup) (hperm : pairs.Perm others)
    (key : α) : pairs.lookup key = others.lookup key := by
  have hothers : (others.map Prod.fst).Nodup := (hperm.map Prod.fst).nodup_iff.mp hkeys
  apply Option.ext
  intro value
  rw [lookup_eq_some_iff_mem hkeys, lookup_eq_some_iff_mem hothers]
  exact hperm.mem_iff

end DddFramework.Library
