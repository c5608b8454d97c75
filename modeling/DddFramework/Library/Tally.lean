import Mathlib.Algebra.Order.BigOperators.Group.List
import Mathlib.Data.List.Induction

/-! Totals over a log: the weights of the entries a predicate selects, summed. -/
namespace DddFramework.Library

variable {α M : Type*}

section
variable [AddCommMonoid M] (weight : α → M) (p q : α → Prop) [DecidablePred p] [DecidablePred q]

def tally (log : List α) : M := ((log.filter p).map weight).sum

@[simp] theorem tally_nil : tally weight p [] = 0 := rfl

theorem tally_append (log rest : List α) :
    tally weight p (log ++ rest) = tally weight p log + tally weight p rest := by
  simp [tally]

theorem tally_concat (log : List α) (x : α) :
    tally weight p (log ++ [x]) = tally weight p log + if p x then weight x else 0 := by
  rw [tally_append]
  by_cases hx : p x <;> simp [tally, hx]

theorem tally_congr {log : List α} (h : ∀ x ∈ log, p x ↔ q x) :
    tally weight p log = tally weight q log := by
  unfold tally
  rw [List.filter_congr fun x hx => decide_eq_decide.mpr (h x hx)]

theorem map_tally {N : Type*} [AddCommMonoid N] (f : M →+ N) (log : List α) :
    f (tally weight p log) = tally (fun x => f (weight x)) p log := by
  rw [tally, map_list_sum, List.map_map]
  rfl

theorem tally_eq_zero {log : List α} (h : ∀ x ∈ log, ¬ p x) : tally weight p log = 0 := by
  unfold tally
  rw [List.filter_eq_nil_iff.mpr fun x hx => by simp [h x hx]]
  rfl

theorem tally_filterMap {β : Type*} {f : α → Option β} {value : β → M} {r : β → Prop}
    [DecidablePred r] (hnone : ∀ x, f x = none → ¬ p x)
    (hsome : ∀ x y, f x = some y → (r y ↔ p x) ∧ value y = weight x) (log : List α) :
    tally value r (log.filterMap f) = tally weight p log := by
  induction log using List.reverseRecOn with
  | nil => rfl
  | append_singleton log x ih =>
    rw [List.filterMap_append, tally_append, tally_append, ih]
    congr 1
    cases hx : f x with
    | none => simp [hx, tally, hnone x hx]
    | some y =>
      obtain ⟨hselect, hvalue⟩ := hsome x y hx
      simp only [tally, hx, List.filterMap_cons, List.filterMap_nil, List.filter_cons, hselect]
      split <;> simp [hvalue]
end

section
variable [AddCommMonoid M] [PartialOrder M] [IsOrderedAddMonoid M] {weight : α → M}
  {p q r : α → Prop} [DecidablePred p] [DecidablePred q] [DecidablePred r] {log : List α}

theorem tally_nonneg (hweight : ∀ x ∈ log, 0 ≤ weight x) : 0 ≤ tally weight p log := by
  apply List.sum_nonneg
  intro value hvalue
  obtain ⟨x, hx, rfl⟩ := List.mem_map.mp hvalue
  exact hweight x (List.mem_filter.mp hx).1

theorem tally_le_add (hweight : ∀ x ∈ log, 0 ≤ weight x) (h : ∀ x ∈ log, p x → q x ∨ r x) :
    tally weight p log ≤ tally weight q log + tally weight r log := by
  induction log using List.reverseRecOn with
  | nil => simp
  | append_singleton log x ih =>
    have hx := hweight x (by simp)
    have hcover := h x (by simp)
    have hrest := ih (fun y hy => hweight y (by simp [hy])) fun y hy => h y (by simp [hy])
    simp only [tally_concat]
    have hlast : (if p x then weight x else 0) ≤
        (if q x then weight x else 0) + if r x then weight x else 0 := by
      by_cases hp : p x
      · rcases hcover hp with hq | hr
        · rw [if_pos hp, if_pos hq]
          exact le_add_of_nonneg_right (by split <;> simp [hx])
        · rw [if_pos hp, if_pos hr]
          exact le_add_of_nonneg_left (by split <;> simp [hx])
      · rw [if_neg hp]
        exact add_nonneg (by split <;> simp [hx]) (by split <;> simp [hx])
    rw [add_add_add_comm]
    exact add_le_add hrest hlast

theorem tally_mono (hweight : ∀ x ∈ log, 0 ≤ weight x) (h : ∀ x ∈ log, p x → q x) :
    tally weight p log ≤ tally weight q log := by
  have hcover := tally_le_add (q := q) (r := fun _ => False) hweight fun x hx hp => .inl (h x hx hp)
  rwa [tally_eq_zero weight (fun _ => False) (by simp), add_zero] at hcover

theorem tally_sublist {fewer : List α} (hweight : ∀ x ∈ log, 0 ≤ weight x)
    (h : fewer.Sublist log) : tally weight p fewer ≤ tally weight p log := by
  apply List.Sublist.sum_le_sum ((h.filter _).map _)
  intro value hvalue
  obtain ⟨x, hx, rfl⟩ := List.mem_map.mp hvalue
  exact hweight x (List.mem_filter.mp hx).1
end

end DddFramework.Library
