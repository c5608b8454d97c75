import DddFramework.Library.Delimited
import DddFramework.Filters.SqlMeaning

/-! `camel_to_snake_case` keeps names apart: each capital letter can be told from its underscore. -/
namespace DddFramework.Filters
open Library

/-- A name as the API has them: ASCII letters and digits after a small letter. -/
structure CamelCase where
  name : String
  first : ∃ c, name.toList.head? = some c ∧ c.isLower
  letters : ∀ c ∈ name.toList, c.isAlphanum

section letters
variable {c d : Char}

theorem toNat_lt_of_isAlphanum (h : c.isAlphanum) : c.toNat < 128 := by
  have hbelow : ∀ high : Char, high.toNat < 128 → c.val ≤ high.val → c.toNat < 128 :=
    fun high hhigh hc => Nat.lt_of_le_of_lt (UInt32.le_iff_toNat_le.mp hc) hhigh
  have hkinds : ((c.isUpper || c.isLower) || c.isDigit) = true := h
  rw [Bool.or_eq_true, Bool.or_eq_true] at hkinds
  rcases hkinds with (hupper | hlower) | hdigit
  · exact hbelow 'Z' (by decide) (of_decide_eq_true hupper).2
  · exact hbelow 'z' (by decide) (of_decide_eq_true (Bool.and_eq_true_iff.mp hlower).2)
  · exact hbelow '9' (by decide) (of_decide_eq_true (Bool.and_eq_true_iff.mp hdigit).2)

theorem forall_ascii {P : Char → Prop} (hascii : ∀ n < 128, P (Char.ofNat n))
    (h : c.isAlphanum) : P c := by
  have hcode := hascii c.toNat (toNat_lt_of_isAlphanum h)
  rwa [Char.ofNat_toNat] at hcode

theorem toUpper_toLower (h : c.isAlphanum) (hupper : isUpper c) : c.toLower.toUpper = c := by
  revert hupper
  exact @forall_ascii c (fun c => isUpper c = true → c.toLower.toUpper = c) (by decide) h

theorem toLower_of_not_isUpper (h : c.isAlphanum) (hupper : ¬ isUpper c) : c.toLower = c := by
  revert hupper
  exact @forall_ascii c (fun c => ¬ isUpper c = true → c.toLower = c) (by decide) h

theorem toLower_ne_underscore (h : c.isAlphanum) : c.toLower ≠ '_' :=
  @forall_ascii c (fun c => c.isAlphanum = true → c.toLower ≠ '_') (by decide) h h

theorem val_lt_of_isAlphanum (h : c.isAlphanum) : c.val < 128 :=
  UInt32.lt_iff_toNat_lt.mpr (toNat_lt_of_isAlphanum h)

theorem not_isUpper_of_isLower (h : c.isAlphanum) (hlower : c.isLower) : ¬ isUpper c :=
  @forall_ascii c (fun c => c.isLower = true → ¬ isUpper c = true) (by decide) h hlower

end letters

def hump (c : Char) : List Char := if isUpper c then ['_', c.toLower] else [c.toLower]

/-- An underscore is there for a capital letter only. -/
theorem hump_append_inj {c d : Char} {r s : List Char} (hc : c.isAlphanum) (hd : d.isAlphanum)
    (h : hump c ++ r = hump d ++ s) : c = d ∧ r = s := by
  unfold hump at h
  by_cases hupper : isUpper c
  · by_cases hother : isUpper d
    · rw [if_pos hupper, if_pos hother] at h
      obtain ⟨-, hrest⟩ := List.cons.inj h
      obtain ⟨hletter, hrest⟩ := List.cons.inj hrest
      refine ⟨?_, hrest⟩
      rw [← toUpper_toLower hc hupper, hletter, toUpper_toLower hd hother]
    · rw [if_pos hupper, if_neg hother] at h
      exact absurd (List.cons.inj h).1.symm (toLower_ne_underscore hd)
  · by_cases hother : isUpper d
    · rw [if_neg hupper, if_pos hother] at h
      exact absurd (List.cons.inj h).1 (toLower_ne_underscore hc)
    · rw [if_neg hupper, if_neg hother, toLower_of_not_isUpper hc hupper,
        toLower_of_not_isUpper hd hother] at h
      exact List.cons.inj h

theorem hump_ne_nil (c : Char) : hump c ≠ [] := by
  unfold hump
  split <;> exact List.cons_ne_nil _ _

theorem splitHumps_map_toLower (first : Char) (rest : List Char) :
    (splitHumps (first :: rest)).map Char.toLower = first.toLower :: rest.flatMap hump := by
  rw [splitHumps, List.map_cons, List.map_flatMap]
  apply congrArg
  apply List.flatMap_congr
  intro c _
  unfold hump
  split <;> rfl

theorem splitHumps_ascii {name : List Char} (h : ∀ c ∈ name, c.isAlphanum) :
    ∀ c ∈ splitHumps name, c.val < 128 := by
  cases name with
  | nil => exact fun c hc => absurd hc List.not_mem_nil
  | cons first rest =>
    obtain ⟨hfirst, hrest⟩ := List.forall_mem_cons.mp h
    rw [splitHumps, List.forall_mem_cons]
    refine ⟨val_lt_of_isAlphanum hfirst, ?_⟩
    intro c hc
    obtain ⟨d, hd, hc⟩ := List.mem_flatMap.mp hc
    have hletter := val_lt_of_isAlphanum (hrest d hd)
    split at hc
    · rcases List.mem_pair.mp hc with rfl | rfl
      · decide
      · exact hletter
    · rwa [List.mem_singleton.mp hc]

section names
variable {py : Python}

theorem toList_camelToSnakeCase (hlower : LowersAscii py) (x : CamelCase) :
    ∃ first rest, x.name.toList = first :: rest ∧
      (camelToSnakeCase py x.name).toList = first :: rest.flatMap hump := by
  obtain ⟨first, hfirst, hsmall⟩ := x.first
  obtain ⟨rest, hname⟩ := List.head?_eq_some_iff.mp hfirst
  have hletter := x.letters first (by rw [hname]; exact List.mem_cons_self)
  refine ⟨first, rest, hname, ?_⟩
  rw [camelToSnakeCase, hlower _ (by rw [String.toList_ofList]; exact splitHumps_ascii x.letters),
    String.toList_ofList, String.toList_ofList, hname, splitHumps_map_toLower,
    toLower_of_not_isUpper hletter (not_isUpper_of_isLower hletter hsmall)]

theorem camelToSnakeCase_inj (hlower : LowersAscii py) {x y : CamelCase}
    (h : camelToSnakeCase py x.name = camelToSnakeCase py y.name) : x.name = y.name := by
  obtain ⟨first, rest, hx, hsnake⟩ := toList_camelToSnakeCase hlower x
  obtain ⟨other, others, hy, hothers⟩ := toList_camelToSnakeCase hlower y
  have hletters := x.letters
  have hotherLetters := y.letters
  rw [hx] at hletters
  rw [hy] at hotherLetters
  rw [h, hothers] at hsnake
  obtain ⟨rfl, hhumps⟩ := List.cons.inj hsnake
  apply String.toList_inj.mp
  rw [hx, hy]
  apply congrArg
  exact flatMap_inj (fun c _ => hump_ne_nil c)
    (fun c d r s hc hd hword => hump_append_inj hc hd hword)
    (List.forall_mem_cons.mp hletters).2 (List.forall_mem_cons.mp hotherLetters).2 hhumps.symm

/-- Two names of the API have two snake case names, and two columns. -/
theorem camelCase_columns_distinct (hlower : LowersAscii py) (x y : CamelCase) :
    (camelToSnakeCase py x.name = camelToSnakeCase py y.name → x.name = y.name) ∧
      ∀ (model : Model) (allowedFields : List String) (column : String),
        getColumn py model allowedFields x.name = .ok column →
          getColumn py model allowedFields y.name = .ok column → x.name = y.name := by
  refine ⟨camelToSnakeCase_inj hlower, ?_⟩
  intro model allowedFields column hx hy
  obtain ⟨-, -, rfl⟩ := getColumn_eq_ok.mp hx
  obtain ⟨-, -, hcolumn⟩ := getColumn_eq_ok.mp hy
  exact camelToSnakeCase_inj hlower hcolumn

end names

def itemId : CamelCase where
  name := "itemId"
  first := ⟨'i', rfl, rfl⟩
  letters := List.all_eq_true.mp rfl

def itemID : CamelCase where
  name := "itemID"
  first := ⟨'i', rfl, rfl⟩
  letters := List.all_eq_true.mp rfl

theorem camelCase_columns_distinct_itemId :
    camelToSnakeCase asciiPython "itemId" ≠ camelToSnakeCase asciiPython "itemID" := by
  intro h
  have hname := (camelCase_columns_distinct lowersAscii_asciiPython itemId itemID).1 h
  exact absurd hname (by decide)

end DddFramework.Filters
