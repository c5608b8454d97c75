import Mathlib.Data.List.DropRight

/-! Lists without the elements of a kind at their ends, and texts without whitespace there. -/
namespace DddFramework.Library

section strip
variable {α : Type} {p : α → Bool} {xs : List α} {x : α}

structure Stripped (p : α → Bool) (xs : List α) : Prop where
  first : ∀ x, xs.head? = some x → p x = false
  last : ∀ x, xs.getLast? = some x → p x = false

def strip (p : α → Bool) (xs : List α) : List α := (xs.dropWhile p).rdropWhile p

theorem stripped_strip (p : α → Bool) (xs : List α) : Stripped p (strip p xs) where
  first := by
    intro x hx
    have hstart : strip p xs <+: xs.dropWhile p := List.rdropWhile_prefix p _
    obtain ⟨rest, hrest⟩ := hstart
    have hhead : (xs.dropWhile p).head? = some x := by
      rw [← hrest, List.head?_append]
      exact congrArg (Option.or · rest.head?) hx
    have hnot := List.head?_dropWhile_not p xs
    rw [hhead] at hnot
    exact hnot
  last := by
    intro x hx
    have hne : strip p xs ≠ [] := by
      intro hnil
      rw [hnil] at hx
      cases hx
    rw [List.getLast?_eq_some_getLast hne] at hx
    rw [← Option.some.inj hx]
    exact Bool.eq_false_iff.mpr (List.rdropWhile_last_not p _ hne)

theorem Stripped.strip_eq (h : Stripped p xs) : strip p xs = xs := by
  have hfirst : xs.dropWhile p = xs := by
    cases xs with
    | nil => rfl
    | cons x xs => rw [List.dropWhile_cons_of_neg (by rw [h.first x rfl]; exact Bool.false_ne_true)]
  rw [strip, hfirst, List.rdropWhile_eq_self_iff]
  intro hne
  rw [h.last _ (List.getLast?_eq_some_getLast hne)]
  exact Bool.false_ne_true

theorem stripped_append {ys : List α} (hxs : xs ≠ []) (hys : ys ≠ [])
    (hfirst : ∀ x, xs.head? = some x → p x = false)
    (hlast : ∀ x, ys.getLast? = some x → p x = false) : Stripped p (xs ++ ys) where
  first := by
    rw [List.head?_append_of_ne_nil _ hxs]
    exact hfirst
  last := by
    rw [List.getLast?_append_of_ne_nil _ hys]
    exact hlast

end strip

/-- What `str.strip` takes for whitespace. -/
def isSpace (c : Char) : Bool :=
  0x09 ≤ c.val && c.val ≤ 0x0D || 0x1C ≤ c.val && c.val ≤ 0x20 || c.val == 0x85 ||
    c.val == 0xA0 || c.val == 0x1680 || 0x2000 ≤ c.val && c.val ≤ 0x200A || c.val == 0x2028 ||
    c.val == 0x2029 || c.val == 0x202F || c.val == 0x205F || c.val == 0x3000

end DddFramework.Library
