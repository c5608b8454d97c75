import Mathlib.Data.List.TakeWhile

/-! Texts put together from parts that can be told apart: a part that ends before a character
it does not contain, and a part that says its length first, in decimal. -/
namespace DddFramework.Library

theorem append_cons_inj {α : Type*} {c : α} {x y r s : List α} (hx : c ∉ x) (hy : c ∉ y)
    (h : x ++ c :: r = y ++ c :: s) : x = y ∧ r = s := by
  induction x generalizing y with
  | nil =>
    cases y with
    | nil => exact ⟨rfl, (List.cons.inj h).2⟩
    | cons b y => exact absurd ((List.cons.inj h).1 ▸ List.mem_cons_self) hy
  | cons a x ih =>
    cases y with
    | nil => exact absurd ((List.cons.inj h).1 ▸ List.mem_cons_self) hx
    | cons b y =>
      obtain ⟨rfl, htail⟩ := List.cons.inj h
      obtain ⟨rfl, hrest⟩ := ih (fun hmem => hx (List.mem_cons_of_mem _ hmem))
        (fun hmem => hy (List.mem_cons_of_mem _ hmem)) htail
      exact ⟨rfl, hrest⟩

/-- Words that can be told apart from their beginnings, in whatever they stand, can be told apart in
a row of them. -/
theorem flatMap_inj {α β : Type*} {P : α → Prop} {word : α → List β}
    (hne : ∀ a, P a → word a ≠ [])
    (hword : ∀ a b r s, P a → P b → word a ++ r = word b ++ s → a = b ∧ r = s)
    {x y : List α} (hx : ∀ a ∈ x, P a) (hy : ∀ a ∈ y, P a)
    (h : x.flatMap word = y.flatMap word) : x = y := by
  induction x generalizing y with
  | nil =>
    cases y with
    | nil => rfl
    | cons b y =>
      rw [List.flatMap_nil, List.flatMap_cons] at h
      exact absurd (List.append_eq_nil_iff.mp h.symm).1 (hne b (hy b List.mem_cons_self))
  | cons a x ih =>
    obtain ⟨ha, hx⟩ := List.forall_mem_cons.mp hx
    cases y with
    | nil =>
      rw [List.flatMap_nil, List.flatMap_cons] at h
      exact absurd (List.append_eq_nil_iff.mp h).1 (hne a ha)
    | cons b y =>
      have hb := hy b List.mem_cons_self
      have htail : ∀ c ∈ y, P c := fun c hc => hy c (List.mem_cons_of_mem b hc)
      rw [List.flatMap_cons, List.flatMap_cons] at h
      obtain ⟨hab, hrest⟩ := hword a b _ _ ha hb h
      rw [hab, ih hx htail hrest]

section first
variable {α : Type} [DecidableEq α]

def splitFirst (c : α) (text : List α) : List α × List α :=
  (text.takeWhile (· ≠ c), (text.dropWhile (· ≠ c)).tail)

theorem notMem_splitFirst (c : α) (text : List α) : c ∉ (splitFirst c text).1 := by
  intro hmem
  simpa using List.mem_takeWhile_imp hmem

theorem head?_splitFirst {c : α} {text : List α} (h : (splitFirst c text).1 ≠ []) :
    (splitFirst c text).1.head? = text.head? := by
  cases text with
  | nil => rfl
  | cons a text =>
    by_cases ha : a = c
    · simp [splitFirst, ha] at h
    · simp [splitFirst, ha]

theorem splitFirst_append {c : α} {x : List α} (hx : c ∉ x) (rest : List α) :
    splitFirst c (x ++ c :: rest) = (x, rest) := by
  have hpass : ∀ a ∈ x, (decide (a ≠ c)) = true := by
    intro a ha
    exact decide_eq_true fun heq => hx (heq ▸ ha)
  simp only [splitFirst, List.takeWhile_append_of_pos hpass, List.dropWhile_append_of_pos hpass,
    List.takeWhile_cons, List.dropWhile_cons]
  simp

end first

def decimal (n : Nat) : List Char := Nat.toDigits 10 n

theorem decimal_inj {n m : Nat} (h : decimal n = decimal m) : n = m := by
  have hread := congrArg (Nat.ofDigitChars 10 · 0) h
  simpa only [decimal, Nat.ofDigitChars_ten_toDigits] using hread

theorem notMem_decimal {c : Char} (hc : c.isDigit = false) (n : Nat) : c ∉ decimal n := by
  intro hmem
  rw [Nat.isDigit_of_mem_toDigits (by decide) (by decide) hmem] at hc
  cases hc

theorem decimal_append_inj {n m : Nat} {r s : List Char}
    (h : decimal n ++ ':' :: r = decimal m ++ ':' :: s) : n = m ∧ r = s := by
  obtain ⟨hnumber, hrest⟩ :=
    append_cons_inj (notMem_decimal (by decide) n) (notMem_decimal (by decide) m) h
  exact ⟨decimal_inj hnumber, hrest⟩

/-- A text with its length before it. -/
def prefixed (text : List Char) : List Char := decimal text.length ++ ':' :: text

theorem prefixed_append_inj {a b r s : List Char}
    (h : prefixed a ++ r = prefixed b ++ s) : a = b ∧ r = s := by
  simp only [prefixed, List.append_assoc, List.cons_append] at h
  obtain ⟨hlength, hrest⟩ := decimal_append_inj h
  exact List.append_inj hrest hlength

end DddFramework.Library
