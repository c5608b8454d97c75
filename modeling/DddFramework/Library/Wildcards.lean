import Mathlib.Computability.Language

/-! Patterns with wildcards, as languages. What the wildcards may take is a parameter: a word
read by wildcards that take anything is also read by wildcards that spare one letter exactly
when it has as many of that letter as the pattern itself. -/
namespace DddFramework.Library.Wildcards

inductive Piece (α : Type) where
  | run
  | one
  | letter (c : α)
deriving DecidableEq

variable {α : Type}

def Piece.language (wild : Set α) : Piece α → Language α
  | .run => {word | ∀ c ∈ word, c ∈ wild}
  | .one => {word | ∃ c ∈ wild, word = [c]}
  | .letter c => {[c]}

theorem Piece.mem_language_run {wild : Set α} {word : List α} :
    word ∈ Piece.run.language wild ↔ ∀ c ∈ word, c ∈ wild := Iff.rfl

/-- The words that the pieces of a pattern make up one after the other. -/
def language (wild : Set α) (pattern : List (Piece α)) : Language α :=
  (pattern.map (Piece.language wild)).prod

section membership
variable {wild : Set α} {piece : Piece α} {pattern : List (Piece α)} {word : List α}

@[simp] theorem mem_language_nil : word ∈ language wild [] ↔ word = [] :=
  Language.mem_one word

theorem mem_language_cons : word ∈ language wild (piece :: pattern) ↔
    ∃ taken ∈ piece.language wild, ∃ rest ∈ language wild pattern, taken ++ rest = word := by
  unfold language
  rw [List.map_cons, List.prod_cons]
  exact Language.mem_mul

end membership

section spared
variable [DecidableEq α] {s : α} {wild : Set α} {piece : Piece α} {pattern : List (Piece α)}
  {word : List α}

theorem Piece.count_le (hword : word ∈ piece.language wild) :
    [piece].count (.letter s) ≤ word.count s := by
  cases piece with
  | run | one => simp
  | letter c =>
    cases (hword : word = [c])
    simp [List.count_cons]

theorem Piece.mem_language_compl_iff : word ∈ piece.language {s}ᶜ ↔
    word ∈ piece.language Set.univ ∧ word.count s = [piece].count (.letter s) := by
  cases piece with
  | run =>
    have hnone : (∀ c ∈ word, c ≠ s) ↔ word.count s = 0 := by
      rw [List.count_eq_zero]
      exact ⟨fun h hs => h s hs rfl, fun h c hc heq => h (heq ▸ hc)⟩
    simp [mem_language_run, hnone]
  | one =>
    constructor
    · rintro ⟨c, hc, rfl⟩
      exact ⟨⟨c, trivial, rfl⟩, by simpa [List.count_cons] using hc⟩
    · rintro ⟨⟨c, -, rfl⟩, hcount⟩
      exact ⟨c, by simpa [List.count_cons] using hcount, rfl⟩
  | letter c =>
    refine (and_iff_left_of_imp fun hword => ?_).symm
    cases (hword : word = [c])
    simp [List.count_cons]

theorem count_le (hword : word ∈ language wild pattern) :
    pattern.count (.letter s) ≤ word.count s := by
  induction pattern generalizing word with
  | nil => simp
  | cons piece pattern ih =>
    obtain ⟨taken, htaken, rest, hrest, rfl⟩ := mem_language_cons.mp hword
    have hpiece := Piece.count_le (s := s) htaken
    have hpattern := ih hrest
    rw [List.count_append, List.count_cons]
    simp only [List.count_singleton] at hpiece
    omega

theorem mem_language_compl_iff : word ∈ language {s}ᶜ pattern ↔
    word ∈ language Set.univ pattern ∧ word.count s = pattern.count (.letter s) := by
  induction pattern generalizing word with
  | nil =>
    rw [mem_language_nil, mem_language_nil]
    refine (and_iff_left_of_imp fun hword => ?_).symm
    simp [hword]
  | cons piece pattern ih =>
    have hsplit : (piece :: pattern).count (.letter s) =
        [piece].count (.letter s) + pattern.count (.letter s) := by
      rw [← List.count_append, List.singleton_append]
    rw [mem_language_cons, mem_language_cons, hsplit]
    constructor
    · rintro ⟨taken, htaken, rest, hrest, rfl⟩
      obtain ⟨htaken, htakenCount⟩ := Piece.mem_language_compl_iff.mp htaken
      obtain ⟨hrest, hrestCount⟩ := ih.mp hrest
      exact ⟨⟨taken, htaken, rest, hrest, rfl⟩, by rw [List.count_append]; omega⟩
    · rintro ⟨⟨taken, htaken, rest, hrest, rfl⟩, hcount⟩
      -- neither part has fewer than it must, so each has just as many
      have htakenCount := Piece.count_le (s := s) htaken
      have hrestCount := count_le (s := s) hrest
      rw [List.count_append] at hcount
      refine ⟨taken, Piece.mem_language_compl_iff.mpr ⟨htaken, ?_⟩, rest, ih.mpr ⟨hrest, ?_⟩, rfl⟩
      · omega
      · omega

end spared
end DddFramework.Library.Wildcards
