import DddFramework.Library.Wildcards
import DddFramework.Filters.LikePatterns

/-! What `$like` means in MongoDB against what `LIKE` means. The dot of a regular expression
takes no line break and its dollar lets one be left over, so the two part at some of the
texts that have more line breaks than the pattern writes. -/
namespace DddFramework.Filters
open Library.Wildcards

def likePiece (c : Char) : Piece Char :=
  if c = '%' then .run
  else if c = '_' then .one
  else .letter c

def likeLanguage (pattern : String) : Language Char :=
  language Set.univ (pattern.toList.map likePiece)

theorem mem_runs {take : Char → Bool} {text rest : List Char} :
    rest ∈ runs take text ↔ ∃ taken, taken ++ rest = text ∧ ∀ c ∈ taken, take c = true := by
  induction text with
  | nil =>
    rw [runs, List.mem_singleton]
    constructor
    · rintro rfl
      exact ⟨[], rfl, by simp⟩
    · rintro ⟨taken, htaken, -⟩
      exact (List.append_eq_nil_iff.mp htaken).2
  | cons c text ih =>
    rw [runs, List.mem_cons]
    constructor
    · rintro (rfl | hrest)
      · exact ⟨[], rfl, by simp⟩
      · split at hrest
        case isTrue hc =>
          obtain ⟨taken, rfl, htaken⟩ := ih.mp hrest
          exact ⟨c :: taken, rfl, List.forall_mem_cons.mpr ⟨hc, htaken⟩⟩
        case isFalse hc => cases hrest
    · rintro ⟨taken, htext, htaken⟩
      cases taken with
      | nil => exact .inl htext
      | cons d taken =>
        obtain ⟨rfl, rfl⟩ := List.cons.inj htext
        obtain ⟨hd, htaken⟩ := List.forall_mem_cons.mp htaken
        right
        rw [if_pos hd]
        exact ih.mpr ⟨taken, rfl, htaken⟩

theorem mem_language_likePiece {wild : Char → Bool} {c : Char} (hrun : c ≠ '%')
    {word : List Char} : word ∈ (likePiece c).language {c | wild c = true} ↔
      ∃ d, (if c = '_' then wild d else c == d) = true ∧ word = [d] := by
  by_cases hone : c = '_'
  · subst hone
    exact Iff.rfl
  · have hpiece : likePiece c = .letter c := by simp [likePiece, hrun, hone]
    simp only [hpiece, if_neg hone, beq_iff_eq, exists_eq_left']
    exact Iff.rfl

theorem likeMatch_iff {ends : List Char → Bool} {wild : Char → Bool} {pattern text : List Char} :
    likeMatch (· == ·) ends wild pattern text = true ↔
      ∃ word rest, word ++ rest = text ∧
        word ∈ language {c | wild c = true} (pattern.map likePiece) ∧ ends rest = true := by
  induction pattern generalizing text with
  | nil => simp [likeMatch]
  | cons c pattern ih =>
    rw [likeMatch, List.map_cons]
    split
    case isTrue hrun =>
      have hpiece : likePiece c = .run := if_pos hrun
      simp only [List.any_eq_true, mem_runs, ih, hpiece, mem_language_cons]
      constructor
      · rintro ⟨_, ⟨taken, rfl, htaken⟩, word, rest, rfl, hword, hrest⟩
        exact ⟨taken ++ word, rest, by simp, ⟨taken, htaken, word, hword, rfl⟩, hrest⟩
      · rintro ⟨_, rest, rfl, ⟨taken, htaken, word, hword, rfl⟩, hrest⟩
        exact ⟨word ++ rest, ⟨taken, by simp, htaken⟩, word, rest, rfl, hword, hrest⟩
    case isFalse hrun =>
      simp only [Bool.and_eq_true, ih, mem_language_cons, mem_language_likePiece hrun]
      constructor
      · rintro ⟨hhead, word, rest, htail, hword, hrest⟩
        cases text with
        | nil => cases hhead
        | cons d text =>
          refine ⟨d :: word, rest, congrArg (d :: ·) htail, ?_, hrest⟩
          exact ⟨[d], ⟨d, hhead, rfl⟩, word, hword, rfl⟩
      · rintro ⟨_, rest, rfl, ⟨_, ⟨d, hd, rfl⟩, word, hword, rfl⟩, hrest⟩
        exact ⟨hd, word, rest, rfl, hword, hrest⟩

theorem count_likePiece (pattern : List Char) :
    (pattern.map likePiece).count (.letter '\n') = pattern.count '\n' := by
  induction pattern with
  | nil => rfl
  | cons c pattern ih =>
    have hpiece : (likePiece c == .letter '\n') = (c == '\n') := by
      unfold likePiece
      split
      case isTrue hrun =>
        subst hrun
        decide
      case isFalse hrun =>
        split
        case isTrue hone =>
          subst hone
          decide
        case isFalse hone => simp [BEq.beq]
    rw [List.map_cons, List.count_cons, List.count_cons, ih, hpiece]

/-- The subject ends with a line break that the pattern does not write and that is the only
such one, behind a text of the pattern's language. -/
def SpareBreak (pattern subject : String) : Prop :=
  ∃ text ∈ likeLanguage pattern, subject.toList = text ++ ['\n'] ∧
    text.count '\n' = pattern.toList.count '\n'

theorem regexMatches_iff (pattern subject : String) :
    regexMatches (· == ·) (compileLikePattern pattern) subject = true ↔
      (subject.toList ∈ likeLanguage pattern ∧
        subject.toList.count '\n' = pattern.toList.count '\n') ∨ SpareBreak pattern subject := by
  have hwild : {c : Char | (!isLineBreak c) = true} = {'\n'}ᶜ := by
    ext c
    simp [isLineBreak]
  rw [regexMatches_compileLikePattern, lineLike, likeMatch_iff, hwild]
  simp only [mem_language_compl_iff, count_likePiece, atFinish, Bool.or_eq_true,
    List.isEmpty_iff, beq_iff_eq]
  constructor
  · rintro ⟨word, rest, htext, ⟨hword, hcount⟩, rfl | rfl⟩
    · rw [List.append_nil] at htext
      subst htext
      exact .inl ⟨hword, hcount⟩
    · exact .inr ⟨word, hword, htext.symm, hcount⟩
  · rintro (⟨hword, hcount⟩ | ⟨word, hword, htext, hcount⟩)
    · exact ⟨subject.toList, [], List.append_nil _, ⟨hword, hcount⟩, .inl rfl⟩
    · exact ⟨word, ['\n'], htext.symm, ⟨hword, hcount⟩, .inr rfl⟩

/-- A subject is matched just when it is in the `LIKE` language of the pattern, exactly when
it has no more line breaks than the pattern writes, or else is in the language if and only if
one spare line break ends it behind a text of the language. -/
theorem like_exact_iff (pattern subject : String) :
    (regexMatches (· == ·) (compileLikePattern pattern) subject = true ↔
        subject.toList ∈ likeLanguage pattern) ↔
      subject.toList.count '\n' ≤ pattern.toList.count '\n' ∨
        (subject.toList ∈ likeLanguage pattern ↔ SpareBreak pattern subject) := by
  have hfew (h : subject.toList ∈ likeLanguage pattern) :
      pattern.toList.count '\n' ≤ subject.toList.count '\n' := by
    rw [← count_likePiece]
    exact count_le h
  have hspare (h : SpareBreak pattern subject) :
      pattern.toList.count '\n' < subject.toList.count '\n' := by
    obtain ⟨text, -, htext, hcount⟩ := h
    rw [htext, List.count_append, hcount]
    simp
  rw [regexMatches_iff]
  by_cases hcount : subject.toList.count '\n' ≤ pattern.toList.count '\n'
  · refine iff_of_true ⟨?_, fun h => ?_⟩ (.inl hcount)
    · rintro (⟨h, -⟩ | h)
      · exact h
      · exact absurd (hspare h) (by omega)
    · exact .inl ⟨h, by have := hfew h; omega⟩
  · have hne : ¬subject.toList.count '\n' = pattern.toList.count '\n' := by omega
    simp only [hcount, hne, and_false, false_or]
    exact iff_comm

/-- `%` alone matches every text in `LIKE`, but not one of two lines in MongoDB. -/
theorem twoLines_not_exact : ¬(regexMatches (· == ·) (compileLikePattern "%") "a\nb" = true ↔
    "a\nb".toList ∈ likeLanguage "%") := by
  have hpattern : "%".toList.map likePiece = [.run] := by decide
  have hlike : "a\nb".toList ∈ likeLanguage "%" := by
    rw [likeLanguage, hpattern, mem_language_cons]
    exact ⟨_, fun _ _ => trivial, [], mem_language_nil.mpr rfl, List.append_nil _⟩
  intro h
  exact absurd (h.mpr hlike) (by decide)

end DddFramework.Filters
