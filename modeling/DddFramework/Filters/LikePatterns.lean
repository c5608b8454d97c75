import Mathlib.Data.List.Basic

/-! `$like` patterns as regular expressions. The compiled pattern is read back by
the fragment of PCRE it uses: a dot takes any character but a line break, and a
dollar also matches before a line break that ends the text. -/
namespace DddFramework.Filters

def regexSpecials : List Char := "()[]\x7b\x7d?*+-|^$\\.&~# \t\n\r\x0b\x0c".toList

def reEscape (c : Char) : List Char := if c ∈ regexSpecials then ['\\', c] else [c]

def compileLikeChar (c : Char) : List Char :=
  if c = '%' then ['.', '*']
  else if c = '_' then ['.']
  else reEscape c

def compileLikePattern (pattern : String) : String :=
  String.ofList ('^' :: (pattern.toList.flatMap compileLikeChar ++ ['$']))

/-- The pieces of a regular expression the compiled patterns consist of. -/
inductive Token where
  | start
  | finish
  | any
  | anyRun
  | char (c : Char)
deriving DecidableEq

def regexMeta : List Char := "\\^$.[]|()?*+\x7b\x7d".toList

/-- Reads the fragment; a quantifier stands after a dot only. -/
def parseRegex : List Char → Option (List Token)
  | [] => some []
  | [c] =>
    if c = '^' then some [.start]
    else if c = '$' then some [.finish]
    else if c = '.' then some [.any]
    else if c ∈ regexMeta then none
    else some [.char c]
  | c :: d :: rest =>
    if c = '^' then (parseRegex (d :: rest)).map (.start :: ·)
    else if c = '$' then (parseRegex (d :: rest)).map (.finish :: ·)
    else if c = '.' then
      if d = '*' then (parseRegex rest).map (.anyRun :: ·)
      else (parseRegex (d :: rest)).map (.any :: ·)
    else if c = '\\' then
      if d.isAlphanum then none else (parseRegex rest).map (.char d :: ·)
    else if c ∈ regexMeta then none
    else (parseRegex (d :: rest)).map (.char c :: ·)

def runs (take : Char → Bool) : List Char → List (List Char)
  | [] => [[]]
  | c :: rest => (c :: rest) :: if take c then runs take rest else []

def isLineBreak (c : Char) : Bool := c == '\n'

/-- The end of the text, or the line break that ends it. -/
def atFinish (rest : List Char) : Bool := rest.isEmpty || rest == ['\n']

section
variable (same : Char → Char → Bool)

/-- Matching from one position; `first` says whether it is the first of the text. -/
def matchTokens : List Token → Bool → List Char → Bool
  | [], _, _ => true
  | .start :: tokens, first, text => first && matchTokens tokens first text
  | .finish :: tokens, first, text => atFinish text && matchTokens tokens first text
  | .any :: _, _, [] => false
  | .any :: tokens, _, c :: text => !isLineBreak c && matchTokens tokens false text
  | .anyRun :: tokens, first, text => (runs (fun c => !isLineBreak c) text).any fun rest =>
      matchTokens tokens (first && rest.length == text.length) rest
  | .char _ :: _, _, [] => false
  | .char c :: tokens, _, d :: text => same c d && matchTokens tokens false text

def regexMatches (regex text : String) : Bool :=
  match parseRegex regex.toList with
  | none => false
  | some tokens => matchTokens same tokens true text.toList ||
      text.toList.tails.tail.any (matchTokens same tokens false)

/-- `LIKE` with `%` and `_`, whose wildcards take the characters `wild` admits and
which may stop where `ends` holds. -/
def likeMatch (ends : List Char → Bool) (wild : Char → Bool) : List Char → List Char → Bool
  | [], text => ends text
  | c :: pattern, text =>
    if c = '%' then (runs wild text).any (likeMatch ends wild pattern)
    else text.head?.any (fun d => if c = '_' then wild d else same c d) &&
      likeMatch ends wild pattern text.tail

/-- `LIKE` as the compiled regular expression reads it: no wildcard takes a line
break, and a line break may be left over at the end of the text. -/
def lineLike (pattern text : String) : Bool :=
  likeMatch same atFinish (fun c => !isLineBreak c) pattern.toList text.toList

end

def likeToken (c : Char) : Token :=
  if c = '%' then .anyRun
  else if c = '_' then .any
  else .char c

theorem mem_regexSpecials_of_mem_regexMeta {c : Char} (h : c ∈ regexMeta) : c ∈ regexSpecials := by
  have hall : (regexMeta.all fun c => decide (c ∈ regexSpecials)) = true := by decide
  exact of_decide_eq_true (List.all_eq_true.mp hall c h)

theorem isAlphanum_of_mem_regexSpecials {c : Char} (h : c ∈ regexSpecials) :
    c.isAlphanum = false := by
  have hall : (regexSpecials.all fun c => !c.isAlphanum) = true := by decide
  simpa using List.all_eq_true.mp hall c h

/-- No compiled character starts with a quantifier, so a dot before it stands alone. -/
theorem compileLikeChar_eq_cons (c : Char) :
    ∃ d rest, compileLikeChar c = d :: rest ∧ d ≠ '*' := by
  unfold compileLikeChar reEscape
  split
  · exact ⟨_, _, rfl, by decide⟩
  · split
    · exact ⟨_, _, rfl, by decide⟩
    · split
      · exact ⟨_, _, rfl, by decide⟩
      · rename_i hplain
        refine ⟨_, _, rfl, ?_⟩
        rintro rfl
        exact hplain (by decide)

theorem compiled_eq_cons (pattern : List Char) :
    ∃ d rest, pattern.flatMap compileLikeChar ++ ['$'] = d :: rest ∧ d ≠ '*' := by
  cases pattern with
  | nil => exact ⟨_, _, rfl, by decide⟩
  | cons c pattern =>
    obtain ⟨d, rest, hd, hne⟩ := compileLikeChar_eq_cons c
    exact ⟨d, rest ++ (pattern.flatMap compileLikeChar ++ ['$']), by simp [hd], hne⟩

theorem parseRegex_escaped {c d : Char} {rest : List Char} :
    parseRegex (reEscape c ++ d :: rest) = (parseRegex (d :: rest)).map (.char c :: ·) := by
  unfold reEscape
  split
  case isTrue hspecial =>
    have halnum := isAlphanum_of_mem_regexSpecials hspecial
    simp [parseRegex, halnum]
  case isFalse hplain =>
    have hmeta : c ∉ regexMeta := fun h => hplain (mem_regexSpecials_of_mem_regexMeta h)
    have hne : ∀ m ∈ regexMeta, c ≠ m := fun m hm hc => hmeta (hc ▸ hm)
    have hcaret := hne '^' (by decide)
    have hdollar := hne '$' (by decide)
    have hdot := hne '.' (by decide)
    have hslash := hne '\\' (by decide)
    simp [parseRegex, hcaret, hdollar, hdot, hslash, hmeta]

theorem parseRegex_compileLikeChar {c d : Char} {rest : List Char} (hd : d ≠ '*') :
    parseRegex (compileLikeChar c ++ d :: rest) =
      (parseRegex (d :: rest)).map (likeToken c :: ·) := by
  unfold compileLikeChar likeToken
  split
  · simp [parseRegex]
  · split
    · simp [parseRegex, hd]
    · exact parseRegex_escaped

theorem parseRegex_compiled (pattern : List Char) :
    parseRegex (pattern.flatMap compileLikeChar ++ ['$']) =
      some (pattern.map likeToken ++ [.finish]) := by
  induction pattern with
  | nil => rfl
  | cons c pattern ih =>
    obtain ⟨d, rest, heq, hd⟩ := compiled_eq_cons pattern
    rw [List.flatMap_cons, List.append_assoc, heq, parseRegex_compileLikeChar hd, ← heq, ih]
    rfl

section
variable {same : Char → Char → Bool}

theorem matchTokens_compiled (pattern : List Char) (first : Bool) (text : List Char) :
    matchTokens same (pattern.map likeToken ++ [.finish]) first text =
      likeMatch same atFinish (fun c => !isLineBreak c) pattern text := by
  induction pattern generalizing first text with
  | nil => simp [matchTokens, likeMatch]
  | cons c pattern ih =>
    rw [List.map_cons, List.cons_append, likeMatch]
    by_cases hrun : c = '%'
    · have htoken : likeToken c = .anyRun := if_pos hrun
      rw [htoken, if_pos hrun]
      simp only [matchTokens, ih]
    · by_cases hany : c = '_'
      · have htoken : likeToken c = .any := by simp [likeToken, hany]
        rw [htoken, if_neg hrun]
        cases text <;> simp [hany, matchTokens, ih]
      · have htoken : likeToken c = .char c := by simp [likeToken, hrun, hany]
        rw [htoken, if_neg hrun]
        cases text <;> simp [hany, matchTokens, ih]

/-- The regular expression of a pattern, read by PCRE, is the pattern's line-wise `LIKE`. -/
theorem regexMatches_compileLikePattern (pattern text : String) :
    regexMatches same (compileLikePattern pattern) text = lineLike same pattern text := by
  obtain ⟨d, rest, heq, -⟩ := compiled_eq_cons pattern.toList
  have hparse : parseRegex (compileLikePattern pattern).toList =
      some (.start :: (pattern.toList.map likeToken ++ [.finish])) := by
    rw [compileLikePattern, String.toList_ofList, heq]
    simp only [parseRegex, if_true]
    rw [← heq, parseRegex_compiled]
    rfl
  unfold regexMatches lineLike
  rw [hparse]
  simp [matchTokens, matchTokens_compiled]

end
end DddFramework.Filters
