import DddFramework.Library.Delimited
import DddFramework.Library.Strip
import DddFramework.Filters.Dsl
import DddFramework.Paging.Page

/-! `parse_sort_query_param`, which reads a sorting as `name`, `-name` or `name:desc`. -/
namespace DddFramework.Paging
open Library
open Filters (Python LowersAscii asciiPython lowersAscii_asciiPython)

def SortDirection.text : SortDirection → String
  | .asc => "asc"
  | .desc => "desc"

def readDirection (text : String) : Option SortDirection :=
  if text = "asc" then some .asc else if text = "desc" then some .desc else none

section parser
variable (py : Python)

def splitSort (cleaned : List Char) : List Char × String :=
  if cleaned.head? = some '-' then (cleaned.tail, "desc")
  else if ':' ∈ cleaned then
    ((splitFirst ':' cleaned).1, py.lower (String.ofList (splitFirst ':' cleaned).2))
  else (cleaned, "asc")

def readSort (field : List Char) (direction : String) : Except Exn Sorting :=
  if field = [] then .error (.valueError "Sort field cannot be empty.")
  else
    match readDirection direction with
    | none => .error (.valueError
        ("Invalid sort direction: " ++ py.repr direction ++ ".Expected 'asc' or 'desc'."))
    | some direction => .ok ⟨String.ofList field, direction⟩

def parseSortQueryParam : Option String → Except Exn Sorting
  | none => .error (.attributeError "'NoneType' object has no attribute 'strip'")
  | some param =>
    let cleaned := strip isSpace param.toList
    if cleaned = [] then .error (.valueError "Sort query param cannot be empty.")
    else readSort py (splitSort py cleaned).1 (splitSort py cleaned).2

/-- A name that none of the three spellings takes for something else. -/
structure PlainField (field : List Char) : Prop where
  nonempty : field ≠ []
  noColon : ':' ∉ field
  stripped : Stripped isSpace field
  noDash : field.head? ≠ some '-'

/-- A sorting whose canonical spellings are read as that sorting. -/
structure OneReading (sort : Sorting) : Prop where
  plain : PlainField sort.field.toList
  full : parseSortQueryParam py (some (sort.field ++ ":" ++ sort.direction.text)) = .ok sort
  dashed : sort.direction = .desc → parseSortQueryParam py (some ("-" ++ sort.field)) = .ok sort
  bare : sort.direction = .asc → parseSortQueryParam py (some sort.field) = .ok sort

def HasOneReading (param : String) : Prop :=
  ∀ sort, parseSortQueryParam py (some param) = .ok sort → OneReading py sort

/-- After `-` comes a name without another `-`, a space or a colon; before the colon of a spelled
direction no space. -/
def ClearlySpelled (cleaned : List Char) : Prop :=
  if cleaned.head? = some '-' then
    ':' ∉ cleaned.tail ∧
      ∀ c ∈ cleaned.tail.head?, c ≠ '-' ∧ isSpace c = false
  else
    ':' ∈ cleaned → (readDirection (py.lower (String.ofList (splitFirst ':' cleaned).2))).isSome →
      ∀ c ∈ (splitFirst ':' cleaned).1.getLast?, isSpace c = false

variable {py} {field cleaned : List Char}

theorem readDirection_text (direction : SortDirection) :
    readDirection direction.text = some direction := by
  cases direction <;> rfl

theorem lower_text (hlower : LowersAscii py) (direction : SortDirection) :
    py.lower direction.text = direction.text := by
  cases direction with
  | asc => exact hlower.lower_eq rfl
  | desc => exact hlower.lower_eq rfl

theorem parseSortQueryParam_of_stripped {param : String} (hparam : Stripped isSpace param.toList)
    (hne : param.toList ≠ []) :
    parseSortQueryParam py (some param) =
      readSort py (splitSort py param.toList).1 (splitSort py param.toList).2 := by
  simp only [parseSortQueryParam, hparam.strip_eq, if_neg hne]

section canonical
variable (h : PlainField field)
include h

theorem parse_bare :
    parseSortQueryParam py (some (String.ofList field)) = .ok ⟨String.ofList field, .asc⟩ := by
  have htext : (String.ofList field).toList = field := String.toList_ofList
  rw [parseSortQueryParam_of_stripped (by rw [htext]; exact h.stripped)
    (by rw [htext]; exact h.nonempty), htext]
  simp only [splitSort, if_neg h.noDash, if_neg h.noColon, readSort, if_neg h.nonempty]
  rfl

theorem parse_dashed :
    parseSortQueryParam py (some ("-" ++ String.ofList field)) =
      .ok ⟨String.ofList field, .desc⟩ := by
  have htext : ("-" ++ String.ofList field).toList = ['-'] ++ field := by
    simp only [String.toList_append, String.toList_ofList]
    rfl
  have hstripped : Stripped isSpace (['-'] ++ field) := by
    apply stripped_append (List.cons_ne_nil _ _) h.nonempty _ h.stripped.last
    intro c hc
    obtain rfl := Option.some.inj hc
    decide
  rw [parseSortQueryParam_of_stripped (by rw [htext]; exact hstripped)
    (by rw [htext]; exact List.cons_ne_nil _ _), htext]
  simp only [splitSort, List.singleton_append, List.head?_cons, if_true, List.tail_cons, readSort,
    if_neg h.nonempty]
  rfl

theorem parse_full (hlower : LowersAscii py) (direction : SortDirection) :
    parseSortQueryParam py (some (String.ofList field ++ ":" ++ direction.text)) =
      .ok ⟨String.ofList field, direction⟩ := by
  have htext : (String.ofList field ++ ":" ++ direction.text).toList =
      field ++ ':' :: direction.text.toList := by
    simp only [String.toList_append, String.toList_ofList, List.append_assoc]
    rfl
  have hstripped : Stripped isSpace (field ++ ':' :: direction.text.toList) := by
    apply stripped_append h.nonempty (List.cons_ne_nil _ _) h.stripped.first
    intro c hc
    cases direction with
    | asc =>
      obtain rfl := Option.some.inj hc
      rfl
    | desc =>
      obtain rfl := Option.some.inj hc
      rfl
  have hhead : (field ++ ':' :: direction.text.toList).head? ≠ some '-' := by
    rw [List.head?_append_of_ne_nil _ h.nonempty]
    exact h.noDash
  have hcolon : ':' ∈ field ++ ':' :: direction.text.toList :=
    List.mem_append_right field List.mem_cons_self
  rw [parseSortQueryParam_of_stripped (by rw [htext]; exact hstripped)
    (by rw [htext]; exact List.append_ne_nil_of_left_ne_nil h.nonempty _), htext]
  simp only [splitSort, if_neg hhead, if_pos hcolon, splitFirst_append h.noColon,
    String.ofList_toList, lower_text hlower, readSort, if_neg h.nonempty, readDirection_text]

end canonical

theorem oneReading_iff (hlower : LowersAscii py) {direction : SortDirection} :
    OneReading py ⟨String.ofList field, direction⟩ ↔ PlainField field := by
  apply Iff.intro
  · intro h
    have hplain := h.plain
    rwa [String.toList_ofList] at hplain
  · intro h
    constructor
    · rwa [String.toList_ofList]
    · exact parse_full h hlower direction
    · rintro rfl
      exact parse_dashed h
    · rintro rfl
      exact parse_bare h

theorem readSort_eq_ok {direction : String} {sort : Sorting} :
    readSort py field direction = .ok sort ↔ field ≠ [] ∧
      ∃ read, readDirection direction = some read ∧ sort = ⟨String.ofList field, read⟩ := by
  unfold readSort
  by_cases hfield : field = []
  · simp [hfield]
  · rw [if_neg hfield]
    cases readDirection direction with
    | none => simp
    | some read => simp [hfield, eq_comm]

theorem hasOneReading_iff_plain (hlower : LowersAscii py) {param : String}
    (hne : strip isSpace param.toList ≠ []) :
    HasOneReading py param ↔
      let split := splitSort py (strip isSpace param.toList)
      split.1 ≠ [] → (readDirection split.2).isSome → PlainField split.1 := by
  unfold HasOneReading
  simp only [parseSortQueryParam, if_neg hne, readSort_eq_ok]
  apply Iff.intro
  · intro h hfield hdirection
    obtain ⟨read, hread⟩ := Option.isSome_iff_exists.mp hdirection
    exact (oneReading_iff hlower).mp (h _ ⟨hfield, read, hread, rfl⟩)
  · rintro h sort ⟨hfield, read, hread, rfl⟩
    exact (oneReading_iff hlower).mpr (h hfield (by rw [hread]; rfl))

section spellings
variable (h : Stripped isSpace cleaned)
include h

theorem plain_dashed (hdash : cleaned.head? = some '-') :
    (cleaned.tail ≠ [] → PlainField cleaned.tail) ↔ ':' ∉ cleaned.tail ∧
      ∀ c ∈ cleaned.tail.head?, c ≠ '-' ∧ isSpace c = false := by
  cases cleaned with
  | nil => cases hdash
  | cons first field =>
    rw [List.tail_cons]
    cases field with
    | nil => simp
    | cons c field =>
      apply Iff.intro
      · intro hplain
        have hfield := hplain (List.cons_ne_nil _ _)
        refine ⟨hfield.noColon, ?_⟩
        intro d hd
        refine ⟨?_, hfield.stripped.first d hd⟩
        rintro rfl
        exact hfield.noDash hd
      · rintro ⟨hcolon, hhead⟩ hne
        obtain ⟨hdash, hspace⟩ := hhead c rfl
        constructor
        · exact hne
        · exact hcolon
        · constructor
          · intro d hd
            obtain rfl := Option.some.inj hd
            exact hspace
          · intro d hd
            exact h.last d (by rw [List.getLast?_cons_cons]; exact hd)
        · intro hd
          exact hdash (Option.some.inj hd)

theorem plain_colon (hdash : cleaned.head? ≠ some '-') :
    ((splitFirst ':' cleaned).1 ≠ [] → PlainField (splitFirst ':' cleaned).1) ↔
      ∀ c ∈ (splitFirst ':' cleaned).1.getLast?, isSpace c = false := by
  apply Iff.intro
  · intro hplain c hc
    have hne : (splitFirst ':' cleaned).1 ≠ [] := by
      intro hnil
      rw [hnil] at hc
      cases hc
    exact (hplain hne).stripped.last c hc
  · intro hlast hne
    have hhead := head?_splitFirst hne
    constructor
    · exact hne
    · exact notMem_splitFirst ':' cleaned
    · constructor
      · rw [hhead]
        exact h.first
      · exact hlast
    · rwa [hhead]

end spellings

/-- A sort parameter has one reading just when it is clearly spelled: the parser strips it as a
whole only, and looks for `-` before it looks for a colon. -/
theorem sortParam_one_reading_iff (hlower : LowersAscii py) (param : String) :
    HasOneReading py param ↔ ClearlySpelled py (strip isSpace param.toList) := by
  have hstripped := stripped_strip isSpace param.toList
  by_cases hne : strip isSpace param.toList = []
  · have herror : HasOneReading py param := by
      intro sort hsort
      simp only [parseSortQueryParam, if_pos hne] at hsort
      cases hsort
    simp [herror, hne, ClearlySpelled]
  · rw [hasOneReading_iff_plain hlower hne]
    generalize strip isSpace param.toList = cleaned at hstripped hne
    unfold ClearlySpelled splitSort
    by_cases hdash : cleaned.head? = some '-'
    · simp only [if_pos hdash]
      rw [← plain_dashed hstripped hdash]
      simp [readDirection]
    · simp only [if_neg hdash]
      by_cases hcolon : ':' ∈ cleaned
      · simp only [if_pos hcolon]
        rw [← plain_colon hstripped hdash]
        simp only [hcolon, forall_const]
        exact forall_comm
      · simp only [if_neg hcolon]
        have hplain : PlainField cleaned := ⟨hne, hcolon, hstripped, hdash⟩
        simp [hplain, hcolon]

end parser

theorem sortParam_one_reading_iff_createdAt : HasOneReading asciiPython " created_at:DESC" := by
  have hcleaned : strip isSpace " created_at:DESC".toList = "created_at:DESC".toList := by
    decide +kernel
  apply (sortParam_one_reading_iff lowersAscii_asciiPython _).mpr
  rw [hcleaned, ClearlySpelled, if_neg (by decide)]
  intro _ _ c hc
  obtain rfl := Option.some.inj hc
  rfl

/-- A second dash, a direction after a dash, and a space before the colon become part of the
field. -/
theorem sortParam_mangled_field :
    parseSortQueryParam asciiPython (some "--name") = .ok ⟨"-name", .desc⟩ ∧
      parseSortQueryParam asciiPython (some "-name:asc") = .ok ⟨"name:asc", .desc⟩ ∧
      parseSortQueryParam asciiPython (some "name :desc") = .ok ⟨"name ", .desc⟩ ∧
      ¬ HasOneReading asciiPython "--name" ∧ ¬ HasOneReading asciiPython "-name:asc" ∧
      ¬ HasOneReading asciiPython "name :desc" := by
  have hdash : parseSortQueryParam asciiPython (some "--name") = .ok ⟨"-name", .desc⟩ := by
    decide +kernel
  have hcolon : parseSortQueryParam asciiPython (some "-name:asc") =
      .ok ⟨"name:asc", .desc⟩ := by
    decide +kernel
  have hspace : parseSortQueryParam asciiPython (some "name :desc") = .ok ⟨"name ", .desc⟩ := by
    decide +kernel
  refine ⟨hdash, hcolon, hspace, ?_, ?_, ?_⟩
  · intro h
    exact (h _ hdash).plain.noDash (by decide)
  · intro h
    exact (h _ hcolon).plain.noColon (by decide)
  · intro h
    have hlast := (h _ hspace).plain.stripped.last ' ' (by decide)
    exact absurd hlast (by decide)

end DddFramework.Paging
