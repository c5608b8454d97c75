import DddFramework.Paging.MongoKeyset
import DddFramework.Paging.SqlPages

/-! What a cursor is checked for before it is used. Both codecs read back what they wrote.
A text that is no cursor is refused with a `ValueError`, except that the MongoDB codec takes
whatever `json_util` reads for a dict; and of the sort its cursor was made for it keeps only
how many fields that has. -/
namespace DddFramework.Paging
open Library Library.Fallible

def Exn.IsValueError (exn : Exn) : Prop := ∃ message, exn = .valueError message

theorem isValueError (message : String) : (Exn.valueError message).IsValueError := ⟨message, rfl⟩

theorem not_isValueError_attributeError (message : String) :
    ¬(Exn.attributeError message).IsValueError := by
  rintro ⟨_, h⟩
  cases h

theorem not_isValueError_typeError (message : String) : ¬(Exn.typeError message).IsValueError := by
  rintro ⟨_, h⟩
  cases h

section decoding
variable {V : Type} (json : JsonCodec) (util : Mongo.JsonUtil V)

theorem decodeCursor_failsOnly (cursor : String) :
    FailsOnly Exn.IsValueError (decodeCursor json cursor) := by
  fun_cases decodeCursor json cursor with
  | case1 => exact failsOnly_ok
  | case2 => exact failsOnly_error.mpr (isValueError _)
  | case3 => exact failsOnly_error.mpr (isValueError _)

def Mongo.loaded (cursor : String) : Option (Mongo.Loaded V) :=
  let text := Base64.repad cursor.toList
  if text.all fun c => c.val < 128 then (Base64.decode false text).bind util.loads else none

/-- `json_util.loads` makes nothing of a text but a dict: an object such as
`{"$numberInt": "1"}` is no dict any more when it is read. -/
def Mongo.DictOnly (cursor : String) : Prop :=
  ∀ loaded, Mongo.loaded util cursor = some loaded → ∃ v values, loaded = .dict v values

theorem Mongo.decodeCursor_failsOnly_iff (cursor : String) :
    FailsOnly Exn.IsValueError (Mongo.decodeCursor util cursor) ↔
      Mongo.DictOnly util cursor := by
  unfold Mongo.decodeCursor Mongo.DictOnly Mongo.loaded
  dsimp only
  split
  case isTrue hascii =>
    cases (Base64.decode false (Base64.repad cursor.toList)).bind util.loads with
    | none => exact iff_of_true (failsOnly_error.mpr (isValueError _)) (by simp)
    | some loaded =>
      cases loaded with
      | other message =>
        apply iff_of_false
        · rw [failsOnly_error]
          exact not_isValueError_attributeError _
        · simp
      | reference get =>
        apply iff_of_false
        · rw [failsOnly_error]
          exact not_isValueError_typeError _
        · simp
      | dict v values =>
        refine iff_of_true ?_ (by simp)
        dsimp only
        split
        · exact failsOnly_error.mpr (isValueError _)
        · cases values with
          | none => exact failsOnly_error.mpr (isValueError _)
          | some values => exact failsOnly_ok
  case isFalse hascii => exact iff_of_true (failsOnly_error.mpr (isValueError _)) (by simp)

/-- Both decoders return or raise a `ValueError` on a text exactly when `json_util.loads`
makes nothing of it but a dict. -/
theorem decoders_failOnly_iff (cursor : String) :
    FailsOnly Exn.IsValueError (decodeCursor json cursor) ∧
        FailsOnly Exn.IsValueError (Mongo.decodeCursor util cursor) ↔
      Mongo.DictOnly util cursor := by
  rw [and_iff_right (decodeCursor_failsOnly json cursor), Mongo.decodeCursor_failsOnly_iff]

def emptyListText : List UInt8 := [91, 93]

def listJson : Mongo.JsonUtil Nat where
  dumps := Mongo.sampleJson.dumps
  loads raw :=
    if raw = emptyListText then some (.other "'list' object has no attribute 'get'")
    else Mongo.sampleJson.loads raw
  loads_dumps payload := by
    have hother : Mongo.sampleJson.dumps payload ≠ emptyListText := by
      by_cases h : payload = ⟨1, [1]⟩
      · subst h
        decide
      · intro heq
        have hmem : (91 : UInt8) ∈ Mongo.sampleJson.dumps payload := by simp [heq, emptyListText]
        simp only [Mongo.sampleJson, Mongo.codec, if_neg h, List.mem_replicate] at hmem
        exact absurd hmem.2 (by decide)
    rw [if_neg hother]
    exact Mongo.sampleJson.loads_dumps payload

/-- `W10` is the Base64 text of `[]`: a list has no `get`. -/
theorem emptyList_leaks :
    ¬(FailsOnly Exn.IsValueError (decodeCursor sampleJson "W10") ∧
      FailsOnly Exn.IsValueError (Mongo.decodeCursor listJson "W10")) := by
  rintro ⟨-, hmongo⟩
  have hraises : Mongo.decodeCursor listJson "W10" =
      .error (.attributeError "'list' object has no attribute 'get'") := by decide
  exact not_isValueError_attributeError _ (hmongo _ hraises)

/-- A cursor reads back as what was encoded, for both codecs; the Base64 text of any bytes
survives the loss of its padding, for the strict decoder and for the lenient one. -/
theorem cursors_roundTrip :
    (∀ payload, decodeCursor json (encodeCursor json payload) = .ok payload) ∧
      (∀ document sort, Mongo.decodeCursor util (Mongo.encodeCursor util document sort) =
        .ok (document.values sort)) ∧
      ∀ strict bytes,
        Base64.decode strict (Base64.repad (Base64.strip (Base64.encode bytes))) = some bytes :=
  ⟨decodeCursor_encodeCursor, Mongo.decodeCursor_encodeCursor util,
    Base64.decode_repad_strip_encode⟩

end decoding

namespace Mongo
variable {V : Type} {py : Filters.Python} {whitelist whitelist' : String → Option String}
  {sort sort' : Option Sorting} {first second : List (String × SortDirection)}

def ById (sort : List (String × SortDirection)) : Prop := sort.map Prod.fst = ["_id"]

instance (sort : List (String × SortDirection)) : Decidable (ById sort) :=
  inferInstanceAs (Decidable (_ = _))

theorem compileSort_eq_criteria (h : compileSort py whitelist sort = .ok first) :
    ∃ field direction, first = criteria field direction := by
  cases first with
  | nil =>
    cases sort with
    | none => cases h
    | some sort =>
      simp only [compileSort] at h
      obtain ⟨field, -, hfield⟩ := Fallible.bind_eq_ok.mp h
      split at hfield <;> cases hfield
  | cons criterion rest =>
    obtain ⟨field, direction⟩ := criterion
    have hcriteria := compileSort_eq_ok _ _ h
    rw [h] at hcriteria
    exact ⟨field, direction, Except.ok.inj hcriteria⟩

theorem criteria_length (field : String) (direction : SortDirection) :
    (criteria field direction).length = if ById (criteria field direction) then 1 else 2 := by
  by_cases hid : field = "_id" <;> simp [criteria, ById, hid]

/-- The number of criteria tells a sort by `_id` from any other, and nothing more. -/
theorem compileSort_length_eq_iff (hfirst : compileSort py whitelist sort = .ok first)
    (hsecond : compileSort py whitelist' sort' = .ok second) :
    first.length = second.length ↔ (ById first ↔ ById second) := by
  obtain ⟨field, direction, rfl⟩ := compileSort_eq_criteria hfirst
  obtain ⟨field', direction', rfl⟩ := compileSort_eq_criteria hsecond
  rw [criteria_length, criteria_length]
  by_cases h : ById (criteria field direction) <;>
    by_cases h' : ById (criteria field' direction') <;> simp [h, h']

theorem buildCursorFilter_refused_iff (json : JsonUtil V) {document : Document V}
    (h : document.Has first) :
    (∃ message, buildCursorFilter json (encodeCursor json document first) second =
        .error (.valueError message)) ↔ first.length ≠ second.length := by
  simp only [buildCursorFilter, decodeCursor_encodeCursor, bind, Except.bind, h.length_eq]
  by_cases hlength : first.length = second.length
  · rw [if_neg (not_not.mpr hlength)]
    refine iff_of_false ?_ (not_not.mpr hlength)
    rintro ⟨message, herror⟩
    split at herror <;> cases herror
  · rw [if_pos hlength]
    exact iff_of_true ⟨_, rfl⟩ hlength

/-- The cursor of a document is refused under another sort exactly when one of the two sorts
is by `_id` alone and the other is not. -/
theorem cursor_bound_iff (json : JsonUtil V) {document : Document V}
    (hfirst : compileSort py whitelist sort = .ok first)
    (hsecond : compileSort py whitelist' sort' = .ok second) (h : document.Has first) :
    (∃ message, buildCursorFilter json (encodeCursor json document first) second =
        .error (.valueError message)) ↔ ¬(ById first ↔ ById second) := by
  rw [buildCursorFilter_refused_iff json h, Ne, compileSort_length_eq_iff hfirst hsecond]

def ageText : List UInt8 :=
  ("\x7b\"v\":1,\"values\":[30,1]\x7d").toList.map fun c => UInt8.ofNat c.toNat

def ageJson : JsonUtil Nat := codec ⟨1, [30, 1]⟩ ageText (by decide)

def aged : Document Nat := ⟨1, fun _ => some 30⟩

theorem cursor_bound_iff_age :
    (∃ message, buildCursorFilter ageJson
        (encodeCursor ageJson aged [("age", .asc), ("_id", .asc)]) [("_id", .desc)] =
        .error (.valueError message)) ↔
      ¬(ById [("age", .asc), ("_id", .asc)] ↔ ById [("_id", .desc)]) :=
  @cursor_bound_iff _ Filters.asciiPython some some (some ⟨"age", .asc⟩) none _ _ ageJson aged
    rfl rfl (by simp [Document.Has, Document.get, aged])

/-- A cursor of the ascending sort by age pages on under the descending one. -/
theorem age_cursor_not_bound :
    ∃ first second, compileSort Filters.asciiPython some (some ⟨"age", .asc⟩) = .ok first ∧
      compileSort Filters.asciiPython some (some ⟨"age", .desc⟩) = .ok second ∧
      first ≠ second ∧ aged.Has first ∧
      ¬∃ message, buildCursorFilter ageJson (encodeCursor ageJson aged first) second =
        .error (.valueError message) := by
  have haged : aged.Has [("age", .asc), ("_id", .asc)] := by
    simp [Document.Has, Document.get, aged]
  refine ⟨[("age", .asc), ("_id", .asc)], [("age", .desc), ("_id", .desc)], rfl, rfl, by decide,
    haged, ?_⟩
  rw [buildCursorFilter_refused_iff ageJson haged]
  decide

end Mongo
end DddFramework.Paging
