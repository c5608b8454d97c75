import Mathlib.Logic.Equiv.List
import DddFramework.Library.Base64
import DddFramework.Library.Fallible
import DddFramework.Library.Keyset
import DddFramework.Paging.Page

/-! The SQLAlchemy pagination strategies: sorting, the cursor codec and predicate, and
the two kinds of page. Read against one table, the cursor strategy is a keyset. -/
namespace DddFramework.Paging
open Library Library.Fallible

/-- A stored row of a model with the entity mixin: the number its UUID stands for, and its
timestamps in microseconds. Of its other columns only the place the database's ordering
gives their values matters here. -/
structure Row where
  id : Nat
  createdAt : Int
  updatedAt : Int
  rank : String → Int

def Row.column (row : Row) (field : String) : Int :=
  if field = "id" then row.id
  else if field = "created_at" then row.createdAt
  else if field = "updated_at" then row.updatedAt
  else row.rank field

structure Model where
  tablename : String
  columns : List String
  mixin : ∀ field ∈ ["id", "created_at", "updated_at"], field ∈ columns

structure Select where
  wheres : List (Row → Bool)
  orderBy : List (String × SortDirection)

namespace Select

def keeps (stmt : Select) (row : Row) : Bool := stmt.wheres.all fun condition => condition row

def comparison : String × SortDirection → Row → Row → Bool
  | (field, .asc), a, b => decide (a.column field < b.column field)
  | (field, .desc), a, b => decide (b.column field < a.column field)

def order (stmt : Select) : Row → Row → Bool := lex (stmt.orderBy.map comparison)

def rows (stmt : Select) (table : List Row) : List Row :=
  sortBy stmt.order (table.filter stmt.keeps)

end Select

structure CursorPayload where
  field : String
  direction : SortDirection
  id : Nat
  value : Option Int
deriving DecidableEq

/-- The JSON text of a payload, absent fields left out and restored as absent. -/
structure JsonCodec where
  dump : CursorPayload → List UInt8
  validate : List UInt8 → Option CursorPayload
  validate_dump : ∀ payload, validate (dump payload) = some payload

section sample

def sampleText : List UInt8 :=
  ("\x7b\"field\":\"id\",\"direction\":\"desc\"," ++
    "\"id\":\"00000000-0000-0000-0000-000000000002\"\x7d").toList.map fun c =>
      UInt8.ofNat c.toNat

def samplePayload : CursorPayload := ⟨"id", .desc, 2, none⟩

def payloadCode (payload : CursorPayload) : Nat :=
  Encodable.encode (payload.field.toList.map Char.toNat, decide (payload.direction = .asc),
    payload.id, payload.value)

def payloadOfCode (code : Nat) : Option CursorPayload :=
  (Encodable.decode code : Option (List Nat × Bool × Nat × Option Int)).map fun parts =>
    ⟨String.ofList (parts.1.map Char.ofNat), if parts.2.1 then .asc else .desc, parts.2.2.1,
      parts.2.2.2⟩

theorem payloadOfCode_payloadCode (payload : CursorPayload) :
    payloadOfCode (payloadCode payload) = some payload := by
  obtain ⟨field, direction, uid, value⟩ := payload
  have hchars : Char.ofNat ∘ Char.toNat = id := funext Char.ofNat_toNat
  cases direction <;> simp [payloadOfCode, payloadCode, hchars]

def sampleJson : JsonCodec where
  dump payload :=
    if payload = samplePayload then sampleText else List.replicate (payloadCode payload) 0
  validate raw := if raw = sampleText then some samplePayload else payloadOfCode raw.length
  validate_dump payload := by
    by_cases h : payload = samplePayload
    · simp [h]
    · have hbrace : (123 : UInt8) ∈ sampleText := by decide
      have hother : List.replicate (payloadCode payload) 0 ≠ sampleText := by
        intro heq
        rw [← heq, List.mem_replicate] at hbrace
        exact absurd hbrace.2 (by decide)
      simp [h, hother, payloadOfCode_payloadCode]

end sample

section strategies
variable (repr : String → String) (json : JsonCodec) (model : Model)

def encodeCursor (payload : CursorPayload) : String :=
  String.ofList (Base64.strip (Base64.encode (json.dump payload)))

def decodeCursor (cursor : String) : Except Exn CursorPayload :=
  let text := Base64.repad cursor.toList
  if text.all fun c => c.val < 128 then
    match (Base64.decode true text).bind json.validate with
    | some payload => .ok payload
    | none => .error (.valueError "Invalid pagination cursor.")
  else .error (.valueError "Invalid pagination cursor.")

def getModelColumn (field : String) : Except Exn String :=
  if field ∈ model.columns then .ok field
  else .error (.valueError ("Field " ++ repr field ++ " not declared in model " ++
    repr model.tablename ++ "."))

def applySorting (stmt : Select) (sort : Option Sorting) : Except Exn Select :=
  match sort with
  | none => .ok { stmt with orderBy := [("id", .desc)] }
  | some sort => do
    let column ← getModelColumn repr model sort.field
    if sort.field = "id" then .ok { stmt with orderBy := [("id", sort.direction)] }
    else .ok { stmt with orderBy := [(column, sort.direction), ("id", sort.direction)] }

def allowedCursorFields : List String := ["created_at", "id", "updated_at"]

def resolveCursorSort (sort : Option Sorting) : Except Exn (String × SortDirection) :=
  match sort with
  | none => .ok ("id", .desc)
  | some sort =>
    if sort.field ∈ allowedCursorFields then .ok (sort.field, sort.direction)
    else .error (.valueError ("Cursor pagination supports sorting only by " ++
      "['created_at', 'id', 'updated_at']; got " ++ repr sort.field ++ "."))

def validateCursor (payload : CursorPayload) (field : String) (direction : SortDirection) :
    Except Exn Unit :=
  if payload.field ≠ field then
    .error (.valueError "Cursor field does not match current sorting.")
  else if payload.direction ≠ direction then
    .error (.valueError "Cursor direction does not match current sorting.")
  else if field ≠ "id" ∧ payload.value = none then
    .error (.valueError ("Cursor value is required for field " ++ repr field ++ "."))
  else .ok ()

def buildCursorPredicate (field : String) (direction : SortDirection) (payload : CursorPayload) :
    Except Exn (Row → Bool) :=
  if field = "id" then
    match direction with
    | .asc => .ok fun row => decide (payload.id < row.id)
    | .desc => .ok fun row => decide (row.id < payload.id)
  else
    match payload.value with
    | none => .error (.valueError ("Cursor value is required for " ++ repr field ++ "."))
    | some value =>
      match direction with
      | .asc => .ok fun row => decide (value < row.column field) ||
          (decide (row.column field = value) && decide (payload.id < row.id))
      | .desc => .ok fun row => decide (row.column field < value) ||
          (decide (row.column field = value) && decide (row.id < payload.id))

def buildNextCursor (field : String) (direction : SortDirection) (row : Row) : String :=
  if field = "id" then encodeCursor json ⟨field, direction, row.id, none⟩
  else encodeCursor json ⟨field, direction, row.id, some (row.column field)⟩

/-- The `WHERE` a cursor adds to a sorted statement. -/
def continueFrom (field : String) (direction : SortDirection) (stmt : Select) (cursor : String) :
    Except Exn Select := do
  let payload ← decodeCursor json cursor
  validateCursor repr payload field direction
  let predicate ← buildCursorPredicate repr field direction payload
  .ok { stmt with wheres := stmt.wheres ++ [predicate] }

structure CursorResult where
  models : List Row
  nextCursor : Option String
  hasNext : Bool

def paginateByCursor (table : List Row) (stmt : Select) (pagination : CursorPagination)
    (sort : Option Sorting) : Except Exn CursorResult := do
  let (field, direction) ← resolveCursorSort repr sort
  let sorted ← applySorting repr model stmt sort
  let stmt ← match pagination.cursor with
    | none => .ok sorted
    | some cursor => continueFrom repr json field direction sorted cursor
  let models := (stmt.rows table).take (pagination.size + 1)
  let hasNext := decide (pagination.size < models.length)
  let models := models.take pagination.size
  .ok {
    models := models
    nextCursor :=
      if hasNext then models.getLast?.map (buildNextCursor json field direction) else none
    hasNext := hasNext }

def paginateByOffset (table : List Row) (stmt : Select) (pagination : OffsetPagination)
    (sort : Option Sorting) : Except Exn (List Row × Nat) := do
  let total := (table.filter stmt.keeps).length
  let sorted ← applySorting repr model stmt sort
  .ok (((sorted.rows table).drop pagination.offset).take pagination.size, total)

def paginate {ε : Type} (table : List Row) (stmt : Select) (pagination : Pagination)
    (fromModel : Row → ε) (sort : Option Sorting) : Except Exn (Page ε) := do
  match pagination with
  | .cursor request =>
    let found ← paginateByCursor repr json model table stmt request sort
    createPage pagination (found.models.map fromModel) (.cursor found.nextCursor found.hasNext)
  | .offset request =>
    let (models, total) ← paginateByOffset repr model table stmt request sort
    createPage pagination (models.map fromModel) (.offset total)

end strategies

def CursorSort (sort : Option Sorting) : Prop := ∀ s ∈ sort, s.field ∈ allowedCursorFields

def cursorField (sort : Option Sorting) : String := sort.elim "id" Sorting.field

def cursorDirection (sort : Option Sorting) : SortDirection := sort.elim .desc Sorting.direction

def sortCriteria (sort : Option Sorting) : List (String × SortDirection) :=
  if cursorField sort = "id" then [("id", cursorDirection sort)]
  else [(cursorField sort, cursorDirection sort), ("id", cursorDirection sort)]

/-- The cursor strategy as a keyset: its order, what its predicate admits and its cursors. -/
def sqlKeyset (repr : String → String) (json : JsonCodec) (sort : Option Sorting) :
    Keyset Row String where
  lt := lex ((sortCriteria sort).map Select.comparison)
  admits cursor row :=
    match continueFrom repr json (cursorField sort) (cursorDirection sort) ⟨[], []⟩ cursor with
    | .ok stmt => stmt.keeps row
    | .error _ => false
  cursorOf := buildNextCursor json (cursorField sort) (cursorDirection sort)

section keyset
variable {repr : String → String} {json : JsonCodec} {model : Model} {sort : Option Sorting}

theorem decodeCursor_encodeCursor (payload : CursorPayload) :
    decodeCursor json (encodeCursor json payload) = .ok payload := by
  simp only [decodeCursor, encodeCursor, String.toList_ofList,
    Base64.repad_strip_encode_isAscii, if_true, Base64.decode_repad_strip_encode,
    Option.bind_some, json.validate_dump]

theorem comparison_weak (criterion : String × SortDirection) :
    WeakOrder (Select.comparison criterion) := by
  obtain ⟨field, _ | _⟩ := criterion
  · exact WeakOrder.of_key fun row => Row.column row field
  · exact (WeakOrder.of_key fun row => Row.column row field).swap

theorem resolveCursorSort_eq (h : CursorSort sort) :
    resolveCursorSort repr sort = .ok (cursorField sort, cursorDirection sort) := by
  cases sort with
  | none => rfl
  | some s =>
    have hfield : s.field ∈ allowedCursorFields := h s rfl
    simp [resolveCursorSort, hfield, cursorField, cursorDirection]

theorem applySorting_eq (h : CursorSort sort) (stmt : Select) :
    applySorting repr model stmt sort = .ok { stmt with orderBy := sortCriteria sort } := by
  cases sort with
  | none => rfl
  | some s =>
    have hfield : s.field ∈ allowedCursorFields := h s rfl
    have hcolumn : s.field ∈ model.columns := by
      apply model.mixin
      simp only [allowedCursorFields, List.mem_cons, List.not_mem_nil, or_false] at hfield ⊢
      tauto
    have hget : getModelColumn repr model s.field = .ok s.field := if_pos hcolumn
    by_cases hid : s.field = "id"
    · have hcriteria : sortCriteria (some s) = [("id", s.direction)] := if_pos hid
      simp only [applySorting, hget, bind, Except.bind, hcriteria, if_pos hid]
    · have hcriteria : sortCriteria (some s) = [(s.field, s.direction), ("id", s.direction)] :=
        if_neg hid
      simp only [applySorting, hget, bind, Except.bind, hcriteria, if_neg hid]

theorem sqlKeyset_weak : WeakOrder (sqlKeyset repr json sort).lt := by
  apply lex_weak
  intro lt hlt
  obtain ⟨criterion, -, rfl⟩ := List.mem_map.mp hlt
  exact comparison_weak criterion

@[simp] theorem Row.column_id (row : Row) : row.column "id" = row.id := rfl

theorem sqlKeyset_lt_id (hid : cursorField sort = "id") (a b : Row) :
    (sqlKeyset repr json sort).lt a b =
      match cursorDirection sort with
      | .asc => decide (a.id < b.id)
      | .desc => decide (b.id < a.id) := by
  simp only [sqlKeyset, sortCriteria, hid, if_true]
  cases cursorDirection sort <;> simp [lex, Select.comparison]

theorem sqlKeyset_lt_field (hfield : cursorField sort ≠ "id") (a b : Row) :
    (sqlKeyset repr json sort).lt a b =
      match cursorDirection sort with
      | .asc => decide (a.column (cursorField sort) < b.column (cursorField sort)) ||
          (decide (b.column (cursorField sort) = a.column (cursorField sort)) &&
            decide (a.id < b.id))
      | .desc => decide (b.column (cursorField sort) < a.column (cursorField sort)) ||
          (decide (b.column (cursorField sort) = a.column (cursorField sort)) &&
            decide (b.id < a.id)) := by
  simp only [sqlKeyset, sortCriteria, hfield, if_false]
  cases cursorDirection sort with
  | asc => simp [lex, Select.comparison, lt_or_tied, eq_comm]
  | desc => simp [lex, Select.comparison, lt_or_tied]

theorem continueFrom_next (row : Row) (stmt : Select) :
    continueFrom repr json (cursorField sort) (cursorDirection sort) stmt
        ((sqlKeyset repr json sort).cursorOf row) =
      .ok { stmt with wheres := stmt.wheres ++ [(sqlKeyset repr json sort).lt row] } := by
  by_cases hid : cursorField sort = "id"
  · have hpredicate : (sqlKeyset repr json sort).lt row =
        fun other => match cursorDirection sort with
          | .asc => decide (row.id < other.id)
          | .desc => decide (other.id < row.id) := funext fun other => sqlKeyset_lt_id hid row other
    rw [hpredicate]
    simp only [continueFrom, sqlKeyset, buildNextCursor, hid, if_true, decodeCursor_encodeCursor,
      bind, Except.bind, validateCursor, buildCursorPredicate]
    cases cursorDirection sort <;> simp
  · have hpredicate := funext (@sqlKeyset_lt_field repr json sort hid row)
    rw [hpredicate]
    simp only [continueFrom, sqlKeyset, buildNextCursor, hid, if_false, decodeCursor_encodeCursor,
      bind, Except.bind, validateCursor, buildCursorPredicate]
    cases cursorDirection sort <;> simp

theorem sqlKeyset_lawful : (sqlKeyset repr json sort).Lawful fun _ => True where
  weak := sqlKeyset_weak
  admits_cursorOf := by
    intro a b _ _
    have hcontinue := @continueFrom_next repr json sort a ⟨[], []⟩
    simp only [sqlKeyset] at hcontinue ⊢
    rw [hcontinue]
    simp [Select.keeps]

theorem sqlKeyset_total {a b : Row} (h : a.id ≠ b.id) :
    (sqlKeyset repr json sort).lt a b = true ∨ (sqlKeyset repr json sort).lt b a = true := by
  by_cases hid : cursorField sort = "id"
  · rw [sqlKeyset_lt_id hid, sqlKeyset_lt_id hid]
    cases cursorDirection sort <;> simp only [decide_eq_true_eq] <;> omega
  · rw [sqlKeyset_lt_field hid, sqlKeyset_lt_field hid]
    cases cursorDirection sort <;>
      simp only [Bool.or_eq_true, Bool.and_eq_true, decide_eq_true_eq] <;> omega

theorem distinct_of_nodup {table : List Row} (h : (table.map Row.id).Nodup) :
    Distinct (sqlKeyset repr json sort).lt table := by
  apply (List.pairwise_map.mp h).imp
  intro a b hne
  exact sqlKeyset_total hne

/-- A cursor the strategy may meet in a walk: none, or one it made from a row. -/
def Issued (repr : String → String) (json : JsonCodec) (sort : Option Sorting)
    (cursor : Option String) : Prop :=
  ∀ c ∈ cursor, ∃ row, c = (sqlKeyset repr json sort).cursorOf row

theorem rows_continued (table : List Row) (stmt : Select) (row : Row) :
    Select.rows ⟨stmt.wheres ++ [(sqlKeyset repr json sort).lt row], sortCriteria sort⟩ table =
      (sqlKeyset repr json sort).ahead (some ((sqlKeyset repr json sort).cursorOf row))
        (table.filter stmt.keeps) := by
  rw [Keyset.ahead, List.filter_filter, Select.rows]
  congr 2
  funext other
  have hadmits := (@sqlKeyset_lawful repr json sort).admits_cursorOf (a := row) (b := other)
    trivial trivial
  simp [Select.keeps, Keyset.continues, hadmits, Bool.and_comm]

theorem paginateByCursor_eq (h : CursorSort sort) {table : List Row} {stmt : Select}
    {pagination : CursorPagination} (hcursor : Issued repr json sort pagination.cursor)
    {found : List Row}
    (hfound : (sqlKeyset repr json sort).ahead pagination.cursor (table.filter stmt.keeps) =
      found) :
    paginateByCursor repr json model table stmt pagination sort = .ok {
      models := found.take pagination.size
      nextCursor := if pagination.size < found.length then
        (found.take pagination.size).getLast?.map (sqlKeyset repr json sort).cursorOf else none
      hasNext := decide (pagination.size < found.length) } := by
  rw [paginateByCursor, resolveCursorSort_eq h]
  simp only [applySorting_eq h, bind, Except.bind]
  cases hc : pagination.cursor with
  | none =>
    have hrows : Select.rows ⟨stmt.wheres, sortCriteria sort⟩ table = found := by
      rw [← hfound, hc, Keyset.ahead_none]
      rfl
    simp only [hrows, take_lookAhead, lt_length_lookAhead, decide_eq_true_eq]
    rfl
  | some c =>
    obtain ⟨row, rfl⟩ := hcursor c hc
    simp only [continueFrom_next, rows_continued, ← hc, hfound, take_lookAhead, lt_length_lookAhead,
      decide_eq_true_eq]
    rfl

end keyset
end DddFramework.Paging
