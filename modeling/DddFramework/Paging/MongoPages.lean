import Mathlib.Order.WithBot
import DddFramework.Library.Base64
import DddFramework.Library.Keyset
import DddFramework.Filters.MongoFilters
import DddFramework.Paging.Page

/-! The MongoDB pagination strategies: compiled sorts, the cursor codec, the filter a
cursor adds and the two kinds of page. A field of a document may be null, and only
`_id` never is. -/
namespace DddFramework.Paging.Mongo
open Library

/-- A stored document; a field it lacks reads as null. -/
structure Document (V : Type) where
  id : V
  fields : String → Option V

inductive Test (V : Type) where
  | eq (value : V)
  | gt (value : V)
  | lt (value : V)

/-- A query document: a compiled filter, a clause on fields, and what joins them. -/
inductive Query (V : Type) where
  | compiled (filter : Filters.Mongo.Filter)
  | clause (tests : List (String × Test V))
  | or (clauses : List (List (String × Test V)))
  | and (left right : Query V)

structure Payload (V : Type) where
  v : Int
  values : List V
deriving DecidableEq

/-- What `json_util.loads` returns: a dict by its `v` and `values`, as far as these are a
number and a list; a `DBRef` with a field `get` by the type of that field; and anything else
(a list, a number, the `ObjectId` read from an object with `$oid`) by the text of the
`AttributeError` that asking it for `get` raises. -/
inductive Loaded (V : Type) where
  | dict (v : Option Int) (values : Option (List V))
  | reference (get : String)
  | other (message : String)

structure JsonUtil (V : Type) where
  dumps : Payload V → List UInt8
  loads : List UInt8 → Option (Loaded V)
  loads_dumps : ∀ payload,
    loads (dumps payload) = some (.dict (some payload.v) (some payload.values))

variable {V : Type}

def Document.get (document : Document V) (field : String) : Option V :=
  if field = "_id" then some document.id else document.fields field

@[simp] theorem Document.get_id (document : Document V) :
    document.get "_id" = some document.id := rfl

section cursors
variable (json : JsonUtil V)

def encodeCursor (document : Document V) (sort : List (String × SortDirection)) : String :=
  let values := sort.filterMap fun (field, _) => document.get field
  String.ofList (Base64.strip (Base64.encode (json.dumps ⟨1, values⟩)))

def decodeCursor (cursor : String) : Except Exn (List V) :=
  let text := Base64.repad cursor.toList
  if text.all fun c => c.val < 128 then
    match (Base64.decode false text).bind json.loads with
    | none => .error (.valueError "Invalid pagination cursor.")
    | some (.other message) => .error (.attributeError message)
    | some (.reference get) => .error (.typeError ("'" ++ get ++ "' object is not callable"))
    | some (.dict v values) =>
      if v ≠ some 1 then .error (.valueError "Unsupported pagination cursor version.")
      else
        match values with
        | none => .error (.valueError "Invalid pagination cursor payload.")
        | some values => .ok values
  else .error (.valueError "Invalid pagination cursor.")

def operator : SortDirection → V → Test V
  | .asc => .gt
  | .desc => .lt

/-- `clause[field] = test`: a field that the clause has already keeps its place. -/
def setItem (clause : List (String × Test V)) (field : String) (test : Test V) :
    List (String × Test V) :=
  if clause.any fun entry => entry.1 == field then
    clause.map fun entry => if entry.1 == field then (field, test) else entry
  else clause ++ [(field, test)]

theorem setItem_of_notMem {clause : List (String × Test V)} {field : String}
    (h : field ∉ clause.map Prod.fst) (test : Test V) :
    setItem clause field test = clause ++ [(field, test)] := by
  apply if_neg
  intro hany
  obtain ⟨entry, hentry, hfield⟩ := List.any_eq_true.mp hany
  exact h (List.mem_map.mpr ⟨entry, hentry, beq_iff_eq.mp hfield⟩)

def clauses : List (String × Test V) → List ((String × SortDirection) × V) →
    List (List (String × Test V))
  | _, [] => []
  | previous, ((field, direction), value) :: rest =>
    setItem previous field (operator direction value) ::
      clauses (setItem previous field (.eq value)) rest

def buildCursorFilter (cursor : String) (sort : List (String × SortDirection)) :
    Except Exn (Query V) := do
  let values ← decodeCursor json cursor
  if values.length ≠ sort.length then
    .error (.valueError "Cursor does not match current sort.")
  else
    match clauses [] (sort.zip values) with
    | [clause] => .ok (.clause clause)
    | clauses => .ok (.or clauses)

def mergeFilters : Query V → Query V → Query V
  | .compiled .empty, right => right
  | left, .compiled .empty => left
  | left, right => .and left right

def effectiveFilter (cursor : Option String) (filter : Query V)
    (sort : List (String × SortDirection)) : Except Exn (Query V) :=
  match cursor with
  | none => .ok filter
  | some cursor => do
    let cursorFilter ← buildCursorFilter json cursor sort
    .ok (mergeFilters filter cursorFilter)

theorem decodeCursor_encodeCursor (document : Document V) (sort : List (String × SortDirection)) :
    decodeCursor json (encodeCursor json document sort) =
      .ok (sort.filterMap fun criterion => document.get criterion.1) := by
  simp [decodeCursor, encodeCursor, Base64.repad_strip_encode_isAscii,
    Base64.decode_repad_strip_encode, json.loads_dumps]

end cursors

section compiled
variable (py : Filters.Python) (allowedFields : String → Option String)

def Exn.ofCompiler : Filters.Exn → Exn
  | .valueError message => .valueError message
  | .typeError message => .typeError message
  | .argumentError message => .argumentError message
  | .attributeError message => .attributeError message

def compileSort (sort : Option Sorting) : Except Exn (List (String × SortDirection)) :=
  match sort with
  | none => .ok [("_id", .desc)]
  | some sort => do
    let field ← (Filters.Mongo.resolveField py allowedFields sort.field).mapError Exn.ofCompiler
    if field ≠ "_id" then .ok [(field, sort.direction), ("_id", sort.direction)]
    else .ok [(field, sort.direction)]

/-- What `compile_sort` makes of a resolved field: ties are broken by `_id`. -/
def criteria (field : String) (direction : SortDirection) : List (String × SortDirection) :=
  if field = "_id" then [("_id", direction)] else [(field, direction), ("_id", direction)]

theorem compileSort_eq_ok {sort : Option Sorting} {field : String} {direction : SortDirection}
    {rest : List (String × SortDirection)}
    (h : compileSort py allowedFields sort = .ok ((field, direction) :: rest)) :
    compileSort py allowedFields sort = .ok (criteria field direction) := by
  rw [h]
  cases sort with
  | none =>
    cases h
    rfl
  | some sort =>
    simp only [compileSort] at h
    cases hfield : Filters.Mongo.resolveField py allowedFields sort.field with
    | error exn =>
      rw [hfield] at h
      cases h
    | ok name =>
      rw [hfield] at h
      simp only [Except.mapError, bind, Except.bind] at h
      by_cases hname : name = "_id"
      · rw [if_neg (not_not.mpr hname)] at h
        cases h
        simp [criteria, hname]
      · rw [if_pos hname] at h
        cases h
        simp [criteria, hname]

def compileQuery (query : Option Filters.Expression) : Except Exn Filters.Mongo.Filter :=
  match query with
  | none => .ok .empty
  | some query => (Filters.Mongo.compileFilter py allowedFields query).mapError Exn.ofCompiler

end compiled

/-- The place of a field's value in a sort: null comes before values. -/
def Document.rank (document : Document V) (field : String) : WithBot V := document.get field

@[simp] theorem Document.rank_id (document : Document V) :
    document.rank "_id" = (document.id : WithBot V) := rfl

theorem buildCursorFilter_refused {json : JsonUtil V} {document : Document V} {field : String}
    {direction : SortDirection} (h : document.get field = none) :
    buildCursorFilter json (encodeCursor json document (criteria field direction))
      (criteria field direction) = .error (.valueError "Cursor does not match current sort.") := by
  have hid : field ≠ "_id" := by
    rintro rfl
    cases h
  simp [buildCursorFilter, decodeCursor_encodeCursor, criteria, hid, h, bind, Except.bind]

section database
variable [LinearOrder V]

/-- `$gt` and `$lt` with a value match no null. -/
def Test.holds : Test V → Option V → Bool
  | _, none => false
  | .eq value, some stored => decide (stored = value)
  | .gt value, some stored => decide (value < stored)
  | .lt value, some stored => decide (stored < value)

def clauseHolds (document : Document V) (tests : List (String × Test V)) : Bool :=
  tests.all fun (field, test) => test.holds (document.get field)

/-- Whether a document matches a query; `answers` says how it meets the tests of a
compiled filter. -/
def Query.admits (answers : Document V → String → Filters.Mongo.Test → Bool)
    (document : Document V) : Query V → Bool
  | .compiled filter => filter.admits (answers document)
  | .clause tests => clauseHolds document tests
  | .or clauses => clauses.any (clauseHolds document)
  | .and left right => left.admits answers document && right.admits answers document

def comparison : String × SortDirection → Document V → Document V → Bool
  | (field, .asc), a, b => decide (a.rank field < b.rank field)
  | (field, .desc), a, b => decide (b.rank field < a.rank field)

def order (sort : List (String × SortDirection)) : Document V → Document V → Bool :=
  lex (sort.map comparison)

variable (json : JsonUtil V) (answers : Document V → String → Filters.Mongo.Test → Bool)
  (collection : List (Document V))

def found (query : Query V) (sort : List (String × SortDirection)) : List (Document V) :=
  sortBy (order sort) (collection.filter fun document => query.admits answers document)

def paginateByOffset {μ : Type} (modelValidate : Document V → μ) (filter : Query V)
    (sort : List (String × SortDirection)) (pagination : OffsetPagination) :
    Except Exn (Page μ) :=
  let total := (collection.filter fun document => filter.admits answers document).length
  let docs := ((found answers collection filter sort).drop pagination.offset).take pagination.size
  createPage (.offset pagination) (docs.map modelValidate) (.offset total)

def paginateByCursor {μ : Type} (modelValidate : Document V → μ) (filter : Query V)
    (sort : List (String × SortDirection)) (pagination : CursorPagination) :
    Except Exn (Page μ) := do
  let effective ← effectiveFilter json pagination.cursor filter sort
  let docs := (found answers collection effective sort).take (pagination.size + 1)
  let hasNext := decide (pagination.size < docs.length)
  let docs := docs.take pagination.size
  let nextCursor :=
    if hasNext then docs.getLast?.map fun document => encodeCursor json document sort else none
  createPage (.cursor pagination) (docs.map modelValidate) (.cursor nextCursor hasNext)

def paginate {μ : Type} (modelValidate : Document V → μ) (filter : Query V)
    (sort : List (String × SortDirection)) (pagination : Pagination) : Except Exn (Page μ) :=
  match pagination with
  | .offset pagination =>
    paginateByOffset answers collection modelValidate filter sort pagination
  | .cursor pagination =>
    paginateByCursor json answers collection modelValidate filter sort pagination

def find {μ ε : Type} (py : Filters.Python) (filterWhitelist : String → Option String)
    (modelValidate : Document V → μ) (fromModel : μ → ε) (query : Option Filters.Expression)
    (sort : Option Sorting) (pagination : Pagination) : Except Exn (Page ε) := do
  let mongoFilter ← compileQuery py filterWhitelist query
  let mongoSort ← compileSort py filterWhitelist sort
  let page ← paginate json answers collection modelValidate (.compiled mongoFilter) mongoSort
    pagination
  .ok (page.map fromModel)

end database
end DddFramework.Paging.Mongo
