import DddFramework.Library.Kleene
import DddFramework.Filters.Dsl

/-! The SQLAlchemy filter compiler, the predicates it builds and their value on a
row. Success is characterised by the shape of the filter alone, and a compiled
predicate means what the filter says in three-valued logic. -/
namespace DddFramework.Filters
open Library

abbrev Row := String → Option Scalar

/-- The database's own comparisons of a stored value with a bound one. -/
structure Database where
  eq : Scalar → Value → Bool
  gt : Scalar → Value → Bool
  lt : Scalar → Value → Bool
  like : Scalar → String → Bool
  ilike : Scalar → String → Bool

/-- A column expression the search callback returned. -/
structure Clause where
  columns : List String
  holds : Row → Truth

inductive Comparator where
  | eq
  | ne
  | gt
  | gte
  | lt
  | lte
deriving DecidableEq

/-- `ColumnElement[bool]`, as the calls that build it. -/
inductive SqlExpr where
  | compare (column : String) (op : Comparator) (value : Value)
  | isNull (column : String)
  | isNotNull (column : String)
  | inList (column : String) (values : List Value)
  | notInList (column : String) (values : List Value)
  | like (column : String) (pattern : String)
  | ilike (column : String) (pattern : String)
  | and (filters : List SqlExpr)
  | or (filters : List SqlExpr)
  | not (filter : SqlExpr)
  | searched (clause : Clause)

/-- The model's attributes, all of them columns. -/
structure Model where
  attributes : List String

section compiler
variable (py : Python) (model : Model) (allowedFields : List String)

def getColumn (field : String) : Except Exn String :=
  if field ∉ allowedFields then
    .error (.valueError ("Unknown filter field: '" ++ field ++ "'."))
  else if camelToSnakeCase py field ∈ model.attributes then
    .ok (camelToSnakeCase py field)
  else
    .error (.valueError ("Filter field '" ++ field ++ "' is not supported by model."))

/-- `column == value` and `column != value`, which SQLAlchemy turns into a null test for `None`. -/
def columnEq (column : String) (value : Value) : SqlExpr :=
  if value.isNone then .isNull column else .compare column .eq value

def columnNe (column : String) (value : Value) : SqlExpr :=
  if value.isNone then .isNotNull column else .compare column .ne value

/-- An ordering comparison, which SQLAlchemy refuses for its constants. -/
def columnOrder (column : String) (op : Comparator) (value : Value) : Except Exn SqlExpr :=
  if value.isConstant then
    .error (.argumentError ("Only '=', '!=', 'is_()', 'is_not()', 'is_distinct_from()', " ++
      "'is_not_distinct_from()' operators can be used with None/True/False"))
  else .ok (.compare column op value)

def ensureListValue (op : ComparisonOperator) (value : Value) : Except Exn (List Value) :=
  match value with
  | .list items => .ok items
  | _ => .error (.valueError ("Operator '" ++ op.text ++ "' expects a list value."))

def ensureStrValue (op : ComparisonOperator) (value : Value) : Except Exn String :=
  match value with
  | .scalar (.str text) => .ok text
  | _ => .error (.valueError ("Operator '" ++ op.text ++ "' expects a string value."))

def compileOperator (column : String) (op : ComparisonOperator) (value : Value) :
    Except Exn SqlExpr :=
  match op with
  | .eq => .ok (columnEq column value)
  | .ne => .ok (columnNe column value)
  | .gt => columnOrder column .gt value
  | .gte => columnOrder column .gte value
  | .lt => columnOrder column .lt value
  | .lte => columnOrder column .lte value
  | .in => (ensureListValue op value).map (.inList column)
  | .nin => (ensureListValue op value).map (.notInList column)
  | .like => (ensureStrValue op value).map (.like column)
  | .ilike => (ensureStrValue op value).map (.ilike column)
  | .isNull => .ok (.isNull column)
  | .isNotNull => .ok (.isNotNull column)

def compileCondition (field : String) (op : ComparisonOperator) (value : Value) :
    Except Exn SqlExpr := do
  let column ← getColumn py model allowedFields field
  compileOperator column op value

def joinGroup (op : LogicOperator) (filters : List SqlExpr) : Except Exn SqlExpr :=
  if filters.isEmpty then .error (.valueError "Filter group cannot be empty.")
  else match op with
    | .and => .ok (.and filters)
    | .or => .ok (.or filters)

section tree
variable (condition : String → ComparisonOperator → Value → Except Exn SqlExpr)
  (search : Option (String → Clause))

mutual

/-- `compile_filter`, by what `_compile_condition` does. -/
def compileTree : Expression → Except Exn SqlExpr
  | .condition field op value => condition field op value
  | .search query =>
    match search with
    | none => .error (.valueError "Full-text search is not supported.")
    | some search => .ok (.searched (search query))
  | .group op filters => compileTrees filters >>= joinGroup op
  | .negation filter => (compileTree filter).map .not

def compileTrees : List Expression → Except Exn (List SqlExpr)
  | [] => .ok []
  | filter :: filters => do
    let compiled ← compileTree filter
    let rest ← compileTrees filters
    .ok (compiled :: rest)

end
end tree

def compileFilter (search : Option (String → Clause)) : Expression → Except Exn SqlExpr :=
  compileTree (compileCondition py model allowedFields) search

end compiler

namespace SqlExpr
variable (db : Database)

def comparison (op : Comparator) (stored : Option Scalar) (value : Value) : Truth :=
  match stored with
  | none => .unknown
  | some stored =>
    match op with
    | .eq => .ofBool (db.eq stored value)
    | .ne => .ofBool (!db.eq stored value)
    | .gt => .ofBool (db.gt stored value)
    | .gte => .ofBool (db.gt stored value || db.eq stored value)
    | .lt => .ofBool (db.lt stored value)
    | .lte => .ofBool (db.lt stored value || db.eq stored value)

/-- `IN`: false over no values, unknown when only a null could have made it true. -/
def membership (stored : Option Scalar) (values : List Value) : Truth :=
  if values.isEmpty then .no
  else match stored with
    | none => .unknown
    | some stored =>
      if values.any fun value => !value.isNone && db.eq stored value then .yes
      else if values.any Value.isNone then .unknown
      else .no

def patternTest (test : Scalar → String → Bool) (stored : Option Scalar) (pattern : String) :
    Truth :=
  match stored with
  | none => .unknown
  | some stored => .ofBool (test stored pattern)

mutual

def eval (row : Row) : SqlExpr → Truth
  | .compare column op value => comparison db op (row column) value
  | .isNull column => .ofBool (row column).isNone
  | .isNotNull column => .ofBool (row column).isSome
  | .inList column values => membership db (row column) values
  | .notInList column values => (membership db (row column) values).neg
  | .like column pattern => patternTest db.like (row column) pattern
  | .ilike column pattern => patternTest db.ilike (row column) pattern
  | .and filters => Truth.all (evals row filters)
  | .or filters => Truth.any (evals row filters)
  | .not filter => (eval row filter).neg
  | .searched clause => clause.holds row

def evals (row : Row) : List SqlExpr → List Truth
  | [] => []
  | filter :: filters => eval row filter :: evals row filters

end

mutual

def columns : SqlExpr → List String
  | .compare column _ _ => [column]
  | .isNull column => [column]
  | .isNotNull column => [column]
  | .inList column _ => [column]
  | .notInList column _ => [column]
  | .like column _ => [column]
  | .ilike column _ => [column]
  | .and filters => columnsOf filters
  | .or filters => columnsOf filters
  | .not filter => columns filter
  | .searched clause => clause.columns

def columnsOf : List SqlExpr → List String
  | [] => []
  | filter :: filters => columns filter ++ columnsOf filters

end

theorem evals_eq_map (row : Row) (filters : List SqlExpr) :
    evals db row filters = filters.map (eval db row) := by
  induction filters with
  | nil => rfl
  | cons filter filters ih =>
    rw [evals, ih]
    rfl

theorem mem_columnsOf {column : String} {filters : List SqlExpr} :
    column ∈ columnsOf filters ↔ ∃ filter ∈ filters, column ∈ columns filter := by
  induction filters with
  | nil => simp [columnsOf]
  | cons filter filters ih => rw [columnsOf, List.mem_append, ih, List.exists_mem_cons_iff]

end SqlExpr
end DddFramework.Filters
