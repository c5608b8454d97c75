import Mathlib.Data.List.Basic

/-! The filter language of the API. A filter arrives as a tree of conditions,
groups and negations whose values are scalars, null, or nested collections of
them; each back end compiles it against its own whitelist of fields. -/
namespace DddFramework.Filters

/-- `ScalarValue` without `None`. The payloads are only ever compared by a
database, so a float is its bits and a decimal its digits and exponent. -/
inductive Scalar where
  | uuid (bits : BitVec 128)
  | datetime (microseconds : Int)
  | decimal (digits : Int) (exponent : Int)
  | str (text : String)
  | int (value : Int)
  | float (bits : BitVec 64)
  | bool (value : Bool)
deriving DecidableEq

/-- `RichJsonValue | None`. A set is listed in the order Python iterates it. -/
inductive Value where
  | none
  | scalar (value : Scalar)
  | set (items : List Value)
  | list (items : List Value)
  | tuple (items : List Value)

namespace Value

def isNone : Value → Bool
  | .none => true
  | _ => false

theorem isNone_iff {value : Value} : value.isNone = true ↔ value = .none := by
  cases value <;> simp [isNone]

def isPlain : Value → Bool
  | .none => true
  | .scalar _ => true
  | _ => false

/-- `None`, `True` and `False`, which are SQL constants and not bound values. -/
def isConstant : Value → Bool
  | .none => true
  | .scalar (.bool _) => true
  | _ => false

end Value

inductive LogicOperator where
  | and
  | or
deriving DecidableEq

inductive ComparisonOperator where
  | eq
  | ne
  | gt
  | gte
  | lt
  | lte
  | like
  | ilike
  | in
  | nin
  | isNull
  | isNotNull
deriving DecidableEq

def ComparisonOperator.text : ComparisonOperator → String
  | .eq => "$eq"
  | .ne => "$ne"
  | .gt => "$gt"
  | .gte => "$gte"
  | .lt => "$lt"
  | .lte => "$lte"
  | .like => "$like"
  | .ilike => "$ilike"
  | .in => "$in"
  | .nin => "$nin"
  | .isNull => "$isNull"
  | .isNotNull => "$isNotNull"

inductive Expression where
  | condition (field : String) (op : ComparisonOperator) (value : Value)
  | group (op : LogicOperator) (filters : List Expression)
  | negation (filter : Expression)
  | search (query : String)

namespace Expression

/-- Induction over a filter, a group having the hypothesis for each of its children. -/
@[elab_as_elim, induction_eliminator]
theorem tree {motive : Expression → Prop}
    (condition : ∀ field op value, motive (.condition field op value))
    (group : ∀ op filters, (∀ e ∈ filters, motive e) → motive (.group op filters))
    (negation : ∀ filter, motive filter → motive (.negation filter))
    (search : ∀ query, motive (.search query)) (e : Expression) : motive e :=
  @Expression.rec motive (fun filters => ∀ e ∈ filters, motive e)
    condition group negation search (by simp)
    (fun e filters he hfilters => by simpa using ⟨he, hfilters⟩) e

inductive Throughout (P : Expression → Prop) : Expression → Prop where
  | condition {field op value} : P (.condition field op value) →
      Throughout P (.condition field op value)
  | group {op filters} : P (.group op filters) → (∀ e ∈ filters, Throughout P e) →
      Throughout P (.group op filters)
  | negation {filter} : P (.negation filter) → Throughout P filter →
      Throughout P (.negation filter)
  | search {query} : P (.search query) → Throughout P (.search query)

namespace Throughout
variable {P Q : Expression → Prop}

theorem here {e : Expression} (h : Throughout P e) : P e := by
  cases h <;> assumption

theorem mem {op : LogicOperator} {filters : List Expression}
    (h : Throughout P (.group op filters)) {e : Expression} (he : e ∈ filters) :
    Throughout P e := by
  cases h with
  | group _ hfilters => exact hfilters e he

theorem inner {filter : Expression} (h : Throughout P (.negation filter)) :
    Throughout P filter := by
  cases h with
  | negation _ hfilter => exact hfilter

theorem imp {e : Expression} (h : Throughout P e) (hPQ : ∀ e, P e → Q e) : Throughout Q e := by
  induction h with
  | condition hP => exact .condition (hPQ _ hP)
  | group hP _ ih => exact .group (hPQ _ hP) ih
  | negation hP _ ih => exact .negation (hPQ _ hP) ih
  | search hP => exact .search (hPQ _ hP)

theorem and {e : Expression} (hP : Throughout P e) (hQ : Throughout Q e) :
    Throughout (fun e => P e ∧ Q e) e := by
  induction hP with
  | condition h => exact .condition ⟨h, hQ.here⟩
  | group h _ ih => exact .group ⟨h, hQ.here⟩ fun e he => ih e he (hQ.mem he)
  | negation h _ ih => exact .negation ⟨h, hQ.here⟩ (ih hQ.inner)
  | search h => exact .search ⟨h, hQ.here⟩

end Throughout

theorem throughout_forall {α : Type} {P : α → Expression → Prop} {e : Expression} :
    (∀ a, Throughout (P a) e) ↔ Throughout (fun e => ∀ a, P a e) e := by
  constructor
  · intro h
    induction e with
    | condition => exact .condition fun a => (h a).here
    | group op filters ih =>
      exact .group (fun a => (h a).here) fun e he => ih e he fun a => (h a).mem he
    | negation filter ih => exact .negation (fun a => (h a).here) (ih fun a => (h a).inner)
    | search => exact .search fun a => (h a).here
  · intro h a
    exact h.imp fun _ hall => hall a

end Expression

inductive Exn where
  | valueError (message : String)
  | typeError (message : String)
  | argumentError (message : String)
  | attributeError (message : String)
deriving DecidableEq

/-- Python built-ins that depend on Unicode tables or on formatting. -/
structure Python where
  lower : String → String
  str : Value → String
  repr : String → String
  str_of_str : ∀ text, str (.scalar (.str text)) = text

def asciiPython : Python where
  lower := fun name => String.ofList (name.toList.map Char.toLower)
  str
    | .scalar (.str text) => text
    | _ => ""
  repr := fun text => "'" ++ text ++ "'"
  str_of_str := fun _ => rfl

/-- On ASCII texts `str.lower` goes letter by letter. -/
def LowersAscii (py : Python) : Prop :=
  ∀ text : String, (∀ c ∈ text.toList, c.val < 128) →
    py.lower text = String.ofList (text.toList.map Char.toLower)

theorem LowersAscii.lower_eq {py : Python} (hlower : LowersAscii py) {text : String}
    (h : text.toList.all (·.val < 128) = true) :
    py.lower text = String.ofList (text.toList.map Char.toLower) := by
  apply hlower
  intro c hc
  exact of_decide_eq_true (List.all_eq_true.mp h c hc)

theorem lowersAscii_asciiPython : LowersAscii asciiPython := fun _ _ => rfl

def isUpper (c : Char) : Bool := 'A' ≤ c && c ≤ 'Z'

def splitHumps : List Char → List Char
  | [] => []
  | first :: rest => first :: rest.flatMap fun c => if isUpper c then ['_', c] else [c]

def camelToSnakeCase (py : Python) (name : String) : String :=
  py.lower (String.ofList (splitHumps name.toList))

end DddFramework.Filters
