import DddFramework.Filters.MongoFilters
import DddFramework.Filters.SqlMeaning

/-! The errors of the filter compilers. A compiler reads the leaves of a filter from left to
right and stops at the first one it cannot compile. Callers expect a `ValueError` there, but
for some leaves another exception leaves the compiler: it does unless a leaf before them is
refused properly. -/
namespace DddFramework.Filters
open Library Library.Fallible

def Exn.IsValueError (exn : Exn) : Prop := ∃ message, exn = .valueError message

inductive Leaf where
  | condition (field : String) (op : ComparisonOperator) (value : Value)
  | search (query : String)
  | emptyGroup (op : LogicOperator)

namespace Expression

mutual

def leaves : Expression → List Leaf
  | .condition field op value => [.condition field op value]
  | .group op filters => if filters.isEmpty then [.emptyGroup op] else leavesOf filters
  | .negation filter => leaves filter
  | .search query => [.search query]

def leavesOf : List Expression → List Leaf
  | [] => []
  | filter :: filters => leaves filter ++ leavesOf filters

end

theorem findSome?_leavesOf {β : Type} {f : Leaf → Option β} {g : Expression → Option β}
    {filters : List Expression} (h : ∀ e ∈ filters, g e = e.leaves.findSome? f) :
    filters.findSome? g = (leavesOf filters).findSome? f := by
  induction filters with
  | nil => rfl
  | cons e filters ih =>
    rw [List.forall_mem_cons] at h
    rw [leavesOf, List.findSome?_append, ← ih h.2, List.findSome?_cons, h.1]
    cases e.leaves.findSome? f <;> rfl

/-- Before each leaf that `leaks` there is one that `refuses` stops at. -/
def Shadowed (refuses leaks : Leaf → Prop) (e : Expression) : Prop :=
  ∀ before leaf after, e.leaves = before ++ leaf :: after → leaks leaf →
    ∃ earlier ∈ before, refuses earlier

end Expression

inductive Verdict (error : Option Exn) (refuses leaks : Prop) : Prop where
  | accepted (none : error = .none) (keeps : ¬refuses) (seals : ¬leaks)
  | refused (raises : ∃ message, error = some (.valueError message)) (refuses : refuses)
      (seals : ¬leaks)
  | leaked (raises : ∃ exn, error = some exn ∧ ¬exn.IsValueError) (keeps : ¬refuses)
      (leaks : leaks)

namespace Verdict
variable {error : Option Exn} {refuses leaks : Prop}

theorem refuses_iff (h : Verdict error refuses leaks) :
    (∃ exn, error = some exn ∧ exn.IsValueError) ↔ refuses := by
  cases h with
  | accepted hnone hkeeps => simp [hnone, hkeeps]
  | refused hraises hrefuses =>
    obtain ⟨message, rfl⟩ := hraises
    exact iff_of_true ⟨_, rfl, message, rfl⟩ hrefuses
  | leaked hraises hkeeps =>
    obtain ⟨exn, rfl, hexn⟩ := hraises
    simp [hexn, hkeeps]

theorem leaks_iff (h : Verdict error refuses leaks) :
    (∃ exn, error = some exn ∧ ¬exn.IsValueError) ↔ leaks := by
  cases h with
  | accepted hnone _ hseals => simp [hnone, hseals]
  | refused hraises _ hseals =>
    obtain ⟨message, rfl⟩ := hraises
    simp [hseals, Exn.IsValueError]
  | leaked hraises _ hleaks => exact iff_of_true hraises hleaks

end Verdict

/-- A compiler that stops at the first leaf it fails at raises nothing but a `ValueError`
exactly when one is raised before each leaf that would raise something else. -/
theorem failsOnly_iff_shadowed {α : Type} {result : Except Exn α} {leafError : Leaf → Option Exn}
    {refuses leaks : Leaf → Prop} {e : Expression}
    (h : errorOf result = e.leaves.findSome? leafError)
    (hverdict : ∀ leaf, Verdict (leafError leaf) (refuses leaf) (leaks leaf)) :
    FailsOnly Exn.IsValueError result ↔ e.Shadowed refuses leaks := by
  rw [failsOnly_iff_errorOf, h, findSome?_forall_iff]
  simp only [Expression.Shadowed, (hverdict _).refuses_iff, (hverdict _).leaks_iff]

section sql

/-- An attribute of the model class that is no column, such as `metadata` or a relationship:
for each operator what looking it up raises, and what the operator builds or raises. -/
abbrev Foreign := ComparisonOperator → Except Exn (Value → Except Exn SqlExpr)

structure ModelClass extends Model where
  foreign : String → Option Foreign

inductive Found where
  | column (name : String)
  | foreign (operator : Foreign)

section compiler
variable (py : Python) (model : ModelClass) (allowedFields : List String)

def getAttribute (field : String) : Except Exn Found :=
  if field ∉ allowedFields then
    .error (.valueError ("Unknown filter field: '" ++ field ++ "'."))
  else if camelToSnakeCase py field ∈ model.attributes then
    .ok (.column (camelToSnakeCase py field))
  else
    match model.foreign (camelToSnakeCase py field) with
    | some operator => .ok (.foreign operator)
    | none => .error (.valueError ("Filter field '" ++ field ++ "' is not supported by model."))

/-- The `match condition.op` on an attribute that is no column: the value of a list test is
checked before the operator is looked up, the value of a text test after. -/
def compileForeign (operator : Foreign) (op : ComparisonOperator) (value : Value) :
    Except Exn SqlExpr :=
  match op with
  | .in | .nin => do
    let items ← ensureListValue op value
    let call ← operator op
    call (.list items)
  | .like | .ilike => do
    let call ← operator op
    let text ← ensureStrValue op value
    call (.scalar (.str text))
  | .isNull | .isNotNull => do
    let call ← operator op
    call .none
  | _ => do
    let call ← operator op
    call value

def compileFound (op : ComparisonOperator) (value : Value) : Found → Except Exn SqlExpr
  | .column name => compileOperator name op value
  | .foreign operator => compileForeign operator op value

def compileClassCondition (field : String) (op : ComparisonOperator) (value : Value) :
    Except Exn SqlExpr :=
  getAttribute py model allowedFields field >>= compileFound op value

def compileClassFilter (search : Option (String → Clause)) : Expression → Except Exn SqlExpr :=
  compileTree (compileClassCondition py model allowedFields) search

def ColumnsOnly : Prop :=
  ∀ field ∈ allowedFields, camelToSnakeCase py field ∉ model.attributes →
    model.foreign (camelToSnakeCase py field) = none

variable {py model allowedFields}

/-- Where only columns are whitelisted, the class compiles as its columns do. -/
theorem compileClassFilter_eq (h : ColumnsOnly py model allowedFields)
    (search : Option (String → Clause)) :
    compileClassFilter py model allowedFields search =
      compileFilter py model.toModel allowedFields search := by
  have hcondition : compileClassCondition py model allowedFields =
      compileCondition py model.toModel allowedFields := by
    funext field op value
    unfold compileClassCondition compileCondition getAttribute getColumn
    by_cases hallowed : field ∈ allowedFields
    · rw [if_neg (not_not.mpr hallowed), if_neg (not_not.mpr hallowed)]
      by_cases hcolumn : camelToSnakeCase py field ∈ model.attributes
      · rw [if_pos hcolumn, if_pos hcolumn]
        rfl
      · rw [if_neg hcolumn, if_neg hcolumn, h field hallowed hcolumn]
        rfl
    · rw [if_pos hallowed, if_pos hallowed]
      rfl
  unfold compileClassFilter compileFilter
  rw [hcondition]

end compiler

variable (py : Python) (model : ModelClass) (allowedFields : List String)
  (search : Option (String → Clause))

def leafError : Leaf → Option Exn
  | .condition field op value =>
    errorOf (compileClassCondition py model allowedFields field op value)
  | .search query => errorOf (compileClassFilter py model allowedFields search (.search query))
  | .emptyGroup op => errorOf (joinGroup op [])

theorem errorOf_bind_joinGroup {op : LogicOperator} {filters : List Expression}
    (hne : filters ≠ []) {compile : Expression → Except Exn SqlExpr} :
    errorOf (filters.mapM compile >>= joinGroup op) = errorOf (filters.mapM compile) := by
  cases hcompiled : filters.mapM compile with
  | error exn => rfl
  | ok compiled =>
    have hfull : compiled ≠ [] := by
      rintro rfl
      exact hne (List.forall₂_nil_right_iff.mp (mapM_eq_ok.mp hcompiled))
    change errorOf (joinGroup op compiled) = none
    rw [joinGroup_eq_ok.mpr ⟨hfull, rfl⟩]
    rfl

theorem errorOf_compileClassFilter (e : Expression) :
    errorOf (compileClassFilter py model allowedFields search e) =
      e.leaves.findSome? (leafError py model allowedFields search) := by
  induction e with
  | condition field op value =>
    simp [Expression.leaves, compileClassFilter, compileTree, leafError]
  | group op filters ih =>
    rw [Expression.leaves, compileClassFilter, compileTree, compileTrees_eq_mapM]
    by_cases hempty : filters = []
    · subst hempty
      cases op <;> rfl
    · rw [if_neg (by simpa using hempty), errorOf_bind_joinGroup hempty, errorOf_mapM]
      exact Expression.findSome?_leavesOf ih
  | negation filter ih =>
    rw [Expression.leaves, compileClassFilter, compileTree, errorOf_map]
    exact ih
  | search query => simp [Expression.leaves, leafError]

def Resolves (field : String) : Prop :=
  field ∈ allowedFields ∧ camelToSnakeCase py field ∈ model.attributes

def Strays (field : String) (operator : Foreign) : Prop :=
  field ∈ allowedFields ∧ camelToSnakeCase py field ∉ model.attributes ∧
    model.foreign (camelToSnakeCase py field) = some operator

def ForeignRaises (operator : Foreign) (op : ComparisonOperator) (value : Value)
    (P : Exn → Prop) : Prop :=
  ∃ exn, compileForeign operator op value = .error exn ∧ P exn

def Refuses : Leaf → Prop
  | .condition field op value =>
    (¬Resolves py model allowedFields field ∧
        ∀ operator, ¬Strays py model allowedFields field operator) ∨
      (Resolves py model allowedFields field ∧ ¬Fits op value) ∨
      ∃ operator, Strays py model allowedFields field operator ∧
        ForeignRaises operator op value Exn.IsValueError
  | .search _ => search = none
  | .emptyGroup _ => True

def Leaks : Leaf → Prop
  | .condition field op value =>
    (Resolves py model allowedFields field ∧ ¬Orderable op value) ∨
      ∃ operator, Strays py model allowedFields field operator ∧
        ForeignRaises operator op value fun exn => ¬exn.IsValueError
  | .search _ => False
  | .emptyGroup _ => False

variable {py model allowedFields search}

theorem compileOperator_leaks (column : String) {op : ComparisonOperator} {value : Value}
    (h : ¬Orderable op value) :
    Fits op value ∧
      ∃ message, compileOperator column op value = .error (.argumentError message) := by
  obtain ⟨hop, hvalue⟩ := Classical.not_imp.mp h
  rw [Bool.not_eq_false] at hvalue
  rcases hop with rfl | rfl | rfl | rfl <;>
    exact ⟨trivial, _, if_pos hvalue⟩

theorem compileOperator_verdict (column : String) (op : ComparisonOperator) (value : Value) :
    Verdict (errorOf (compileOperator column op value)) (¬Fits op value) (¬Orderable op value) := by
  by_cases horderable : Orderable op value
  · by_cases hfits : Fits op value
    · obtain ⟨q, hq⟩ := (@compileOperator_isOk column _ _).mpr ⟨hfits, horderable⟩
      exact .accepted (by rw [hq]; rfl) (not_not.mpr hfits) (not_not.mpr horderable)
    · rcases ok_or_error (compileOperator column op value) with hok | ⟨exn, herror⟩
      · exact absurd (compileOperator_isOk.mp hok).1 hfits
      · obtain ⟨message, rfl⟩ := compileOperator_error herror horderable
        exact .refused ⟨message, by rw [herror]; rfl⟩ hfits (not_not.mpr horderable)
  · obtain ⟨hfits, message, herror⟩ := compileOperator_leaks column horderable
    refine .leaked ⟨.argumentError message, by rw [herror]; rfl, ?_⟩ (not_not.mpr hfits) horderable
    rintro ⟨_, h⟩
    cases h

theorem compileForeign_verdict (operator : Foreign) (op : ComparisonOperator) (value : Value) :
    Verdict (errorOf (compileForeign operator op value))
      (ForeignRaises operator op value Exn.IsValueError)
      (ForeignRaises operator op value fun exn => ¬exn.IsValueError) := by
  unfold ForeignRaises
  cases hresult : compileForeign operator op value with
  | ok q => exact .accepted rfl (by simp) (by simp)
  | error exn =>
    by_cases hexn : exn.IsValueError
    · obtain ⟨message, rfl⟩ := hexn
      exact .refused ⟨message, rfl⟩ ⟨_, rfl, message, rfl⟩ (by simp [Exn.IsValueError])
    · exact .leaked ⟨exn, rfl, hexn⟩ (by simpa using hexn) ⟨exn, rfl, hexn⟩

theorem getAttribute_cases (field : String) :
    (Resolves py model allowedFields field ∧
      getAttribute py model allowedFields field = .ok (.column (camelToSnakeCase py field))) ∨
    (∃ operator, Strays py model allowedFields field operator ∧
      getAttribute py model allowedFields field = .ok (.foreign operator)) ∨
    ((¬Resolves py model allowedFields field ∧
        ∀ operator, ¬Strays py model allowedFields field operator) ∧
      ∃ message, getAttribute py model allowedFields field = .error (.valueError message)) := by
  unfold getAttribute Resolves Strays
  by_cases hallowed : field ∈ allowedFields
  · rw [if_neg (not_not.mpr hallowed)]
    by_cases hcolumn : camelToSnakeCase py field ∈ model.attributes
    · rw [if_pos hcolumn]
      exact .inl ⟨⟨hallowed, hcolumn⟩, rfl⟩
    · rw [if_neg hcolumn]
      cases hforeign : model.foreign (camelToSnakeCase py field) with
      | some operator => exact .inr (.inl ⟨operator, ⟨hallowed, hcolumn, rfl⟩, rfl⟩)
      | none => exact .inr (.inr ⟨⟨by simp [hcolumn], by simp⟩, _, rfl⟩)
  · rw [if_pos hallowed]
    exact .inr (.inr ⟨⟨by simp [hallowed], by simp [hallowed]⟩, _, rfl⟩)

theorem condition_verdict (field : String) (op : ComparisonOperator) (value : Value) :
    Verdict (leafError py model allowedFields search (.condition field op value))
      (Refuses py model allowedFields search (.condition field op value))
      (Leaks py model allowedFields (.condition field op value)) := by
  have hsame : ∀ {operator other}, Strays py model allowedFields field operator →
      Strays py model allowedFields field other → operator = other := by
    intro operator other h hother
    exact Option.some.inj (h.2.2.symm.trans hother.2.2)
  rcases @getAttribute_cases py model allowedFields field with
    ⟨hresolves, hfound⟩ | ⟨operator, hstrays, hfound⟩ | ⟨hunknown, message, hfound⟩
  · have hcolumn : ∀ operator, ¬Strays py model allowedFields field operator :=
      fun operator hstrays => hstrays.2.1 hresolves.2
    have hoperator := compileOperator_verdict (camelToSnakeCase py field) op value
    simpa only [leafError, compileClassCondition, hfound, bind, Except.bind, compileFound, Refuses,
      Leaks, hresolves, hcolumn, not_true_eq_false, false_and, false_or, true_and, exists_false,
      or_false] using hoperator
  · have hcolumn : ¬Resolves py model allowedFields field :=
      fun hresolves => hstrays.2.1 hresolves.2
    have hoperator := compileForeign_verdict operator op value
    have hone : ∀ P : Foreign → Prop,
        (∃ other, Strays py model allowedFields field other ∧ P other) ↔ P operator := by
      intro P
      constructor
      · rintro ⟨other, hother, hP⟩
        rwa [hsame hstrays hother]
      · exact fun hP => ⟨operator, hstrays, hP⟩
    have hsome : ¬∀ other, ¬Strays py model allowedFields field other :=
      fun hnone => hnone operator hstrays
    simpa only [leafError, compileClassCondition, hfound, bind, Except.bind, compileFound, Refuses,
      Leaks, hcolumn, hsome, hone, and_false, false_and, false_or] using hoperator
  · refine .refused ⟨message, ?_⟩ (.inl hunknown) ?_
    · simp only [leafError, compileClassCondition, hfound, bind, Except.bind, errorOf_error]
    · rintro (⟨hresolves, -⟩ | ⟨operator, hstrays, -⟩)
      · exact hunknown.1 hresolves
      · exact hunknown.2 operator hstrays

theorem leaf_verdict (leaf : Leaf) :
    Verdict (leafError py model allowedFields search leaf)
      (Refuses py model allowedFields search leaf) (Leaks py model allowedFields leaf) := by
  cases leaf with
  | condition field op value => exact condition_verdict field op value
  | search query =>
    cases search with
    | none => exact .refused ⟨_, rfl⟩ rfl not_false
    | some search => exact .accepted rfl (by simp [Refuses]) not_false
  | emptyGroup op => exact .refused ⟨_, rfl⟩ trivial not_false

theorem leaks_condition_iff (h : ColumnsOnly py model allowedFields) (field : String)
    (op : ComparisonOperator) (value : Value) :
    Leaks py model allowedFields (.condition field op value) ↔
      Resolves py model allowedFields field ∧ ¬Orderable op value := by
  have hcolumn : ∀ operator, ¬Strays py model allowedFields field operator := by
    intro operator hstrays
    have hnone := h field hstrays.1 hstrays.2.1
    rw [hstrays.2.2] at hnone
    cases hnone
  simp only [Leaks, hcolumn, false_and, exists_false, or_false]

end sql

namespace Mongo
variable (py : Python) (fields : String → Option String)

def isIterable : Value → Bool
  | .set _ => true
  | .list _ => true
  | .tuple _ => true
  | .scalar (.str _) => true
  | _ => false

def leafError : Leaf → Option Exn
  | .condition field op value => errorOf (compileCondition py fields field op value)
  | .search query => errorOf (compileFilter py fields (.search query))
  | .emptyGroup op => errorOf (compileFilter py fields (.group op []))

def Refuses : Leaf → Prop
  | .condition field _ _ => fields field = none
  | .search _ => False
  | .emptyGroup _ => False

/-- The leaves at which `list` or the compiler itself raises a `TypeError`. -/
def Leaks : Leaf → Prop
  | .condition field op value =>
    fields field ≠ none ∧ (op = .in ∨ op = .nin) ∧ isIterable value = false
  | .search _ => True
  | .emptyGroup _ => False

theorem errorOf_compileFilter (e : Expression) :
    errorOf (compileFilter py fields e) = e.leaves.findSome? (leafError py fields) := by
  induction e with
  | condition field op value => simp [Expression.leaves, compileFilter, leafError]
  | group op filters ih =>
    rw [Expression.leaves, compileFilter, compileFilters_eq_mapM, errorOf_map]
    by_cases hempty : filters = []
    · subst hempty
      rfl
    · rw [if_neg (by simpa using hempty), errorOf_mapM]
      exact Expression.findSome?_leavesOf ih
  | negation filter ih => rw [Expression.leaves, compileFilter, errorOf_map, ih]
  | search query => simp [Expression.leaves, leafError]

variable {py fields}

theorem listOf_isOk {value : Value} :
    (∃ items, listOf value = .ok items) ↔ isIterable value = true := by
  cases value with
  | scalar value => cases value <;> simp [listOf, isIterable]
  | none | set | list | tuple => simp [listOf, isIterable]

theorem listOf_error {value : Value} (h : isIterable value = false) :
    ∃ message, listOf value = .error (.typeError message) := by
  cases value with
  | scalar value => cases value <;> first | exact ⟨_, rfl⟩ | cases h
  | none => exact ⟨_, rfl⟩
  | set | list | tuple => cases h

theorem compileOperator_leaks (py : Python) {op : ComparisonOperator} {value : Value}
    (h : (op = .in ∨ op = .nin) ∧ isIterable value = false) :
    ∃ message, compileOperator py op value = .error (.typeError message) := by
  obtain ⟨hop, hvalue⟩ := h
  obtain ⟨message, herror⟩ := listOf_error hvalue
  rcases hop with rfl | rfl <;>
    exact ⟨message, map_eq_error.mpr herror⟩

theorem condition_verdict (field : String) (op : ComparisonOperator) (value : Value) :
    Verdict (leafError py fields (.condition field op value))
      (Refuses fields (.condition field op value)) (Leaks fields (.condition field op value)) := by
  cases hfield : fields field with
  | none =>
    refine .refused ⟨"Unknown query field: " ++ py.repr field ++ ".", ?_⟩ hfield
      fun h => h.1 hfield
    simp only [leafError, compileCondition, resolveField, hfield, bind, Except.bind, errorOf_error]
  | some name =>
    have hknown : ¬fields field = none := by simp [hfield]
    by_cases hleaks : (op = .in ∨ op = .nin) ∧ isIterable value = false
    · obtain ⟨message, herror⟩ := compileOperator_leaks py hleaks
      refine .leaked ⟨.typeError message, ?_, ?_⟩ hknown ⟨hknown, hleaks⟩
      · simp only [leafError, compileCondition, resolveField, hfield, herror, bind, Except.bind,
          errorOf_error]
      · rintro ⟨_, h⟩
        cases h
    · have hok : ∃ test, compileOperator py op value = .ok test := by
        rw [compileOperator_isOk]
        intro hop
        rw [listOf_isOk]
        by_contra hvalue
        exact hleaks ⟨hop, Bool.not_eq_true _ ▸ hvalue⟩
      obtain ⟨test, htest⟩ := hok
      refine .accepted ?_ hknown fun h => hleaks h.2
      simp only [leafError, compileCondition, resolveField, hfield, htest, bind, Except.bind,
        errorOf_ok]

theorem leaf_verdict (leaf : Leaf) :
    Verdict (leafError py fields leaf) (Refuses fields leaf) (Leaks fields leaf) := by
  cases leaf with
  | condition field op value => exact condition_verdict field op value
  | search query =>
    refine .leaked ⟨_, rfl, ?_⟩ not_false trivial
    rintro ⟨_, h⟩
    cases h
  | emptyGroup op => exact .accepted rfl not_false not_false

end Mongo

/-- Both compilers fail with nothing but a `ValueError` exactly when, for each of them, one is
raised before every leaf that would raise something else: an ordering comparison of a column
with a constant, or an attribute that is no column and raises something else; a list test of
a field with what is no collection, or a search. -/
theorem compilers_failsOnly_iff (py : Python) (model : ModelClass) (allowedFields : List String)
    (search : Option (String → Clause)) (fields : String → Option String) (e : Expression) :
    FailsOnly Exn.IsValueError (compileClassFilter py model allowedFields search e) ∧
        FailsOnly Exn.IsValueError (Mongo.compileFilter py fields e) ↔
      e.Shadowed (Refuses py model allowedFields search) (Leaks py model allowedFields) ∧
        e.Shadowed (Mongo.Refuses fields) (Mongo.Leaks fields) :=
  and_congr
    (failsOnly_iff_shadowed (errorOf_compileClassFilter py model allowedFields search e)
      leaf_verdict)
    (failsOnly_iff_shadowed (Mongo.errorOf_compileFilter py fields e) Mongo.leaf_verdict)

def metadata : Foreign
  | .eq => .ok fun _ => .ok (.searched ⟨[], fun _ => .no⟩)
  | .ne => .ok fun _ => .ok (.searched ⟨[], fun _ => .yes⟩)
  | .gt | .gte | .lt | .lte => .ok fun _ => .error (.typeError "not supported")
  | .in => .error (.attributeError "'MetaData' object has no attribute 'in_'")
  | .nin => .error (.attributeError "'MetaData' object has no attribute 'not_in'")
  | .like => .error (.attributeError "'MetaData' object has no attribute 'like'")
  | .ilike => .error (.attributeError "'MetaData' object has no attribute 'ilike'")
  | .isNull => .error (.attributeError "'MetaData' object has no attribute 'is_'")
  | .isNotNull => .error (.attributeError "'MetaData' object has no attribute 'is_not'")

def personClass : ModelClass where
  attributes := ["age"]
  foreign name := if name = "metadata" then some metadata else none

/-- `$gt` without a value, then `$in` with a number; and a list test of `metadata`. -/
theorem ageFilter_leaks :
    (¬(FailsOnly Exn.IsValueError (compileClassFilter asciiPython personClass ["age"] none
        (.group .and [.condition "age" .gt .none, .condition "age" .in (.scalar (.int 5))])) ∧
      FailsOnly Exn.IsValueError (Mongo.compileFilter asciiPython some
        (.group .and [.condition "age" .gt .none, .condition "age" .in (.scalar (.int 5))])))) ∧
    ¬FailsOnly Exn.IsValueError (compileClassFilter asciiPython personClass ["metadata"] none
      (.condition "metadata" .in (.list []))) := by
  constructor
  · rintro ⟨-, hmongo⟩
    obtain ⟨message, h⟩ := hmongo _ rfl
    cases h
  · intro h
    obtain ⟨message, hexn⟩ := h (.attributeError "'MetaData' object has no attribute 'in_'") rfl
    cases hexn

end DddFramework.Filters
