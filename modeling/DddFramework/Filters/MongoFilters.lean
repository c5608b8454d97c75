import DddFramework.Library.Fallible
import DddFramework.Filters.Dsl
import DddFramework.Filters.LikePatterns

/-! The MongoDB filter compiler and the matching of what it builds. A document is
to a filter no more than the answers it gives to tests of its fields; how far the
compiled filter keeps the logic of its source does not depend on them. -/
namespace DddFramework.Filters.Mongo
open Library Library.Fallible

inductive Test where
  | eq (value : Value)
  | ne (value : Value)
  | gt (value : Value)
  | gte (value : Value)
  | lt (value : Value)
  | lte (value : Value)
  | in (values : List Value)
  | nin (values : List Value)
  | nullType
  | existsNotNull
  | regex (pattern : String) (options : String)

inductive Filter where
  | empty
  | field (name : String) (test : Test)
  | and (filters : List Filter)
  | or (filters : List Filter)
  | nor (filters : List Filter)

/-- `type(value).__name__` as the interpreter spells it in its errors. -/
def typeName : Value → String
  | .none => "NoneType"
  | .scalar (.uuid _) => "UUID"
  | .scalar (.datetime _) => "datetime.datetime"
  | .scalar (.decimal _ _) => "decimal.Decimal"
  | .scalar (.str _) => "str"
  | .scalar (.int _) => "int"
  | .scalar (.float _) => "float"
  | .scalar (.bool _) => "bool"
  | .set _ => "set"
  | .list _ => "list"
  | .tuple _ => "tuple"

/-- `list(value)`: a text yields its characters. -/
def listOf : Value → Except Exn (List Value)
  | .set items => .ok items
  | .list items => .ok items
  | .tuple items => .ok items
  | .scalar (.str text) => .ok (text.toList.map fun c => .scalar (.str (String.ofList [c])))
  | value => .error (.typeError ("'" ++ typeName value ++ "' object is not iterable"))

section compiler
variable (py : Python) (fields : String → Option String)

def resolveField (field : String) : Except Exn String :=
  match fields field with
  | none => .error (.valueError ("Unknown query field: " ++ py.repr field ++ "."))
  | some name => .ok name

def compileOperator (op : ComparisonOperator) (value : Value) : Except Exn Test :=
  match op with
  | .eq => .ok (.eq value)
  | .ne => .ok (.ne value)
  | .gt => .ok (.gt value)
  | .gte => .ok (.gte value)
  | .lt => .ok (.lt value)
  | .lte => .ok (.lte value)
  | .in => (listOf value).map .in
  | .nin => (listOf value).map .nin
  | .isNull => .ok .nullType
  | .isNotNull => .ok .existsNotNull
  | .like => .ok (.regex (compileLikePattern (py.str value)) "")
  | .ilike => .ok (.regex (compileLikePattern (py.str value)) "i")

def compileCondition (field : String) (op : ComparisonOperator) (value : Value) :
    Except Exn Filter := do
  let name ← resolveField py fields field
  let test ← compileOperator py op value
  .ok (.field name test)

def joinGroup (op : LogicOperator) : List Filter → Filter
  | [] => .empty
  | [filter] => filter
  | filters => if op = .and then .and filters else .or filters

mutual

def compileFilter : Expression → Except Exn Filter
  | .condition field op value => compileCondition py fields field op value
  | .group op filters => (compileFilters filters).map (joinGroup op)
  | .negation filter => (compileFilter filter).map fun filter => .nor [filter]
  | .search _ => .error (.typeError "Unsupported filter: Search.")

def compileFilters : List Expression → Except Exn (List Filter)
  | [] => .ok []
  | filter :: filters => do
    let compiled ← compileFilter filter
    let rest ← compileFilters filters
    .ok (compiled :: rest)

end

theorem compileFilters_eq_mapM (filters : List Expression) :
    compileFilters py fields filters = filters.mapM (compileFilter py fields) := by
  induction filters with
  | nil => rfl
  | cons filter filters ih =>
    rw [compileFilters, List.mapM_cons, ih]
    rfl

end compiler

namespace Filter
variable (holds : String → Test → Bool)

mutual

/-- Whether a document matches, given the answers to the tests of its fields. -/
def admits : Filter → Bool
  | .empty => true
  | .field name test => holds name test
  | .and filters => (admitsEach filters).all id
  | .or filters => (admitsEach filters).any id
  | .nor filters => !(admitsEach filters).any id

def admitsEach : List Filter → List Bool
  | [] => []
  | filter :: filters => admits filter :: admitsEach filters

end

theorem admitsEach_eq_map (filters : List Filter) :
    admitsEach holds filters = filters.map (admits holds) := by
  induction filters with
  | nil => rfl
  | cons filter filters ih =>
    rw [admitsEach, ih]
    rfl

end Filter

section matching
variable {holds : String → Test → Bool}

theorem joinGroup_and_admits {filters : List Filter} :
    (joinGroup .and filters).admits holds = true ↔ ∀ f ∈ filters, f.admits holds = true := by
  rcases filters with _ | ⟨f, _ | ⟨g, filters⟩⟩ <;>
    simp [joinGroup, Filter.admits, Filter.admitsEach_eq_map]

/-- The empty disjunction is left out: it compiles to the filter that matches everything. -/
theorem joinGroup_or_admits {filters : List Filter} (h : filters ≠ []) :
    (joinGroup .or filters).admits holds = true ↔ ∃ f ∈ filters, f.admits holds = true := by
  rcases filters with _ | ⟨f, _ | ⟨g, filters⟩⟩
  · exact absurd rfl h
  · simp [joinGroup]
  · simp [joinGroup, Filter.admits, Filter.admitsEach_eq_map]

theorem nor_admits {f : Filter} :
    (Filter.nor [f]).admits holds = true ↔ ¬f.admits holds = true := by
  simp [Filter.admits, Filter.admitsEach]

end matching

section logic
variable (py : Python) (fields : String → Option String)

def Acceptable : Expression → Prop
  | .condition field op value =>
    (fields field).isSome = true ∧ (op = .in ∨ op = .nin → ∃ items, listOf value = .ok items)
  | .group _ _ => True
  | .negation _ => True
  | .search _ => False

/-- The compiled filter of a node combines those of its children as the node says. -/
def Preserved (holds : String → Test → Bool) (e : Expression) : Prop :=
  match e with
  | .group .and filters => ∀ f, compileFilter py fields e = .ok f →
    (f.admits holds = true ↔
      ∀ child ∈ filters, ∃ g, compileFilter py fields child = .ok g ∧ g.admits holds = true)
  | .group .or filters => ∀ f, compileFilter py fields e = .ok f →
    (f.admits holds = true ↔
      ∃ child ∈ filters, ∃ g, compileFilter py fields child = .ok g ∧ g.admits holds = true)
  | .negation child => ∀ f, compileFilter py fields e = .ok f →
    (f.admits holds = true ↔
      ∃ g, compileFilter py fields child = .ok g ∧ ¬g.admits holds = true)
  | _ => True

/-- Compilation raises, or the logic is kept at every depth for every document. -/
def KeepsLogic (e : Expression) : Prop :=
  (∃ exn, compileFilter py fields e = .error exn) ∨
    ∃ f, compileFilter py fields e = .ok f ∧ ∀ holds, e.Throughout (Preserved py fields holds)

variable {py fields}

theorem compileOperator_isOk {op : ComparisonOperator} {value : Value} :
    (∃ test, compileOperator py op value = .ok test) ↔
      (op = .in ∨ op = .nin → ∃ items, listOf value = .ok items) := by
  cases op <;> simp [compileOperator, map_eq_ok]

theorem resolveField_eq_ok {field name : String} :
    resolveField py fields field = .ok name ↔ fields field = some name := by
  unfold resolveField
  split <;> simp_all

theorem compileCondition_isOk {field : String} {op : ComparisonOperator} {value : Value} :
    (∃ f, compileCondition py fields field op value = .ok f) ↔
      (fields field).isSome = true ∧
        (op = .in ∨ op = .nin → ∃ items, listOf value = .ok items) := by
  rw [← @compileOperator_isOk py, Option.isSome_iff_exists]
  unfold compileCondition
  constructor
  · rintro ⟨f, h⟩
    obtain ⟨name, hname, h⟩ := bind_eq_ok.mp h
    obtain ⟨test, htest, -⟩ := bind_eq_ok.mp h
    exact ⟨⟨name, resolveField_eq_ok.mp hname⟩, test, htest⟩
  · rintro ⟨⟨name, hname⟩, test, htest⟩
    exact ⟨_, bind_eq_ok.mpr ⟨name, resolveField_eq_ok.mpr hname,
      bind_eq_ok.mpr ⟨test, htest, rfl⟩⟩⟩

theorem compileFilter_isOk (e : Expression) :
    (∃ f, compileFilter py fields e = .ok f) ↔ e.Throughout (Acceptable fields) := by
  induction e with
  | condition field op value =>
    rw [compileFilter, compileCondition_isOk]
    constructor
    · intro h
      exact .condition h
    · intro h
      exact h.here
  | group op filters ih =>
    have hchildren : (∃ compiled, filters.mapM (compileFilter py fields) = .ok compiled) ↔ _ :=
      exists_mapM_eq_ok
    rw [compileFilter, compileFilters_eq_mapM]
    constructor
    · rintro ⟨f, h⟩
      obtain ⟨compiled, hcompiled, -⟩ := map_eq_ok.mp h
      apply Expression.Throughout.group trivial
      intro e he
      exact (ih e he).mp (hchildren.mp ⟨compiled, hcompiled⟩ e he)
    · intro h
      obtain ⟨compiled, hcompiled⟩ := hchildren.mpr fun e he => (ih e he).mpr (h.mem he)
      exact ⟨_, map_eq_ok.mpr ⟨compiled, hcompiled, rfl⟩⟩
  | negation filter ih =>
    rw [compileFilter]
    constructor
    · rintro ⟨f, h⟩
      obtain ⟨inner, hinner, -⟩ := map_eq_ok.mp h
      exact .negation trivial (ih.mp ⟨inner, hinner⟩)
    · intro h
      obtain ⟨inner, hinner⟩ := ih.mpr h.inner
      exact ⟨_, map_eq_ok.mpr ⟨inner, hinner, rfl⟩⟩
  | search query =>
    constructor
    · rintro ⟨f, h⟩
      cases h
    · intro h
      exact h.here.elim

section nodes
variable {holds : String → Test → Bool} {filters : List Expression} {f : Filter}

theorem compileGroup_eq_ok {op : LogicOperator} :
    compileFilter py fields (.group op filters) = .ok f ↔
      ∃ compiled, filters.mapM (compileFilter py fields) = .ok compiled ∧
        joinGroup op compiled = f := by
  rw [compileFilter, compileFilters_eq_mapM, map_eq_ok]

theorem and_admits (hf : compileFilter py fields (.group .and filters) = .ok f) :
    f.admits holds = true ↔
      ∀ child ∈ filters, ∃ g, compileFilter py fields child = .ok g ∧ g.admits holds = true := by
  obtain ⟨compiled, hcompiled, rfl⟩ := compileGroup_eq_ok.mp hf
  rw [joinGroup_and_admits, forall_mem_mapM hcompiled]

theorem or_admits (hne : filters ≠ [])
    (hf : compileFilter py fields (.group .or filters) = .ok f) :
    f.admits holds = true ↔
      ∃ child ∈ filters, ∃ g, compileFilter py fields child = .ok g ∧ g.admits holds = true := by
  obtain ⟨compiled, hcompiled, rfl⟩ := compileGroup_eq_ok.mp hf
  have hfull : compiled ≠ [] := by
    rintro rfl
    exact hne (List.forall₂_nil_right_iff.mp (mapM_eq_ok.mp hcompiled))
  rw [joinGroup_or_admits hfull, exists_mem_mapM hcompiled]

theorem negation_admits {child : Expression}
    (hf : compileFilter py fields (.negation child) = .ok f) :
    f.admits holds = true ↔
      ∃ g, compileFilter py fields child = .ok g ∧ ¬g.admits holds = true := by
  obtain ⟨g, hg, rfl⟩ := map_eq_ok.mp hf
  rw [nor_admits, hg]
  simp

end nodes

/-- One node keeps its logic for every document exactly when it is no empty `$or`. -/
theorem preserved_iff {e : Expression} :
    (∀ holds, Preserved py fields holds e) ↔ e ≠ .group .or [] := by
  constructor
  · rintro h rfl
    have heverything := (h (fun _ _ => true) .empty rfl).mp rfl
    simp at heverything
  · intro hne holds
    cases e with
    | condition | search => trivial
    | group op filters =>
      cases op with
      | and => exact fun f hf => and_admits hf
      | or => exact fun f hf => or_admits (fun hnil => hne (by rw [hnil])) hf
    | negation child => exact fun f hf => negation_admits hf

/-- The compiler keeps the logic of a filter exactly when it refuses the filter or no `$or`
in it is empty. -/
theorem keepsLogic_iff (e : Expression) :
    KeepsLogic py fields e ↔
      ¬e.Throughout (Acceptable fields) ∨ e.Throughout fun node => node ≠ .group .or [] := by
  rw [← @compileFilter_isOk py]
  constructor
  · rintro (⟨exn, herror⟩ | ⟨f, -, hkept⟩)
    · left
      rintro ⟨f, hok⟩
      rw [hok] at herror
      cases herror
    · right
      exact (Expression.throughout_forall.mp hkept).imp fun _ => preserved_iff.mp
  · rintro (hrefused | hfull)
    · rcases ok_or_error (compileFilter py fields e) with hok | herror
      · exact absurd hok hrefused
      · exact .inl herror
    · rcases ok_or_error (compileFilter py fields e) with ⟨f, hok⟩ | herror
      · right
        refine ⟨f, hok, fun holds => hfull.imp fun node hnode => ?_⟩
        exact preserved_iff.mpr hnode holds
      · exact .inl herror

/-- A restricting filter with an empty `$or` inside: compiled, it matches whatever the
empty disjunction should have refused. -/
theorem emptyOr_loses_logic : ¬KeepsLogic asciiPython some
    (.group .and [.condition "status" .eq (.scalar (.str "open")), .group .or []]) := by
  rintro (⟨exn, herror⟩ | ⟨f, -, hkept⟩)
  · cases herror
  · have hempty : ∀ holds, Preserved asciiPython some holds (.group .or []) :=
      fun holds => ((hkept holds).mem (by simp)).here
    exact preserved_iff.mp hempty rfl

end logic
end DddFramework.Filters.Mongo
