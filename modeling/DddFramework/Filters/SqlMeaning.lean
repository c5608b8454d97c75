import DddFramework.Library.Fallible
import DddFramework.Filters.SqlFilters

/-! The meaning of a filter on a row, and the two sides of the SQLAlchemy compiler:
which filters it accepts, and that it says of a row what the filter says. -/
namespace DddFramework.Filters
open Library Library.Fallible

section meaning
variable (db : Database)

def known (stored : Option Scalar) (test : Scalar → Bool) : Truth :=
  stored.elim .unknown fun stored => .ofBool (test stored)

/-- Equality of a column with one value of a list: a null on either side leaves it open. -/
def equals (stored : Option Scalar) (value : Value) : Truth :=
  if value.isNone then .unknown else known stored fun s => db.eq s value

def isMember (stored : Option Scalar) : Value → Truth
  | .list items => Truth.any (items.map (equals db stored))
  | _ => .unknown

def fitsPattern (test : Scalar → String → Bool) (stored : Option Scalar) : Value → Truth
  | .scalar (.str pattern) => known stored fun s => test s pattern
  | _ => .unknown

def conditionMeaning (stored : Option Scalar) (op : ComparisonOperator) (value : Value) : Truth :=
  match op with
  | .eq => if value.isNone then .ofBool stored.isNone else known stored fun s => db.eq s value
  | .ne => if value.isNone then .ofBool stored.isSome else known stored fun s => !db.eq s value
  | .gt => known stored fun s => db.gt s value
  | .gte => known stored fun s => db.gt s value || db.eq s value
  | .lt => known stored fun s => db.lt s value
  | .lte => known stored fun s => db.lt s value || db.eq s value
  | .in => isMember db stored value
  | .nin => (isMember db stored value).neg
  | .like => fitsPattern db.like stored value
  | .ilike => fitsPattern db.ilike stored value
  | .isNull => .ofBool stored.isNone
  | .isNotNull => .ofBool stored.isSome

variable (py : Python) (search : Option (String → Clause)) (row : Row)

mutual

/-- The Kleene evaluation of a filter. -/
def meaning : Expression → Truth
  | .condition field op value => conditionMeaning db (row (camelToSnakeCase py field)) op value
  | .group .and filters => Truth.all (meanings filters)
  | .group .or filters => Truth.any (meanings filters)
  | .negation filter => (meaning filter).neg
  | .search query => search.elim .unknown fun search => (search query).holds row

def meanings : List Expression → List Truth
  | [] => []
  | filter :: filters => meaning filter :: meanings filters

end

theorem meanings_eq_map (filters : List Expression) :
    meanings db py search row filters = filters.map (meaning db py search row) := by
  induction filters with
  | nil => rfl
  | cons filter filters ih =>
    rw [meanings, ih]
    rfl

end meaning

theorem membership_eq (db : Database) (stored : Option Scalar) (values : List Value) :
    SqlExpr.membership db stored values = Truth.any (values.map (equals db stored)) := by
  unfold SqlExpr.membership
  split
  case isTrue hempty =>
    rw [List.isEmpty_iff.mp hempty]
    rfl
  case isFalse hfull =>
    obtain ⟨value, hvalue⟩ := List.exists_mem_of_ne_nil values (by simpa using hfull)
    cases stored with
    | none =>
      have hopen : ∀ value, equals db none value = .unknown := by simp [equals, known]
      apply (Truth.any_eq_unknown ?_ ?_).symm
      · simp [hopen]
      · exact ⟨_, List.mem_map_of_mem hvalue, by simp [hopen]⟩
    | some s =>
      dsimp only
      split
      case isTrue hfound =>
        obtain ⟨v, hv, hne, heq⟩ : ∃ v ∈ values, v.isNone = false ∧ db.eq s v = true := by
          simpa using hfound
        apply (Truth.any_eq_yes.mpr ⟨_, List.mem_map_of_mem hv, ?_⟩).symm
        simp [equals, known, hne, heq]
      case isFalse hmissing =>
        have hnot : ∀ v ∈ values, v.isNone = false → db.eq s v = false := by
          simpa using hmissing
        split
        case isTrue hnull =>
          obtain ⟨v, hv, hnone⟩ := List.any_eq_true.mp hnull
          apply (Truth.any_eq_unknown ?_ ⟨_, List.mem_map_of_mem hv, by simp [equals, hnone]⟩).symm
          intro t ht
          obtain ⟨w, hw, rfl⟩ := List.mem_map.mp ht
          cases hwnone : w.isNone <;> simp [equals, known, hwnone, hnot w hw]
        case isFalse hnull =>
          apply (Truth.any_eq_no.mpr ?_).symm
          intro t ht
          obtain ⟨w, hw, rfl⟩ := List.mem_map.mp ht
          have hw' : w.isNone = false := by
            simp only [List.any_eq_true, not_exists, not_and, Bool.not_eq_true] at hnull
            exact hnull w hw
          simp [equals, known, hw', hnot w hw hw']

theorem patternTest_eq (test : Scalar → String → Bool) (stored : Option Scalar)
    (pattern : String) : SqlExpr.patternTest test stored pattern =
      known stored fun s => test s pattern := by
  cases stored <;> rfl

/-- The value an operator demands, whatever the filter. -/
def Fits (op : ComparisonOperator) (value : Value) : Prop :=
  match op with
  | .in | .nin => ∃ items, value = .list items
  | .like | .ilike => ∃ text, value = .scalar (.str text)
  | _ => True

def Orderable (op : ComparisonOperator) (value : Value) : Prop :=
  op = .gt ∨ op = .gte ∨ op = .lt ∨ op = .lte → value.isConstant = false

section compiler
variable {py : Python} {model : Model} {allowedFields : List String}

theorem getColumn_eq_ok {field column : String} :
    getColumn py model allowedFields field = .ok column ↔
      field ∈ allowedFields ∧ camelToSnakeCase py field ∈ model.attributes ∧
        column = camelToSnakeCase py field := by
  unfold getColumn
  split <;> simp_all
  split <;> simp_all [eq_comm]

theorem getColumn_eq_error {field : String} {exn : Exn}
    (h : getColumn py model allowedFields field = .error exn) :
    ∃ message, exn = .valueError message := by
  unfold getColumn at h
  split at h
  · exact ⟨_, (Except.error.inj h).symm⟩
  · split at h
    · cases h
    · exact ⟨_, (Except.error.inj h).symm⟩

theorem ensureListValue_eq_ok {op : ComparisonOperator} {value : Value} {items : List Value} :
    ensureListValue op value = .ok items ↔ value = .list items := by
  cases value <;> simp [ensureListValue]

theorem ensureStrValue_eq_ok {op : ComparisonOperator} {value : Value} {text : String} :
    ensureStrValue op value = .ok text ↔ value = .scalar (.str text) := by
  unfold ensureStrValue
  split <;> simp_all

theorem columnOrder_eq_ok {column : String} {op : Comparator} {value : Value} {q : SqlExpr} :
    columnOrder column op value = .ok q ↔
      value.isConstant = false ∧ q = .compare column op value := by
  unfold columnOrder
  cases value.isConstant <;> simp [eq_comm]

theorem compileOperator_isOk {column : String} {op : ComparisonOperator} {value : Value} :
    (∃ q, compileOperator column op value = .ok q) ↔ Fits op value ∧ Orderable op value := by
  cases op <;>
    simp [compileOperator, Fits, Orderable, columnOrder_eq_ok, map_eq_ok, ensureListValue_eq_ok,
      ensureStrValue_eq_ok]

theorem compileOperator_error {column : String} {op : ComparisonOperator} {value : Value}
    {exn : Exn} (h : compileOperator column op value = .error exn) (ho : Orderable op value) :
    ∃ message, exn = .valueError message := by
  cases op with
  | eq | ne | isNull | isNotNull => cases h
  | gt | gte | lt | lte =>
    have hfree : value.isConstant = false := ho (by simp)
    simp [compileOperator, columnOrder, hfree] at h
  | «in» | nin =>
    rw [compileOperator, map_eq_error] at h
    unfold ensureListValue at h
    split at h
    · cases h
    · exact ⟨_, (Except.error.inj h).symm⟩
  | like | ilike =>
    rw [compileOperator, map_eq_error] at h
    unfold ensureStrValue at h
    split at h
    · cases h
    · exact ⟨_, (Except.error.inj h).symm⟩

theorem compileOperator_eval (db : Database) (row : Row) {column : String}
    {op : ComparisonOperator} {value : Value} {q : SqlExpr}
    (h : compileOperator column op value = .ok q) :
    q.eval db row = conditionMeaning db (row column) op value := by
  cases op with
  | eq =>
    obtain rfl := Except.ok.inj h
    unfold columnEq conditionMeaning
    split
    · rfl
    · cases hrow : row column <;> simp [SqlExpr.eval, SqlExpr.comparison, known, hrow]
  | ne =>
    obtain rfl := Except.ok.inj h
    unfold columnNe conditionMeaning
    split
    · rfl
    · cases hrow : row column <;> simp [SqlExpr.eval, SqlExpr.comparison, known, hrow]
  | gt | gte | lt | lte =>
    obtain ⟨-, rfl⟩ := columnOrder_eq_ok.mp h
    cases hrow : row column <;>
      simp [SqlExpr.eval, SqlExpr.comparison, conditionMeaning, known, hrow]
  | «in» | nin =>
    obtain ⟨items, hitems, rfl⟩ := map_eq_ok.mp h
    rw [ensureListValue_eq_ok.mp hitems]
    simp only [SqlExpr.eval, conditionMeaning, isMember, membership_eq]
  | like | ilike =>
    obtain ⟨text, htext, rfl⟩ := map_eq_ok.mp h
    rw [ensureStrValue_eq_ok.mp htext]
    simp only [SqlExpr.eval, conditionMeaning, fitsPattern, patternTest_eq]
  | isNull | isNotNull =>
    obtain rfl := Except.ok.inj h
    rfl

theorem compileOperator_columns {column : String} {op : ComparisonOperator} {value : Value}
    {q : SqlExpr} (h : compileOperator column op value = .ok q) : q.columns = [column] := by
  cases op with
  | eq =>
    obtain rfl := Except.ok.inj h
    unfold columnEq
    split <;> rfl
  | ne =>
    obtain rfl := Except.ok.inj h
    unfold columnNe
    split <;> rfl
  | gt | gte | lt | lte =>
    obtain ⟨-, rfl⟩ := columnOrder_eq_ok.mp h
    rfl
  | «in» | nin | like | ilike =>
    obtain ⟨_, -, rfl⟩ := map_eq_ok.mp h
    rfl
  | isNull | isNotNull =>
    obtain rfl := Except.ok.inj h
    rfl

theorem joinGroup_eq_ok {op : LogicOperator} {filters : List SqlExpr} {q : SqlExpr} :
    joinGroup op filters = .ok q ↔ filters ≠ [] ∧
      q = match op with
        | .and => .and filters
        | .or => .or filters := by
  unfold joinGroup
  cases op <;> cases filters <;> simp [eq_comm]

variable {search : Option (String → Clause)}

theorem compileTrees_eq_mapM
    {condition : String → ComparisonOperator → Value → Except Exn SqlExpr}
    (filters : List Expression) :
    compileTrees condition search filters = filters.mapM (compileTree condition search) := by
  induction filters with
  | nil => rfl
  | cons filter filters ih =>
    rw [compileTrees, List.mapM_cons, ih]
    rfl

theorem compileFilter_condition (field : String) (op : ComparisonOperator) (value : Value) :
    compileFilter py model allowedFields search (.condition field op value) =
      compileCondition py model allowedFields field op value := by
  rw [compileFilter, compileTree]

theorem compileFilter_group (op : LogicOperator) (filters : List Expression) :
    compileFilter py model allowedFields search (.group op filters) =
      filters.mapM (compileFilter py model allowedFields search) >>= joinGroup op := by
  rw [compileFilter, compileTree, compileTrees_eq_mapM]

theorem compileFilter_negation (filter : Expression) :
    compileFilter py model allowedFields search (.negation filter) =
      (compileFilter py model allowedFields search filter).map .not := by
  rw [compileFilter, compileTree]

end compiler

section results
variable (py : Python) (model : Model) (allowedFields : List String)
  (search : Option (String → Clause))

def Acceptable : Expression → Prop
  | .condition field op value =>
    field ∈ allowedFields ∧ camelToSnakeCase py field ∈ model.attributes ∧ Fits op value
  | .group _ filters => filters ≠ []
  | .negation _ => True
  | .search _ => search.isSome = true

def Ordered : Expression → Prop
  | .condition _ op value => Orderable op value
  | _ => True

def PlainValues : Expression → Prop
  | .condition _ op value =>
    match op with
    | .eq | .ne => value.isPlain = true
    | .gt | .gte | .lt | .lte => value.isPlain = true ∧ value.isConstant = false
    | _ => ∀ items, value = .list items → ∀ item ∈ items, item.isPlain = true
  | _ => True

variable {py model allowedFields search}

theorem PlainValues.ordered {e : Expression} (h : PlainValues e) : Ordered e := by
  cases e with
  | condition field op value =>
    intro hop
    rcases hop with rfl | rfl | rfl | rfl <;> exact h.2
  | group | negation | search => trivial

theorem compileCondition_isOk {field : String} {op : ComparisonOperator} {value : Value} :
    (∃ q, compileCondition py model allowedFields field op value = .ok q) ↔
      (field ∈ allowedFields ∧ camelToSnakeCase py field ∈ model.attributes ∧ Fits op value) ∧
        Orderable op value := by
  unfold compileCondition
  constructor
  · rintro ⟨q, h⟩
    obtain ⟨column, hcolumn, hop⟩ := bind_eq_ok.mp h
    obtain ⟨hallowed, hattribute, -⟩ := getColumn_eq_ok.mp hcolumn
    obtain ⟨hfits, horder⟩ := compileOperator_isOk.mp ⟨q, hop⟩
    exact ⟨⟨hallowed, hattribute, hfits⟩, horder⟩
  · rintro ⟨⟨hallowed, hattribute, hfits⟩, horder⟩
    obtain ⟨q, hop⟩ := compileOperator_isOk.mpr ⟨hfits, horder⟩
    exact ⟨q, bind_eq_ok.mpr ⟨_, getColumn_eq_ok.mpr ⟨hallowed, hattribute, rfl⟩, hop⟩⟩

theorem compileFilter_isOk (e : Expression) :
    (∃ q, compileFilter py model allowedFields search e = .ok q) ↔
      e.Throughout fun e => Acceptable py model allowedFields search e ∧ Ordered e := by
  induction e with
  | condition field op value =>
    rw [compileFilter_condition, compileCondition_isOk]
    constructor
    · intro h
      exact .condition h
    · intro h
      exact h.here
  | group op filters ih =>
    have hchildren : (∃ compiled, filters.mapM (compileFilter py model allowedFields search) =
        .ok compiled) ↔ _ := exists_mapM_eq_ok
    rw [compileFilter_group]
    constructor
    · rintro ⟨q, h⟩
      obtain ⟨compiled, hcompiled, hjoin⟩ := bind_eq_ok.mp h
      have hne : filters ≠ [] := by
        rintro rfl
        exact (joinGroup_eq_ok.mp hjoin).1 (Except.ok.inj hcompiled).symm
      apply Expression.Throughout.group ⟨hne, trivial⟩
      intro e he
      exact (ih e he).mp (hchildren.mp ⟨compiled, hcompiled⟩ e he)
    · intro h
      obtain ⟨compiled, hcompiled⟩ := hchildren.mpr fun e he => (ih e he).mpr (h.mem he)
      have hne : compiled ≠ [] := by
        rintro rfl
        have hpairs := mapM_eq_ok.mp hcompiled
        exact h.here.1 (List.forall₂_nil_right_iff.mp hpairs)
      exact ⟨_, bind_eq_ok.mpr ⟨compiled, hcompiled, joinGroup_eq_ok.mpr ⟨hne, rfl⟩⟩⟩
  | negation filter ih =>
    rw [compileFilter_negation]
    constructor
    · rintro ⟨q, h⟩
      obtain ⟨inner, hinner, -⟩ := map_eq_ok.mp h
      exact .negation ⟨trivial, trivial⟩ (ih.mp ⟨inner, hinner⟩)
    · intro h
      obtain ⟨inner, hinner⟩ := ih.mpr h.inner
      exact ⟨_, map_eq_ok.mpr ⟨inner, hinner, rfl⟩⟩
  | search query =>
    constructor
    · rintro ⟨q, h⟩
      cases search with
      | none => cases h
      | some search => exact .search ⟨rfl, trivial⟩
    · intro h
      obtain ⟨search, rfl⟩ := Option.isSome_iff_exists.mp h.here.1
      exact ⟨_, rfl⟩

theorem compileFilter_error {e : Expression} {exn : Exn} (horder : e.Throughout Ordered)
    (h : compileFilter py model allowedFields search e = .error exn) :
    ∃ message, exn = .valueError message := by
  induction e with
  | condition field op value =>
    rcases bind_eq_error.mp h with hcolumn | ⟨column, -, hop⟩
    · exact getColumn_eq_error hcolumn
    · exact compileOperator_error hop horder.here
  | group op filters ih =>
    rw [compileFilter_group] at h
    rcases bind_eq_error.mp h with hchild | ⟨compiled, -, hjoin⟩
    · obtain ⟨e, he, hfail⟩ := mapM_eq_error hchild
      exact ih e he (horder.mem he) hfail
    · unfold joinGroup at hjoin
      split at hjoin
      · exact ⟨_, (Except.error.inj hjoin).symm⟩
      · cases op <;> cases hjoin
  | negation filter ih => exact ih horder.inner (map_eq_error.mp h)
  | search query =>
    cases search with
    | none => exact ⟨_, (Except.error.inj h).symm⟩
    | some search => cases h

theorem compileFilter_eval (db : Database) (row : Row) {e : Expression} {q : SqlExpr}
    (h : compileFilter py model allowedFields search e = .ok q) :
    q.eval db row = meaning db py search row e := by
  induction e generalizing q with
  | condition field op value =>
    obtain ⟨column, hcolumn, hop⟩ := bind_eq_ok.mp h
    obtain ⟨-, -, rfl⟩ := getColumn_eq_ok.mp hcolumn
    exact compileOperator_eval db row hop
  | group op filters ih =>
    rw [compileFilter_group] at h
    obtain ⟨compiled, hcompiled, hjoin⟩ := bind_eq_ok.mp h
    have hvalues := map_of_mapM hcompiled fun e he q hq => ih e he hq
    obtain ⟨-, rfl⟩ := joinGroup_eq_ok.mp hjoin
    cases op with
    | and => rw [SqlExpr.eval, SqlExpr.evals_eq_map, hvalues, meaning, meanings_eq_map]
    | or => rw [SqlExpr.eval, SqlExpr.evals_eq_map, hvalues, meaning, meanings_eq_map]
  | negation filter ih =>
    obtain ⟨inner, hinner, rfl⟩ := map_eq_ok.mp h
    rw [SqlExpr.eval, ih hinner, meaning]
  | search query =>
    cases search with
    | none => cases h
    | some search =>
      obtain rfl := Except.ok.inj h
      rfl

theorem compileFilter_columns {e : Expression} {q : SqlExpr}
    (h : compileFilter py model allowedFields search e = .ok q) {column : String}
    (hcolumn : column ∈ q.columns) :
    (∃ field ∈ allowedFields, column = camelToSnakeCase py field ∧ column ∈ model.attributes) ∨
      ∃ callback query, search = some callback ∧ column ∈ (callback query).columns := by
  induction e generalizing q with
  | condition field op value =>
    obtain ⟨name, hname, hop⟩ := bind_eq_ok.mp h
    obtain ⟨hallowed, hattribute, rfl⟩ := getColumn_eq_ok.mp hname
    rw [compileOperator_columns hop, List.mem_singleton] at hcolumn
    exact .inl ⟨field, hallowed, hcolumn, hcolumn ▸ hattribute⟩
  | group op filters ih =>
    rw [compileFilter_group] at h
    obtain ⟨compiled, hcompiled, hjoin⟩ := bind_eq_ok.mp h
    obtain ⟨-, rfl⟩ := joinGroup_eq_ok.mp hjoin
    obtain ⟨child, hchild, hin⟩ : ∃ child ∈ compiled, column ∈ child.columns := by
      cases op <;> exact SqlExpr.mem_columnsOf.mp hcolumn
    obtain ⟨e, he, hok⟩ := exists_of_mem_mapM hcompiled hchild
    exact ih e he hok hin
  | negation filter ih =>
    obtain ⟨inner, hinner, rfl⟩ := map_eq_ok.mp h
    exact ih hinner hcolumn
  | search query =>
    cases search with
    | none => cases h
    | some callback =>
      obtain rfl := Except.ok.inj h
      exact .inr ⟨callback, query, rfl, hcolumn⟩

/-- The compiler accepts a plain filter exactly when every node is acceptable, refuses it
with `ValueError` otherwise, and what it builds says of every row what the filter says,
reading only whitelisted columns besides those of the search clauses. -/
theorem sqlFilter_exact (db : Database) (e : Expression) (h : e.Throughout PlainValues) :
    ((∃ q, compileFilter py model allowedFields search e = .ok q) ↔
      e.Throughout (Acceptable py model allowedFields search)) ∧
    (∀ exn, compileFilter py model allowedFields search e = .error exn →
      ∃ message, exn = .valueError message) ∧
    ∀ q, compileFilter py model allowedFields search e = .ok q →
      (∀ row, q.eval db row = meaning db py search row e) ∧
      ∀ column ∈ q.columns,
        (∃ field ∈ allowedFields,
          column = camelToSnakeCase py field ∧ column ∈ model.attributes) ∨
        ∃ callback query, search = some callback ∧ column ∈ (callback query).columns := by
  have horder := h.imp fun _ => PlainValues.ordered
  refine ⟨?_, fun exn => compileFilter_error horder, fun q hq => ⟨?_, ?_⟩⟩
  · rw [compileFilter_isOk]
    exact ⟨fun hboth => hboth.imp fun _ hnode => hnode.1, fun hnodes => hnodes.and horder⟩
  · intro row
    exact compileFilter_eval db row hq
  · intro column hcolumn
    exact compileFilter_columns hq hcolumn

end results

section witness

def ticketModel : Model := ⟨["id", "status", "assignee_name"]⟩

def ticketFields : List String := ["status", "assigneeName"]

def textDatabase : Database where
  eq
    | .str stored, .scalar (.str text) => stored == text
    | _, _ => false
  gt := fun _ _ => false
  lt := fun _ _ => false
  like := fun _ _ => false
  ilike := fun _ _ => false

def notAda : Expression :=
  .group .and [.negation (.condition "assigneeName" .eq (.scalar (.str "Ada"))),
    .condition "status" .in (.list [.scalar (.str "open"), .none])]

theorem notAda_plain : notAda.Throughout PlainValues := by
  apply Expression.Throughout.group trivial
  intro e he
  rcases List.mem_pair.mp he with rfl | rfl
  · exact .negation trivial (.condition rfl)
  · apply Expression.Throughout.condition
    rintro items hitems item hitem
    cases hitems
    rcases List.mem_pair.mp hitem with rfl | rfl <;> rfl

theorem notAda_acceptable :
    notAda.Throughout (Acceptable asciiPython ticketModel ticketFields none) := by
  apply Expression.Throughout.group (List.cons_ne_nil _ _)
  intro e he
  rcases List.mem_pair.mp he with rfl | rfl
  · exact .negation trivial (.condition ⟨by decide, by decide, trivial⟩)
  · exact .condition ⟨by decide, by decide, _, rfl⟩

theorem sqlFilter_exact_notAda :
    ∃ q, compileFilter asciiPython ticketModel ticketFields none notAda = .ok q ∧
      ∀ row, q.eval textDatabase row = meaning textDatabase asciiPython none row notAda := by
  obtain ⟨haccepts, -, hmeans⟩ :=
    @sqlFilter_exact asciiPython ticketModel ticketFields none textDatabase notAda notAda_plain
  obtain ⟨q, hq⟩ := haccepts.mpr notAda_acceptable
  exact ⟨q, hq, (hmeans q hq).1⟩

end witness
end DddFramework.Filters
