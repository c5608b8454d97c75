import DddFramework.Filters.SqlMeaning
import DddFramework.Filters.MongoFilters

/-! One filter, two back ends: a record stored as a row and as a document in which
every field is present. Each database compares values in its own way. Where each node of
the filter is portable the back ends agree, and a node that is not makes them part at
that node. -/
namespace DddFramework.Filters
open Library Library.Fallible

/-- MongoDB's own comparisons of what a field keeps of a value with an operand. A datetime
is kept to the millisecond, a `Decimal` not at all, and texts have an order of their own. -/
structure Mongo.Comparisons where
  eq : Scalar → Value → Bool
  gt : Scalar → Value → Bool
  lt : Scalar → Value → Bool

def equalTo (mongo : Mongo.Comparisons) (stored : Option Scalar) (value : Value) : Bool :=
  match stored with
  | none => value.isNone
  | some s => !value.isNone && mongo.eq s value

/-- An ordering test, for which null is comparable with null alone. -/
def ordered (stored : Option Scalar) (value : Value) (test : Scalar → Value → Bool) : Bool :=
  stored.any fun s => !value.isNone && test s value

def sameLetter (fold : Char → Char) (options : String) (c d : Char) : Bool :=
  if options = "i" then fold c == fold d else c == d

/-- A regular expression is tested on texts only. -/
def regexTest (fold : Char → Char) (stored : Option Scalar) (pattern options : String) : Bool :=
  match stored with
  | some (.str text) => regexMatches (sameLetter fold options) pattern text
  | _ => false

/-- The answer of a present field that holds a scalar or null; `fold` is the case folding
of option `i`. -/
def Mongo.Test.answer (mongo : Mongo.Comparisons) (fold : Char → Char) (stored : Option Scalar) :
    Mongo.Test → Bool
  | .eq value => equalTo mongo stored value
  | .ne value => !equalTo mongo stored value
  | .gt value => ordered stored value mongo.gt
  | .gte value => ordered stored value mongo.gt || equalTo mongo stored value
  | .lt value => ordered stored value mongo.lt
  | .lte value => ordered stored value mongo.lt || equalTo mongo stored value
  | .in values => values.any fun value => equalTo mongo stored value
  | .nin values => !values.any fun value => equalTo mongo stored value
  | .nullType => stored.isNone
  | .existsNotNull => stored.isSome
  | .regex pattern options => regexTest fold stored pattern options

section
variable (db : Database) (mongo : Mongo.Comparisons) (fold : Char → Char) (py : Python)
  (model : Model) (allowedFields : List String) (fields : String → Option String)

/-- The whitelists name the same stored attributes: each API name is allowed in both back
ends or in neither, and its column holds what its document field holds. -/
structure SameAttributes (row : Row) (doc : String → Option Scalar) : Prop where
  whitelisted : ∀ field, field ∈ allowedFields ↔ (fields field).isSome = true
  mapped : ∀ field ∈ allowedFields, camelToSnakeCase py field ∈ model.attributes
  stored : ∀ field name, fields field = some name → doc name = row (camelToSnakeCase py field)

/-- Both compilers refuse the filter, or both accept it and select the record alike. -/
def Agrees (row : Row) (doc : String → Option Scalar) (e : Expression) : Prop :=
  ((∃ exn, compileFilter py model allowedFields none e = .error exn) ∧
    ∃ exn, Mongo.compileFilter py fields e = .error exn) ∨
  ∃ q f, compileFilter py model allowedFields none e = .ok q ∧
    Mongo.compileFilter py fields e = .ok f ∧
    (q.eval db row = .yes ↔ f.admits (fun name test => test.answer mongo fold (doc name)) = true)

/-- `LIKE` of the database and the regular expression take the same stored texts. -/
def LikeAgrees (like : Scalar → String → Bool) (options : String) (stored : Option Scalar)
    (value : Value) : Prop :=
  ∃ pattern, value = .scalar (.str pattern) ∧ ∀ s, stored = some s →
    like s pattern = match s with
      | .str text => lineLike (sameLetter fold options) pattern text
      | _ => false

def ComparesAlike (stored : Option Scalar) (test mongoTest : Scalar → Bool) : Prop :=
  ∀ s, stored = some s → test s = mongoTest s

def hasEqual (eq : Scalar → Value → Bool) (items : List Value) (s : Scalar) : Bool :=
  items.any fun item => !item.isNone && eq s item

/-- Where an operator means the same of the stored value in both back ends. -/
def PortableOperator (stored : Option Scalar) (op : ComparisonOperator) (value : Value) : Prop :=
  match op with
  | .isNull | .isNotNull => True
  | .eq => value ≠ .none → ComparesAlike stored (db.eq · value) (mongo.eq · value)
  | .ne => value ≠ .none →
    stored ≠ none ∧ ComparesAlike stored (db.eq · value) (mongo.eq · value)
  | .gt => value.isConstant = false ∧ ComparesAlike stored (db.gt · value) (mongo.gt · value)
  | .gte => value.isConstant = false ∧ ComparesAlike stored
    (fun s => db.gt s value || db.eq s value) fun s => mongo.gt s value || mongo.eq s value
  | .lt => value.isConstant = false ∧ ComparesAlike stored (db.lt · value) (mongo.lt · value)
  | .lte => value.isConstant = false ∧ ComparesAlike stored
    (fun s => db.lt s value || db.eq s value) fun s => mongo.lt s value || mongo.eq s value
  | .in => (∀ items, Mongo.listOf value ≠ .ok items) ∨
    ∃ items, value = .list items ∧ (stored = none → .none ∉ items) ∧
      ComparesAlike stored (hasEqual db.eq items) (hasEqual mongo.eq items)
  | .nin => (∀ items, Mongo.listOf value ≠ .ok items) ∨
    ∃ items, value = .list items ∧
      match stored with
      | none => items = [] ∨ .none ∈ items
      | some s => (.none ∈ items → hasEqual mongo.eq items s = true) ∧
        (.none ∉ items → hasEqual db.eq items s = hasEqual mongo.eq items s)
  | .like => LikeAgrees fold db.like "" stored value
  | .ilike => LikeAgrees fold db.ilike "i" stored value

/-- Where a node adds no difference of its own to those of its children. -/
def Portable (row : Row) : Expression → Prop
  | .condition field op value =>
    field ∈ allowedFields → PortableOperator db mongo fold (row (camelToSnakeCase py field))
      op value
  | .group _ filters => filters ≠ []
  | .negation filter =>
    filter.Throughout (fun node => Acceptable py model allowedFields none node ∧ Ordered node) →
      meaning db py none row filter ≠ .unknown
  | .search _ => True

def NoSearch : Expression → Prop
  | .search _ => False
  | _ => True

end

section operators
variable {db : Database} {mongo : Mongo.Comparisons} {fold : Char → Char} {py : Python}
  {column : String} {stored : Option Scalar} {value : Value}

def OperatorAgrees (db : Database) (mongo : Mongo.Comparisons) (fold : Char → Char) (py : Python)
    (stored : Option Scalar) (op : ComparisonOperator) (value : Value) : Prop :=
  (¬(Fits op value ∧ Orderable op value) ∧ ∀ test, Mongo.compileOperator py op value ≠ .ok test) ∨
  (Fits op value ∧ Orderable op value) ∧ ∃ test, Mongo.compileOperator py op value = .ok test ∧
    (conditionMeaning db stored op value = .yes ↔ test.answer mongo fold stored = true)

theorem known_eq_yes {test : Scalar → Bool} :
    known stored test = .yes ↔ ∃ s, stored = some s ∧ test s = true := by
  cases stored <;> simp [known]

theorem comparesAlike_iff {test mongoTest : Scalar → Bool} :
    ComparesAlike stored test mongoTest ↔
      (known stored test = .yes ↔ stored.any mongoTest = true) := by
  unfold ComparesAlike
  cases stored with
  | none => simp [known]
  | some s =>
    simp only [known, Option.some.injEq, forall_eq', Option.elim_some, Truth.ofBool_eq_yes,
      Option.any_some]
    exact Bool.eq_iff_iff

theorem equals_eq_yes : equals db stored value = .yes ↔
    ∃ s, stored = some s ∧ value.isNone = false ∧ db.eq s value = true := by
  unfold equals
  cases value.isNone <;> simp [known_eq_yes]

theorem equals_eq_no : equals db stored value = .no ↔
    ∃ s, stored = some s ∧ value.isNone = false ∧ db.eq s value = false := by
  unfold equals
  cases value.isNone <;> cases stored <;> simp [known]

section
variable {op : ComparisonOperator}

theorem operatorAgrees_of_ok {test : Mongo.Test} (hfits : Fits op value)
    (horder : Orderable op value) (hok : Mongo.compileOperator py op value = .ok test) :
    OperatorAgrees db mongo fold py stored op value ↔
      (conditionMeaning db stored op value = .yes ↔ test.answer mongo fold stored = true) := by
  simp [OperatorAgrees, hfits, horder, hok]

theorem operatorAgrees_of_refused (hrefused : ¬(Fits op value ∧ Orderable op value)) :
    OperatorAgrees db mongo fold py stored op value ↔
      ∀ test, Mongo.compileOperator py op value ≠ .ok test := by
  simp [OperatorAgrees, hrefused]

end

theorem orderingAgrees_iff {op : ComparisonOperator} {test : Mongo.Test}
    {sqlTest mongoTest : Scalar → Bool} (hfits : Fits op value)
    (horder : Orderable op value ↔ value.isConstant = false)
    (hok : Mongo.compileOperator py op value = .ok test)
    (hsql : conditionMeaning db stored op value = known stored sqlTest)
    (hmongo : value.isNone = false → test.answer mongo fold stored = stored.any mongoTest) :
    OperatorAgrees db mongo fold py stored op value ↔
      value.isConstant = false ∧ ComparesAlike stored sqlTest mongoTest := by
  by_cases hconstant : value.isConstant = false
  · have hvalue : value.isNone = false := by
      cases value <;> simp_all [Value.isConstant, Value.isNone]
    rw [operatorAgrees_of_ok hfits (horder.mpr hconstant) hok, hsql, hmongo hvalue,
      comparesAlike_iff]
    simp [hconstant]
  · rw [operatorAgrees_of_refused fun h => hconstant (horder.mp h.2)]
    simp [hok, hconstant]

theorem hasEqual_iff {eq : Scalar → Value → Bool} {items : List Value} {s : Scalar} :
    hasEqual eq items s = true ↔ ∃ item ∈ items, item.isNone = false ∧ eq s item = true := by
  simp [hasEqual]

theorem any_equalTo_iff {items : List Value} :
    (items.any fun item => equalTo mongo stored item) = true ↔
      (stored = none ∧ .none ∈ items) ∨ stored.any (hasEqual mongo.eq items) = true := by
  cases stored with
  | none => simp [equalTo, Value.isNone_iff]
  | some s => simp [equalTo, hasEqual]

theorem isMember_eq_yes {items : List Value} :
    isMember db stored (.list items) = .yes ↔ known stored (hasEqual db.eq items) = .yes := by
  simp only [isMember, Truth.any_eq_yes, List.mem_map, exists_exists_and_eq_and, equals_eq_yes,
    known_eq_yes, hasEqual_iff]
  constructor
  · rintro ⟨item, hitem, s, hs, hvalue⟩
    exact ⟨s, hs, item, hitem, hvalue⟩
  · rintro ⟨s, hs, item, hitem, hvalue⟩
    exact ⟨item, hitem, s, hs, hvalue⟩

theorem isMember_some_eq_no {items : List Value} {s : Scalar} :
    isMember db (some s) (.list items) = .no ↔
      .none ∉ items ∧ hasEqual db.eq items s = false := by
  rw [← Bool.not_eq_true, hasEqual_iff]
  simp only [isMember, Truth.any_eq_no, List.forall_mem_map, equals_eq_no, Option.some.injEq,
    exists_eq_left']
  constructor
  · intro h
    constructor
    · intro hnull
      cases (h _ hnull).1
    · rintro ⟨item, hitem, -, hequal⟩
      rw [(h item hitem).2] at hequal
      cases hequal
  · rintro ⟨hnull, hno⟩ item hitem
    have hvalue : item.isNone = false := by
      rw [← Bool.not_eq_true, Value.isNone_iff]
      exact fun hnone => hnull (hnone ▸ hitem)
    refine ⟨hvalue, ?_⟩
    rw [← Bool.not_eq_true]
    exact fun hequal => hno ⟨item, hitem, hvalue, hequal⟩

theorem inAgrees_iff {items : List Value} :
    (isMember db stored (.list items) = .yes ↔
      (items.any fun item => equalTo mongo stored item) = true) ↔
    (stored = none → .none ∉ items) ∧
      ComparesAlike stored (hasEqual db.eq items) (hasEqual mongo.eq items) := by
  rw [isMember_eq_yes, any_equalTo_iff, comparesAlike_iff]
  cases stored with
  | none => simp [known]
  | some s => simp

theorem ninAgrees_iff {items : List Value} :
    ((isMember db stored (.list items)).neg = .yes ↔
      (!items.any fun item => equalTo mongo stored item) = true) ↔
    match stored with
    | none => items = [] ∨ .none ∈ items
    | some s => (.none ∈ items → hasEqual mongo.eq items s = true) ∧
      (.none ∉ items → hasEqual db.eq items s = hasEqual mongo.eq items s) := by
  rw [Truth.neg_eq_yes, Bool.not_eq_true', ← Bool.not_eq_true, any_equalTo_iff]
  cases stored with
  | none =>
    have hopen : isMember db none (.list items) = .no ↔ items = [] := by
      simp only [isMember, Truth.any_eq_no, List.forall_mem_map, equals_eq_no]
      simp [List.eq_nil_iff_forall_not_mem]
    rw [hopen]
    by_cases hnull : .none ∈ items
    · have hfull : items ≠ [] := List.ne_nil_of_mem hnull
      simp [hnull, hfull]
    · simp [hnull]
  | some s =>
    rw [isMember_some_eq_no]
    by_cases hnull : .none ∈ items
    · simp [hnull]
    · cases hsql : hasEqual db.eq items s <;> cases hmongo : hasEqual mongo.eq items s <;>
        simp [hnull, hsql, hmongo]

theorem likeAgrees_iff {like : Scalar → String → Bool} {options : String} :
    LikeAgrees fold like options stored value ↔
      ∃ pattern, value = .scalar (.str pattern) ∧
        (fitsPattern like stored value = .yes ↔
          regexTest fold stored (compileLikePattern (py.str value)) options = true) := by
  apply exists_congr
  intro pattern
  apply and_congr_right
  rintro rfl
  rw [py.str_of_str, fitsPattern, known_eq_yes]
  cases stored with
  | none => simp [regexTest]
  | some s =>
    cases s <;> simp [regexTest, regexMatches_compileLikePattern]

theorem listOperatorAgrees_iff {op : ComparisonOperator} {ask : List Value → Mongo.Test}
    (hrefused : ¬Fits op value)
    (hlist : Mongo.compileOperator py op value = (Mongo.listOf value).map ask) :
    OperatorAgrees db mongo fold py stored op value ↔ ∀ items, Mongo.listOf value ≠ .ok items := by
  rw [operatorAgrees_of_refused fun h => hrefused h.1, hlist]
  cases Mongo.listOf value <;> simp [Except.map]

theorem likeOperatorAgrees_iff {op : ComparisonOperator} {like : Scalar → String → Bool}
    {options : String} (hfits : Fits op value ↔ ∃ pattern, value = .scalar (.str pattern))
    (horder : Orderable op value)
    (hmeans : conditionMeaning db stored op value = fitsPattern like stored value)
    (hok : Mongo.compileOperator py op value =
      .ok (.regex (compileLikePattern (py.str value)) options)) :
    OperatorAgrees db mongo fold py stored op value ↔
      LikeAgrees fold like options stored value := by
  rw [@likeAgrees_iff fold py]
  by_cases htext : ∃ pattern, value = .scalar (.str pattern)
  · rw [operatorAgrees_of_ok (hfits.mpr htext) horder hok, hmeans]
    obtain ⟨pattern, rfl⟩ := htext
    simp [Mongo.Test.answer]
  · rw [operatorAgrees_of_refused fun h => htext (hfits.mp h.1), hok]
    constructor
    · intro h
      exact absurd rfl (h _)
    · rintro ⟨pattern, hvalue, -⟩
      exact absurd ⟨pattern, hvalue⟩ htext

theorem eqAgrees_iff :
    (conditionMeaning db stored .eq value = .yes ↔ equalTo mongo stored value = true) ↔
      (value ≠ .none → ComparesAlike stored (db.eq · value) (mongo.eq · value)) := by
  rw [comparesAlike_iff, ne_eq, ← Value.isNone_iff]
  cases hnull : value.isNone <;> cases stored <;>
    simp [conditionMeaning, equalTo, known, hnull]

theorem neAgrees_iff :
    (conditionMeaning db stored .ne value = .yes ↔ (!equalTo mongo stored value) = true) ↔
      (value ≠ .none →
        stored ≠ none ∧ ComparesAlike stored (db.eq · value) (mongo.eq · value)) := by
  rw [comparesAlike_iff, ne_eq, ← Value.isNone_iff]
  cases hnull : value.isNone <;> cases stored with
  | none => simp [conditionMeaning, equalTo, known, hnull]
  | some s =>
    cases hsql : db.eq s value <;> cases hmongo : mongo.eq s value <;>
      simp [conditionMeaning, equalTo, known, hnull, hsql, hmongo]

theorem operatorAgrees_iff {op : ComparisonOperator} :
    OperatorAgrees db mongo fold py stored op value ↔
      PortableOperator db mongo fold stored op value := by
  cases op with
  | eq =>
    have hfits : Fits .eq value := trivial
    rw [operatorAgrees_of_ok hfits (by simp [Orderable]) rfl]
    exact eqAgrees_iff
  | ne =>
    have hfits : Fits .ne value := trivial
    rw [operatorAgrees_of_ok hfits (by simp [Orderable]) rfl]
    exact neAgrees_iff
  | gt =>
    have hfits : Fits .gt value := trivial
    apply orderingAgrees_iff hfits (by simp [Orderable]) rfl rfl
    intro hvalue
    cases stored <;> simp [Mongo.Test.answer, ordered, hvalue]
  | lt =>
    have hfits : Fits .lt value := trivial
    apply orderingAgrees_iff hfits (by simp [Orderable]) rfl rfl
    intro hvalue
    cases stored <;> simp [Mongo.Test.answer, ordered, hvalue]
  | gte =>
    have hfits : Fits .gte value := trivial
    apply orderingAgrees_iff hfits (by simp [Orderable]) rfl rfl
    intro hvalue
    cases stored <;> simp [Mongo.Test.answer, ordered, equalTo, hvalue]
  | lte =>
    have hfits : Fits .lte value := trivial
    apply orderingAgrees_iff hfits (by simp [Orderable]) rfl rfl
    intro hvalue
    cases stored <;> simp [Mongo.Test.answer, ordered, equalTo, hvalue]
  | «in» =>
    have hlist : Mongo.compileOperator py .in value = (Mongo.listOf value).map .in := rfl
    cases value with
    | list items =>
      have hfits : Fits .in (.list items) := ⟨items, rfl⟩
      rw [operatorAgrees_of_ok hfits (by simp [Orderable]) rfl, conditionMeaning,
        Mongo.Test.answer, inAgrees_iff]
      simp [PortableOperator, Mongo.listOf]
    | none | scalar | set | tuple =>
      rw [listOperatorAgrees_iff (by simp [Fits]) hlist]
      simp [PortableOperator]
  | nin =>
    have hlist : Mongo.compileOperator py .nin value = (Mongo.listOf value).map .nin := rfl
    cases value with
    | list items =>
      have hfits : Fits .nin (.list items) := ⟨items, rfl⟩
      rw [operatorAgrees_of_ok hfits (by simp [Orderable]) rfl, conditionMeaning,
        Mongo.Test.answer, ninAgrees_iff]
      simp [PortableOperator, Mongo.listOf]
    | none | scalar | set | tuple =>
      rw [listOperatorAgrees_iff (by simp [Fits]) hlist]
      simp [PortableOperator]
  | like => exact likeOperatorAgrees_iff Iff.rfl (by simp [Orderable]) rfl rfl
  | ilike => exact likeOperatorAgrees_iff Iff.rfl (by simp [Orderable]) rfl rfl
  | isNull =>
    have hfits : Fits .isNull value := trivial
    rw [operatorAgrees_of_ok hfits (by simp [Orderable]) rfl]
    simp [conditionMeaning, Mongo.Test.answer, PortableOperator]
  | isNotNull =>
    have hfits : Fits .isNotNull value := trivial
    rw [operatorAgrees_of_ok hfits (by simp [Orderable]) rfl]
    simp [conditionMeaning, Mongo.Test.answer, PortableOperator]

end operators

section trees
variable {db : Database} {mongo : Mongo.Comparisons} {fold : Char → Char} {py : Python}
  {model : Model} {allowedFields : List String} {fields : String → Option String} {row : Row}
  {doc : String → Option Scalar}

/-- Agreement in terms of what decides it: acceptability and meaning on the SQL side. -/
theorem agrees_iff {e : Expression} :
    Agrees db mongo fold py model allowedFields fields row doc e ↔
      ((¬∃ q, compileFilter py model allowedFields none e = .ok q) ∧
        ¬∃ f, Mongo.compileFilter py fields e = .ok f) ∨
      (∃ q, compileFilter py model allowedFields none e = .ok q) ∧
        ∃ f, Mongo.compileFilter py fields e = .ok f ∧
          (meaning db py none row e = .yes ↔
            f.admits (fun name test => test.answer mongo fold (doc name)) = true) := by
  unfold Agrees
  rcases ok_or_error (compileFilter py model allowedFields none e) with ⟨q, hq⟩ | ⟨exn, hq⟩
  · have hmeaning := compileFilter_eval db row hq
    simp [hq, hmeaning]
  · rcases ok_or_error (Mongo.compileFilter py fields e) with ⟨f, hf⟩ | ⟨exn', hf⟩ <;>
      simp [hq, hf]

theorem conditionAgrees_iff {field : String} {op : ComparisonOperator} {value : Value}
    (same : SameAttributes py model allowedFields fields row doc) :
    Agrees db mongo fold py model allowedFields fields row doc (.condition field op value) ↔
      Portable db mongo fold py model allowedFields row (.condition field op value) := by
  rw [agrees_iff, Portable, compileFilter_condition, Mongo.compileFilter, compileCondition_isOk]
  by_cases hfield : field ∈ allowedFields
  · obtain ⟨name, hname⟩ := Option.isSome_iff_exists.mp ((same.whitelisted field).mp hfield)
    have hstored := same.stored field name hname
    have hcompile : Mongo.compileCondition py fields field op value =
        (Mongo.compileOperator py op value).map (.field name) := by
      rw [Mongo.compileCondition, Mongo.resolveField_eq_ok.mpr hname]
      cases Mongo.compileOperator py op value <;> rfl
    rw [← @operatorAgrees_iff db mongo fold py, OperatorAgrees, hcompile]
    cases Mongo.compileOperator py op value <;>
      simp [Except.map, hfield, same.mapped field hfield, meaning, Mongo.Filter.admits, hstored]
  · have hmissing : ¬(fields field).isSome = true :=
      fun h => hfield ((same.whitelisted field).mpr h)
    have hrefused : ¬∃ f, Mongo.compileCondition py fields field op value = .ok f :=
      fun h => hmissing (Mongo.compileCondition_isOk.mp h).1
    simp [hfield, hrefused]

theorem Agrees.accepted {e : Expression}
    (h : Agrees db mongo fold py model allowedFields fields row doc e)
    (hok : ∃ q, compileFilter py model allowedFields none e = .ok q) :
    ∃ f, Mongo.compileFilter py fields e = .ok f ∧
      (meaning db py none row e = .yes ↔
        f.admits (fun name test => test.answer mongo fold (doc name)) = true) := by
  rcases agrees_iff.mp h with ⟨hno, -⟩ | ⟨-, hyes⟩
  · exact absurd hok hno
  · exact hyes

theorem Agrees.refused {e : Expression}
    (h : Agrees db mongo fold py model allowedFields fields row doc e)
    (hno : ¬∃ q, compileFilter py model allowedFields none e = .ok q) :
    ¬∃ f, Mongo.compileFilter py fields e = .ok f := by
  rcases agrees_iff.mp h with ⟨-, hrefused⟩ | ⟨hok, -⟩
  · exact hrefused
  · exact absurd hok hno

theorem groupMeaning_iff {op : LogicOperator} {filters : List Expression} {f : Mongo.Filter}
    (hne : filters ≠ []) (hf : Mongo.compileFilter py fields (.group op filters) = .ok f)
    (hchildren : ∀ e ∈ filters, ∃ g, Mongo.compileFilter py fields e = .ok g ∧
      (meaning db py none row e = .yes ↔
        g.admits (fun name test => test.answer mongo fold (doc name)) = true)) :
    meaning db py none row (.group op filters) = .yes ↔
      f.admits (fun name test => test.answer mongo fold (doc name)) = true := by
  have hchild : ∀ e ∈ filters, (meaning db py none row e = .yes ↔
      ∃ g, Mongo.compileFilter py fields e = .ok g ∧
        g.admits (fun name test => test.answer mongo fold (doc name)) = true) := by
    intro e he
    obtain ⟨g, hg, hiff⟩ := hchildren e he
    simp [hg, hiff]
  cases op with
  | and =>
    rw [Mongo.and_admits hf, meaning, meanings_eq_map, Truth.all_eq_yes, List.forall_mem_map]
    exact forall₂_congr hchild
  | or =>
    rw [Mongo.or_admits hne hf, meaning, meanings_eq_map, Truth.any_eq_yes]
    simp only [List.mem_map, exists_exists_and_eq_and]
    exact exists_congr fun e => and_congr_right (hchild e)

/-- Over children that agree, a group adds a difference exactly when it is empty: SQL refuses
it and the Mongo compiler returns the filter that matches everything. -/
theorem groupAgrees_iff {op : LogicOperator} {filters : List Expression}
    (hchildren : ∀ e ∈ filters, Agrees db mongo fold py model allowedFields fields row doc e) :
    Agrees db mongo fold py model allowedFields fields row doc (.group op filters) ↔
      filters ≠ [] := by
  rw [agrees_iff, compileFilter_isOk, Mongo.compileFilter_isOk]
  constructor
  · rintro hagrees rfl
    rcases hagrees with ⟨-, hrefused⟩ | ⟨haccepted, -⟩
    · exact hrefused (.group trivial (by simp))
    · exact haccepted.here.1 rfl
  · intro hne
    by_cases hall : ∀ e ∈ filters, ∃ q, compileFilter py model allowedFields none e = .ok q
    · right
      have haccepted := fun e he => (hchildren e he).accepted (hall e he)
      obtain ⟨f, hf⟩ := (Mongo.compileFilter_isOk (.group op filters)).mpr <|
        .group trivial fun e he =>
          (Mongo.compileFilter_isOk e).mp ((haccepted e he).imp fun _ => And.left)
      exact ⟨.group ⟨hne, trivial⟩ fun e he => (compileFilter_isOk e).mp (hall e he),
        f, hf, groupMeaning_iff hne hf haccepted⟩
    · left
      push Not at hall
      obtain ⟨e, he, hrefused⟩ := hall
      have hno : ¬∃ q, compileFilter py model allowedFields none e = .ok q :=
        not_exists.mpr hrefused
      constructor
      · intro h
        exact hno ((compileFilter_isOk e).mpr (h.mem he))
      · intro h
        exact (hchildren e he).refused hno ((Mongo.compileFilter_isOk e).mpr (h.mem he))

theorem negation_isOk {child : Expression} :
    (∃ q, compileFilter py model allowedFields none (.negation child) = .ok q) ↔
      ∃ q, compileFilter py model allowedFields none child = .ok q := by
  rw [compileFilter_negation]
  cases compileFilter py model allowedFields none child <;> simp [Except.map]

/-- A negation adds a difference exactly when its child is open: SQL then selects neither
the child nor its negation, MongoDB one of the two. -/
theorem negationAgrees_iff {child : Expression}
    (hchild : Agrees db mongo fold py model allowedFields fields row doc child) :
    Agrees db mongo fold py model allowedFields fields row doc (.negation child) ↔
      Portable db mongo fold py model allowedFields row (.negation child) := by
  rw [agrees_iff, Portable, ← compileFilter_isOk, negation_isOk]
  by_cases hok : ∃ q, compileFilter py model allowedFields none child = .ok q
  · obtain ⟨g, hg, hiff⟩ := hchild.accepted hok
    have hcompile : Mongo.compileFilter py fields (.negation child) = .ok (.nor [g]) := by
      rw [Mongo.compileFilter, hg]
      rfl
    simp only [hok, not_true, false_and, false_or, true_and, true_imp_iff, hcompile,
      Except.ok.injEq, exists_eq_left', Mongo.nor_admits, ← hiff, meaning, Truth.neg_eq_yes]
    cases meaning db py none row child <;> simp
  · have hrefused := hchild.refused hok
    have hnegated : ¬∃ f, Mongo.compileFilter py fields (.negation child) = .ok f := by
      rintro ⟨f, hf⟩
      obtain ⟨g, hg, -⟩ := map_eq_ok.mp hf
      exact hrefused ⟨g, hg⟩
    simp [hok, hnegated]

/-- On a record stored alike in both back ends, a filter without search and all its parts
agree exactly where every node is portable. -/
theorem backEnds_agree_iff (same : SameAttributes py model allowedFields fields row doc)
    (e : Expression) (hsearch : e.Throughout NoSearch) :
    e.Throughout (Agrees db mongo fold py model allowedFields fields row doc) ↔
      e.Throughout (Portable db mongo fold py model allowedFields row) := by
  induction e with
  | condition field op value =>
    constructor
    · intro h
      exact .condition ((conditionAgrees_iff same).mp h.here)
    · intro h
      exact .condition ((conditionAgrees_iff same).mpr h.here)
  | group op filters ih =>
    constructor
    · intro h
      have hchildren := fun e he => (h.mem (e := e) he).here
      exact .group ((groupAgrees_iff hchildren).mp h.here) fun e he =>
        (ih e he (hsearch.mem he)).mp (h.mem he)
    · intro h
      have hchildren := fun e he => (ih e he (hsearch.mem he)).mpr (h.mem he)
      exact .group ((groupAgrees_iff fun e he => (hchildren e he).here).mpr h.here) hchildren
  | negation child ih =>
    constructor
    · intro h
      exact .negation ((negationAgrees_iff h.inner.here).mp h.here)
        ((ih hsearch.inner).mp h.inner)
    · intro h
      have hinner := (ih hsearch.inner).mpr h.inner
      exact .negation ((negationAgrees_iff hinner.here).mpr h.here) hinner
  | search query => exact hsearch.here.elim

end trees

section witness

def ticketNames (field : String) : Option String :=
  if field ∈ ticketFields then some (camelToSnakeCase asciiPython field) else none

theorem ticketNames_same (row : Row) :
    SameAttributes asciiPython ticketModel ticketFields ticketNames row row where
  whitelisted := fun field => by simp [ticketNames]
  mapped := by decide
  stored := fun field name h => by
    unfold ticketNames at h
    split at h
    · rw [Option.some.inj h]
    · cases h

def millisecondMongo : Mongo.Comparisons where
  eq
    | .datetime stored, .scalar (.datetime moment) => stored / 1000 == moment / 1000
    | .str stored, .scalar (.str text) => stored == text
    | _, _ => false
  gt := fun _ _ => false
  lt := fun _ _ => false

def exactDatabase : Database where
  eq
    | stored, .scalar value => stored == value
    | _, _ => false
  gt := fun _ _ => false
  lt := fun _ _ => false
  like := fun _ _ => false
  ilike := fun _ _ => false

def bobsTicket : Row := fun column =>
  if column = "status" then some (.str "open") else some (.str "Bob")

theorem backEnds_agree_bobsTicket :
    Agrees textDatabase millisecondMongo id asciiPython ticketModel ticketFields ticketNames
      bobsTicket bobsTicket notAda := by
  have hsearch : notAda.Throughout NoSearch := by
    apply Expression.Throughout.group trivial
    intro e he
    rcases List.mem_pair.mp he with rfl | rfl
    · exact .negation trivial (.condition trivial)
    · exact .condition trivial
  have halike : ∀ item : Value, ∀ text, item = .scalar (.str text) → ∀ stored,
      ComparesAlike (some (.str stored)) (textDatabase.eq · item) (millisecondMongo.eq · item) := by
    rintro _ text rfl stored s ⟨⟩
    rfl
  apply Expression.Throughout.here
  apply (backEnds_agree_iff (ticketNames_same bobsTicket) notAda hsearch).mpr
  apply Expression.Throughout.group (List.cons_ne_nil _ _)
  intro e he
  rcases List.mem_pair.mp he with rfl | rfl
  · apply Expression.Throughout.negation
    · intro _
      decide
    · exact .condition fun _ _ => halike _ "Ada" rfl "Bob"
  · apply Expression.Throughout.condition
    intro _
    refine .inr ⟨[.scalar (.str "open"), .none], rfl, nofun, ?_⟩
    rintro s ⟨⟩
    rfl

def blankTicket : Row := fun _ => none

def momentTicket : Row := fun _ => some (.datetime 500)

/-- An empty group is refused by SQL and matches every document; `$ne` on a null attribute
selects the document and not the row; and a moment is found by another one of its millisecond. -/
theorem backEnds_disagree :
    ¬Agrees textDatabase millisecondMongo id asciiPython ticketModel ticketFields ticketNames
        blankTicket blankTicket (.group .and []) ∧
      ¬Agrees textDatabase millisecondMongo id asciiPython ticketModel ticketFields ticketNames
        blankTicket blankTicket (.condition "status" .ne (.scalar (.str "open"))) ∧
      ¬Agrees exactDatabase millisecondMongo id asciiPython ticketModel ticketFields ticketNames
        momentTicket momentTicket (.condition "status" .eq (.scalar (.datetime 0))) := by
  refine ⟨?_, ?_, ?_⟩
  · rw [groupAgrees_iff (by simp)]
    simp
  · rw [conditionAgrees_iff (ticketNames_same blankTicket)]
    intro hportable
    exact (hportable (by decide) (by simp)).1 rfl
  · rw [conditionAgrees_iff (ticketNames_same momentTicket)]
    intro hportable
    cases hportable (by decide) (by simp) (.datetime 500) rfl

end witness
end DddFramework.Filters
