import Mathlib.Data.List.Basic

/-! Equality and hash of entities. `Entity` writes both by `id`; `@dataclass` writes an equality of
its own into every class that it decorates and that has none in its body, and takes the hash away
there. Which of them an instance has is up to the first class of its MRO. -/
namespace DddFramework.Domain

structure Field where
  name : String
  compare : Bool := true
deriving DecidableEq

structure Decorator where
  eq : Bool := true

/-- A class of the hierarchy: its base, its decorator, if it has one, and the fields of its body,
which does not write an equality or a hash. -/
inductive Declaration where
  | entity
  | subclass (base : Declaration) (name : String) (decorator : Option Decorator)
      (fields : List Field)

inductive EqMethod where
  | byId
  | fieldwise (fields : List Field)

/-- `__hash__` is a method, or `None`. -/
inductive HashMethod where
  | byId
  | unhashable

structure Namespace where
  eq : Option EqMethod
  hash : Option HashMethod

namespace Declaration

def entityFields : List Field :=
  [⟨"_events", true⟩, ⟨"id", true⟩, ⟨"created_at", true⟩, ⟨"updated_at", true⟩,
    ⟨"deleted_at", true⟩]

def aggregateRoot : Declaration := .subclass .entity "AggregateRoot" none []

def decorator : Declaration → Option Decorator
  | .entity => some {}
  | .subclass _ _ decorator _ => decorator

/-- The fields of a base, with what a class declares: again, in its place, or after them. -/
def mergeFields (base own : List Field) : List Field :=
  base.map (fun field => (own.find? (·.name == field.name)).getD field) ++
    own.filter (fun field => !base.any (·.name == field.name))

/-- The fields as `@dataclass` collects them. A class without it declares none. -/
def fields : Declaration → List Field
  | .entity => entityFields
  | .subclass base _ none _ => base.fields
  | .subclass base _ (some _) own => mergeFields base.fields own

def body : Declaration → Namespace
  | .entity => ⟨some .byId, some .byId⟩
  | .subclass .. => ⟨none, none⟩

/-- What `@dataclass` makes of a body. It leaves what is written there. -/
def decorate (decorator : Decorator) (fields : List Field) (body : Namespace) : Namespace :=
  if decorator.eq then
    ⟨some (body.eq.getD (.fieldwise fields)), some (body.hash.getD .unhashable)⟩
  else body

def own (cls : Declaration) : Namespace :=
  match cls.decorator with
  | none => cls.body
  | some decorator => decorate decorator cls.fields cls.body

def mro : Declaration → List Declaration
  | .entity => [.entity]
  | .subclass base name decorator fields => .subclass base name decorator fields :: base.mro

def eqMethod (cls : Declaration) : Option EqMethod := cls.mro.findSome? (·.own.eq)

def hashMethod (cls : Declaration) : Option HashMethod := cls.mro.findSome? (·.own.hash)

end Declaration

/-- An instance of just this class. The queue of events is a value like the others. -/
structure Instance (cls : Declaration) (V : Type) where
  field : String → V

namespace Instance
variable {cls : Declaration} {V H : Type} [DecidableEq V]

def id (a : Instance cls V) : V := a.field "id"

def eq (a b : Instance cls V) : Option Bool :=
  match cls.eqMethod with
  | none => none
  | some .byId => some (a.id == b.id)
  | some (.fieldwise fields) =>
    some ((fields.filter (·.compare)).all fun field => a.field field.name == b.field field.name)

def hash (hashOf : V → H) (a : Instance cls V) : Option H :=
  match cls.hashMethod with
  | some .byId => some (hashOf a.id)
  | _ => none

end Instance

namespace Declaration

def compares : Declaration → Bool
  | .entity => false
  | .subclass base _ decorator _ => decorator.any (·.eq) || base.compares

def declared : Declaration → Bool
  | .entity => false
  | .subclass _ _ decorator _ => decorator.any (·.eq)

/-- The classes below `Entity` have fields of their own only, next to the queue of events. -/
def extra : Declaration → Bool
  | .entity => true
  | .subclass base _ _ own => own.all (·.name != "_events") && base.extra

def EqualById (cls : Declaration) : Prop :=
  ∀ (V : Type) [DecidableEq V] (a b : Instance cls V), a.eq b = some true ↔ a.id = b.id

def EqualHashes (cls : Declaration) : Prop :=
  ∀ (V H : Type) [DecidableEq V] (hashOf : V → H) (a b : Instance cls V), a.eq b = some true →
    ∃ h, a.hash hashOf = some h ∧ b.hash hashOf = some h

theorem own_subclass {base : Declaration} {name : String} {decorator : Option Decorator}
    {members : List Field} :
    own (.subclass base name decorator members) =
      if decorator.any (·.eq) then
        ⟨some (.fieldwise (fields (.subclass base name decorator members))), some .unhashable⟩
      else ⟨none, none⟩ := by
  cases decorator with
  | none => rfl
  | some decorator =>
    obtain ⟨eq⟩ := decorator
    cases eq <;> rfl

theorem eqMethod_subclass {base : Declaration} {name : String} {decorator : Option Decorator}
    {members : List Field} :
    eqMethod (.subclass base name decorator members) =
      if decorator.any (·.eq) then
        some (.fieldwise (fields (.subclass base name decorator members)))
      else base.eqMethod := by
  rw [eqMethod, mro, List.findSome?_cons, own_subclass]
  by_cases hdecorator : decorator.any (·.eq) = true
  · simp only [if_pos hdecorator]
  · simp only [if_neg hdecorator]
    rfl

theorem hashMethod_subclass {base : Declaration} {name : String} {decorator : Option Decorator}
    {members : List Field} :
    hashMethod (.subclass base name decorator members) =
      if decorator.any (·.eq) then some .unhashable else base.hashMethod := by
  rw [hashMethod, mro, List.findSome?_cons, own_subclass]
  by_cases hdecorator : decorator.any (·.eq) = true
  · simp only [if_pos hdecorator]
  · simp only [if_neg hdecorator]
    rfl

theorem methods_of_not_compares {cls : Declaration} (h : cls.compares = false) :
    cls.eqMethod = some .byId ∧ cls.hashMethod = some .byId := by
  induction cls with
  | entity => exact ⟨rfl, rfl⟩
  | subclass base name decorator own ih =>
    rw [compares, Bool.or_eq_false_iff] at h
    rw [eqMethod_subclass, hashMethod_subclass, if_neg (by rw [h.1]; exact Bool.false_ne_true),
      if_neg (by rw [h.1]; exact Bool.false_ne_true)]
    exact ih h.2

theorem methods_of_compares {cls : Declaration} (h : cls.compares = true) :
    ∃ base name decorator own, cls.eqMethod = some (.fieldwise
        (fields (.subclass base name (some decorator) own))) ∧
      cls.hashMethod = some .unhashable ∧
      (cls.extra = true → extra (.subclass base name (some decorator) own) = true) := by
  induction cls with
  | entity => cases h
  | subclass base name decorator own ih =>
    rw [eqMethod_subclass, hashMethod_subclass]
    cases hdecorator : decorator.any (·.eq) with
    | true =>
      cases decorator with
      | none => cases hdecorator
      | some decorator => exact ⟨base, name, decorator, own, rfl, rfl, id⟩
    | false =>
      rw [compares, hdecorator, Bool.false_or] at h
      obtain ⟨above, title, found, members, heq, hhash, hextra⟩ := ih h
      refine ⟨above, title, found, members, heq, hhash, ?_⟩
      intro hall
      rw [extra, Bool.and_eq_true] at hall
      exact hextra hall.2

theorem mem_mergeFields {base own : List Field} {field : Field} (hbase : field ∈ base)
    (hown : own.all (·.name != field.name) = true) : field ∈ mergeFields base own := by
  apply List.mem_append_left
  apply List.mem_map.mpr
  have hnone : own.find? (·.name == field.name) = none := by
    rw [List.find?_eq_none]
    intro other hother
    have hne := List.all_eq_true.mp hown other hother
    simpa using hne
  exact ⟨field, hbase, by rw [hnone]; rfl⟩

theorem events_mem_fields {cls : Declaration} (h : cls.extra = true) :
    ⟨"_events", true⟩ ∈ cls.fields := by
  induction cls with
  | entity => decide
  | subclass base name decorator own ih =>
    rw [extra, Bool.and_eq_true] at h
    cases decorator with
    | none => exact ih h.2
    | some decorator => exact mem_mergeFields (ih h.2) h.1

theorem not_equalHashes_of_compares {cls : Declaration} (h : cls.compares = true) :
    ¬ cls.EqualHashes := by
  intro hhashes
  obtain ⟨base, name, decorator, own, heq, hhash, -⟩ := methods_of_compares h
  let a : Instance cls Bool := ⟨fun _ => false⟩
  have hsame : a.eq a = some true := by
    simp [Instance.eq, heq]
  obtain ⟨hashed, hdefined, -⟩ := hhashes Bool Bool id a a hsame
  simp [Instance.hash, hhash] at hdefined

theorem not_equalById_of_compares {cls : Declaration} (h : cls.compares = true)
    (hextra : cls.extra = true) : ¬ cls.EqualById := by
  intro hequal
  obtain ⟨base, name, decorator, own, heq, -, hfields⟩ := methods_of_compares h
  let a : Instance cls Bool := ⟨fun _ => false⟩
  let b : Instance cls Bool := ⟨fun name => name == "_events"⟩
  have hsame : a.eq b = some true := (hequal Bool a b).mpr rfl
  simp only [Instance.eq, heq, Option.some.injEq, List.all_eq_true] at hsame
  have hevents := events_mem_fields (hfields hextra)
  have hqueue := hsame _ (List.mem_filter.mpr ⟨hevents, rfl⟩)
  cases hqueue

theorem equalById_of_not_compares {cls : Declaration} (h : cls.compares = false) :
    cls.EqualById ∧ cls.EqualHashes := by
  obtain ⟨heq, hhash⟩ := methods_of_not_compares h
  have hequal : cls.EqualById := by
    intro V _ a b
    simp only [Instance.eq, heq, Option.some.injEq, beq_iff_eq]
  refine ⟨hequal, ?_⟩
  intro V H _ hashOf a b hab
  refine ⟨hashOf a.id, ?_, ?_⟩
  · simp only [Instance.hash, hhash]
  · simp only [Instance.hash, hhash, (hequal V a b).mp hab]

theorem compares_of_declared {cls : Declaration} (h : cls.declared = true) :
    cls.compares = true := by
  cases cls with
  | entity => cases h
  | subclass base name decorator own => exact Bool.or_eq_true _ _ ▸ .inl h

/-- Entities are equal by `id` alone, with hashes, where no class below `Entity` is a dataclass
that writes an equality, and so never as the docs declare them. -/
theorem equal_by_id_iff (cls : Declaration) :
    (cls.EqualById ∧ cls.EqualHashes ↔ cls.compares = false) ∧
      (cls.declared = true →
        ¬ cls.EqualHashes ∧ (cls.extra = true → ¬ cls.EqualById)) := by
  refine ⟨?_, ?_⟩
  · apply Iff.intro
    · intro h
      by_contra hcompares
      exact not_equalHashes_of_compares ((Bool.not_eq_false _).mp hcompares) h.2
    · exact equalById_of_not_compares
  · intro hdeclared
    have hcompares := compares_of_declared hdeclared
    exact ⟨not_equalHashes_of_compares hcompares, not_equalById_of_compares hcompares⟩

def invoiceClass : Declaration :=
  .subclass aggregateRoot "Invoice" (some {}) [⟨"amount", true⟩, ⟨"is_paid", true⟩]

def snapshot (isPaid : String) : Instance invoiceClass String where
  field := fun name => if name = "is_paid" then isPaid else ""

theorem invoice_not_equal_by_id :
    (snapshot "False").id = (snapshot "True").id ∧
      (snapshot "False").eq (snapshot "True") = some false ∧
      (snapshot "False").hash String.length = none ∧
      ¬ invoiceClass.EqualById ∧ ¬ invoiceClass.EqualHashes := by
  refine ⟨rfl, by decide, rfl, ?_, ?_⟩
  · intro h
    exact absurd ((h String (snapshot "False") (snapshot "True")).mpr rfl) (by decide)
  · intro h
    obtain ⟨hashed, hdefined, -⟩ :=
      h String Nat String.length (snapshot "False") (snapshot "False") (by decide)
    cases hdefined

end Declaration
end DddFramework.Domain
