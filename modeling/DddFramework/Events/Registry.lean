import DddFramework.Library.Machine
import DddFramework.Filters.Dsl
import Mathlib.Logic.Function.Basic

/-! The registry of event classes. A class statement creates a class object, whose
`__init_subclass__` registers it under its event type, own or inherited; then its decorator may
raise, or make the class anew. What is registered once is found for good. -/
namespace DddFramework.Events.Registry
open Library
open Filters (Python)

/-- A class object: its name, the classes it is looked up in after itself, what its body assigns
to `event_type`, `some none` for `None`, and whether it is a subclass of `Event`. -/
structure ClassObject where
  qualname : String
  mro : List Nat
  ownType : Option (Option String)
  isEvent : Bool

/-- What becomes of a class that has been created: it is kept, as by `@dataclass(frozen=True)`,
it is made once more, as with `slots=True`, or the decorator raises. -/
inductive Decorator where
  | keeps
  | slots
  | raises

structure ClassStatement where
  object : ClassObject
  decorator : Decorator

inductive DefinitionError where
  | nameError
  | valueError (message : String)
  | fromDecorator
deriving DecidableEq

inductive Definition where
  | bound (cls : Nat)
  | raised (error : DefinitionError)
deriving DecidableEq

/-- The class objects by their numbers, `Event._registry`, and the classes that have names. -/
structure Classes where
  objects : List ClassObject
  registry : String → Option Nat
  bound : List Nat

def typeOf (objects : List ClassObject) (object : ClassObject) : Option String :=
  ((object.ownType :: object.mro.map fun base => objects[base]?.bind ClassObject.ownType).findSome?
    id).join

namespace Classes

def eventType (s : Classes) (cls : Nat) : Option String := s.objects[cls]?.bind (typeOf s.objects)

def getEventClass (s : Classes) (eventType : String) : Option Nat := s.registry eventType

def nameOf (s : Classes) (cls : Nat) : String := (s.objects[cls]?.map ClassObject.qualname).getD ""

variable (py : Python)

def initSubclass (s : Classes) (cls : Nat) : Except DefinitionError Classes :=
  match s.eventType cls with
  | none => .ok s
  | some eventType =>
    match s.registry eventType with
    | some registered => .error (.valueError ("Event type " ++ py.repr eventType ++
        " is already registered by " ++ s.nameOf registered ++ "."))
    | none => .ok { s with registry := Function.update s.registry eventType (some cls) }

def make (s : Classes) (object : ClassObject) : Classes × Except DefinitionError Nat :=
  let created := { s with objects := s.objects ++ [object] }
  if object.isEvent then
    match created.initSubclass py s.objects.length with
    | .ok registered => (registered, .ok s.objects.length)
    | .error error => (created, .error error)
  else (created, .ok s.objects.length)

def bind (s : Classes) (cls : Nat) : Classes × List Definition :=
  ({ s with bound := cls :: s.bound }, [.bound cls])

def decorate (s : Classes) (statement : ClassStatement) (cls : Nat) : Classes × List Definition :=
  match statement.decorator with
  | .keeps => s.bind cls
  | .raises => (s, [.raised .fromDecorator])
  | .slots =>
    match s.make py statement.object with
    | (again, .ok cls) => again.bind cls
    | (again, .error error) => (again, [.raised error])

def define (s : Classes) (statement : ClassStatement) : Classes × List Definition :=
  if statement.object.mro.all (· < s.objects.length) then
    match s.make py statement.object with
    | (made, .ok cls) => made.decorate py statement cls
    | (made, .error error) => (made, [.raised error])
  else (s, [.raised .nameError])

end Classes

def classes (py : Python) : Machine Classes ClassStatement Definition where
  init := ⟨[], fun _ => none, []⟩
  step := Classes.define py

section types
variable {objects more : List ClassObject} {object : ClassObject}

theorem typeOf_append (h : ∀ base ∈ object.mro, base < objects.length) :
    typeOf (objects ++ more) object = typeOf objects object := by
  have hbases : (object.mro.map fun base => (objects ++ more)[base]?.bind ClassObject.ownType) =
      object.mro.map fun base => objects[base]?.bind ClassObject.ownType := by
    apply List.map_congr_left
    intro base hbase
    rw [List.getElem?_append_left (h base hbase)]
  rw [typeOf, typeOf, hbases]

end types

/-- What class statements keep: the bases of a class are made before it, a class is registered
under its own type, and a class that has a name is registered if it has a type. -/
structure Sound (s : Classes) : Prop where
  bases : ∀ (cls : Nat) (object : ClassObject), s.objects[cls]? = some object →
    ∀ base ∈ object.mro, base < s.objects.length
  own : ∀ eventType cls, s.registry eventType = some cls →
    ∃ object, s.objects[cls]? = some object ∧ object.isEvent = true ∧
      typeOf s.objects object = some eventType
  bound : ∀ cls ∈ s.bound, ∃ object, s.objects[cls]? = some object ∧
    (object.isEvent = true → ∀ eventType, typeOf s.objects object = some eventType →
      s.registry eventType = some cls)

structure Extends (s t : Classes) : Prop where
  objects : s.objects <+: t.objects
  registry : ∀ eventType cls, s.registry eventType = some cls → t.registry eventType = some cls
  bound : ∀ cls ∈ s.bound, cls ∈ t.bound

theorem Extends.refl (s : Classes) : Extends s s :=
  ⟨List.prefix_refl _, fun _ _ h => h, fun _ h => h⟩

theorem Extends.trans {s t u : Classes} (h : Extends s t) (hnext : Extends t u) : Extends s u where
  objects := h.objects.trans hnext.objects
  registry eventType cls hcls := hnext.registry eventType cls (h.registry eventType cls hcls)
  bound cls hcls := hnext.bound cls (h.bound cls hcls)

section make
variable {py : Python} {s : Classes} {object : ClassObject}

def Classes.create (s : Classes) (object : ClassObject) : Classes :=
  { s with objects := s.objects ++ [object] }

def Classes.register (s : Classes) (eventType : String) (cls : Nat) : Classes :=
  { s with registry := Function.update s.registry eventType (some cls) }

theorem extends_create (s : Classes) (object : ClassObject) : Extends s (s.create object) :=
  ⟨List.prefix_append _ _, fun _ _ h => h, fun _ h => h⟩

theorem extends_register {eventType : String} (h : s.registry eventType = none) (cls : Nat) :
    Extends s (s.register eventType cls) where
  objects := List.prefix_refl _
  registry other found hfound := by
    have hne : other ≠ eventType := by
      rintro rfl
      rw [h] at hfound
      cases hfound
    exact (Function.update_of_ne hne _ _).trans hfound
  bound _ h := h

theorem Sound.typeOf_eq (h : Sound s) {t : Classes} (hobjects : s.objects <+: t.objects)
    {cls : Nat} {object : ClassObject} (hobject : s.objects[cls]? = some object) :
    t.objects[cls]? = some object ∧ typeOf t.objects object = typeOf s.objects object := by
  obtain ⟨more, hmore⟩ := hobjects
  rw [← hmore]
  have hlength : cls < s.objects.length := (List.getElem?_eq_some_iff.mp hobject).1
  rw [List.getElem?_append_left hlength]
  exact ⟨hobject, typeOf_append (h.bases cls object hobject)⟩

theorem Sound.create (h : Sound s) (hbases : ∀ base ∈ object.mro, base < s.objects.length) :
    Sound (s.create object) where
  bases := by
    intro cls found hfound base hbase
    have hlength : (s.create object).objects.length = s.objects.length + 1 := by
      simp [Classes.create]
    rw [hlength]
    by_cases hcls : cls < s.objects.length
    · rw [Classes.create, List.getElem?_append_left hcls] at hfound
      exact Nat.lt_succ_of_lt (h.bases cls found hfound base hbase)
    · rw [Classes.create, List.getElem?_append_right (Nat.le_of_not_lt hcls),
        List.getElem?_singleton] at hfound
      split at hfound
      · rw [← Option.some.inj hfound] at hbase
        exact Nat.lt_succ_of_lt (hbases base hbase)
      · cases hfound
  own := by
    intro eventType cls hcls
    obtain ⟨found, hfound, hevent, htype⟩ := h.own eventType cls hcls
    obtain ⟨hsame, heq⟩ := h.typeOf_eq (extends_create s object).objects hfound
    exact ⟨found, hsame, hevent, heq.trans htype⟩
  bound := by
    intro cls hcls
    obtain ⟨found, hfound, hregistered⟩ := h.bound cls hcls
    obtain ⟨hsame, heq⟩ := h.typeOf_eq (extends_create s object).objects hfound
    refine ⟨found, hsame, fun hevent eventType htype => ?_⟩
    exact hregistered hevent eventType (heq.symm.trans htype)

theorem Sound.register (h : Sound s) {cls : Nat} {eventType : String}
    (hobject : s.objects[cls]? = some object) (hevent : object.isEvent = true)
    (htype : typeOf s.objects object = some eventType) (hfree : s.registry eventType = none) :
    Sound (s.register eventType cls) where
  bases := h.bases
  own := by
    intro other found hfound
    have hupdated : Function.update s.registry eventType (some cls) other = some found := hfound
    by_cases hother : other = eventType
    · rw [hother, Function.update_self] at hupdated
      rw [← Option.some.inj hupdated, hother]
      exact ⟨object, hobject, hevent, htype⟩
    · rw [Function.update_of_ne hother] at hupdated
      exact h.own other found hupdated
  bound := by
    intro found hfound
    obtain ⟨known, hknown, hregistered⟩ := h.bound found hfound
    refine ⟨known, hknown, fun hevent other hother => ?_⟩
    exact (extends_register hfree cls).registry other found (hregistered hevent other hother)

/-- What comes of making a class: it is registered under its type, or this was taken. -/
structure Made (py : Python) (s : Classes) (object : ClassObject) (made : Classes)
    (result : Except DefinitionError Nat) : Prop where
  sound : Sound made
  grows : Extends s made
  objects : made.objects = s.objects ++ [object]
  bound : made.bound = s.bound
  done : ∀ cls, result = .ok cls → made.objects[cls]? = some object ∧
    (object.isEvent = true → ∀ eventType, typeOf s.objects object = some eventType →
      s.registry eventType = none ∧ made.registry eventType = some cls)
  refused : ∀ error, result = .error error → object.isEvent = true ∧
    ∃ eventType registered, typeOf s.objects object = some eventType ∧
      s.registry eventType = some registered ∧ error = .valueError ("Event type " ++
        py.repr eventType ++ " is already registered by " ++ s.nameOf registered ++ ".")

theorem make_spec (py : Python) (h : Sound s)
    (hbases : ∀ base ∈ object.mro, base < s.objects.length) :
    Made py s object (s.make py object).1 (s.make py object).2 := by
  have hcreated : Sound (s.create object) := h.create hbases
  have hobject : (s.create object).objects[s.objects.length]? = some object := by
    simp [Classes.create]
  have hsame : typeOf (s.create object).objects object = typeOf s.objects object :=
    typeOf_append hbases
  have hgrows := extends_create s object
  have hmake : s.make py object =
      if object.isEvent then
        match (s.create object).initSubclass py s.objects.length with
        | .ok registered => (registered, .ok s.objects.length)
        | .error error => (s.create object, .error error)
      else (s.create object, .ok s.objects.length) := rfl
  rw [hmake]
  by_cases hevent : object.isEvent = true
  · rw [if_pos hevent, Classes.initSubclass, Classes.eventType, hobject, Option.bind_some, hsame]
    cases htype : typeOf s.objects object with
    | none =>
      refine ⟨hcreated, hgrows, rfl, rfl, ?_, nofun⟩
      rintro cls ⟨⟩
      exact ⟨hobject, fun _ eventType heventType => by simp [htype] at heventType⟩
    | some eventType =>
      have hregistry : (s.create object).registry eventType = s.registry eventType := rfl
      cases hregistered : s.registry eventType with
      | some registered =>
        simp only [hregistry, hregistered]
        refine ⟨hcreated, hgrows, rfl, rfl, nofun, ?_⟩
        rintro error ⟨⟩
        obtain ⟨known, hknown, -⟩ := h.own eventType registered hregistered
        have hname : (s.create object).nameOf registered = s.nameOf registered := by
          rw [Classes.nameOf, Classes.nameOf, hknown, (h.typeOf_eq hgrows.objects hknown).1]
        exact ⟨hevent, eventType, registered, htype, hregistered, by rw [hname]⟩
      | none =>
        simp only [hregistry, hregistered]
        have hfree : (s.create object).registry eventType = none := hregistered
        have hsound := hcreated.register hobject hevent (hsame.trans htype) hfree
        refine ⟨hsound, hgrows.trans (extends_register hfree _), rfl, rfl, ?_, nofun⟩
        rintro cls ⟨⟩
        refine ⟨hobject, fun _ other hother => ?_⟩
        rw [htype] at hother
        rw [← Option.some.inj hother]
        exact ⟨hregistered, Function.update_self ..⟩
  · rw [if_neg hevent]
    refine ⟨hcreated, hgrows, rfl, rfl, ?_, nofun⟩
    rintro cls ⟨⟩
    exact ⟨hobject, fun h => absurd h hevent⟩

def Taken (s : Classes) : Prop :=
  ∀ object ∈ s.objects, object.isEvent = true → ∀ eventType,
    typeOf s.objects object = some eventType → ∃ cls, s.registry eventType = some cls

theorem Made.registered {made : Classes} {result : Except DefinitionError Nat}
    (h : Made py s object made result) (hevent : object.isEvent = true) {eventType : String}
    (htype : typeOf s.objects object = some eventType) :
    ∃ cls, made.registry eventType = some cls := by
  cases hresult : result with
  | ok cls => exact ⟨cls, ((h.done cls hresult).2 hevent eventType htype).2⟩
  | error error =>
    obtain ⟨-, other, registered, hother, hregistered, -⟩ := h.refused error hresult
    have heq : other = eventType := Option.some.inj (hother.symm.trans htype)
    exact ⟨registered, h.grows.registry eventType registered (heq ▸ hregistered)⟩

theorem Made.taken {made : Classes} {result : Except DefinitionError Nat}
    (h : Made py s object made result) (hsound : Sound s) (htaken : Taken s)
    (hbases : ∀ base ∈ object.mro, base < s.objects.length) : Taken made := by
  intro known hknown hevent eventType htype
  rw [h.objects, List.mem_append, List.mem_singleton] at hknown
  rw [h.objects] at htype
  obtain hknown | rfl := hknown
  · obtain ⟨cls, hcls⟩ := List.mem_iff_getElem?.mp hknown
    rw [typeOf_append (hsound.bases cls known hcls)] at htype
    obtain ⟨found, hfound⟩ := htaken known hknown hevent eventType htype
    exact ⟨found, h.grows.registry eventType found hfound⟩
  · rw [typeOf_append hbases] at htype
    exact h.registered hevent htype

theorem Sound.bind (h : Sound s) {cls : Nat} (hobject : s.objects[cls]? = some object)
    (hregistered : object.isEvent = true → ∀ eventType, typeOf s.objects object = some eventType →
      s.registry eventType = some cls) : Sound (s.bind cls).1 where
  bases := h.bases
  own := h.own
  bound := by
    intro found hfound
    obtain rfl | hfound := List.mem_cons.mp hfound
    · exact ⟨object, hobject, hregistered⟩
    · exact h.bound found hfound

theorem extends_bind (s : Classes) (cls : Nat) : Extends s (s.bind cls).1 :=
  ⟨List.prefix_refl _, fun _ _ h => h, fun _ h => List.mem_cons_of_mem _ h⟩

end make

def Known (s : Classes) (statement : ClassStatement) : Prop :=
  ∀ base ∈ statement.object.mro, base < s.objects.length

theorem Known.all {s : Classes} {statement : ClassStatement} (h : Known s statement) :
    statement.object.mro.all (· < s.objects.length) = true := by
  rw [List.all_eq_true]
  intro base hbase
  exact decide_eq_true (h base hbase)

section define
variable {py : Python} {s : Classes} {statement : ClassStatement} {cls : Nat}

/-- A class under a decorator is named, unless the decorator makes it again under a type that
it has taken itself. -/
theorem decorate_spec (py : Python) (h : Sound s) (htaken : Taken s)
    (hobject : s.objects[cls]? = some statement.object)
    (hregistered : statement.object.isEvent = true → ∀ eventType,
      typeOf s.objects statement.object = some eventType → s.registry eventType = some cls) :
    Sound (s.decorate py statement cls).1 ∧ Taken (s.decorate py statement cls).1 ∧
      Extends s (s.decorate py statement cls).1 ∧
      ((∃ named, (s.decorate py statement cls).2 = [.bound named]) ↔
        statement.decorator ≠ .raises ∧ (statement.object.isEvent = true → ∀ eventType,
          typeOf s.objects statement.object = some eventType → statement.decorator = .keeps)) := by
  rw [Classes.decorate]
  cases hdecorator : statement.decorator with
  | keeps =>
    refine ⟨h.bind hobject hregistered, htaken, extends_bind s cls, ?_⟩
    exact ⟨fun _ => ⟨nofun, fun _ _ _ => rfl⟩, fun _ => ⟨cls, rfl⟩⟩
  | raises =>
    refine ⟨h, htaken, Extends.refl s, ?_⟩
    simp
  | slots =>
    have hbases := h.bases cls statement.object hobject
    have hagain := make_spec py h hbases
    have hagainTaken := hagain.taken h htaken hbases
    cases hmake : s.make py statement.object with | mk again result =>
    rw [hmake] at hagain hagainTaken
    cases result with
    | ok second =>
      obtain ⟨hsecond, hfree⟩ := hagain.done second rfl
      have huntyped : statement.object.isEvent = true → ∀ eventType,
          typeOf s.objects statement.object ≠ some eventType := by
        intro hevent eventType htype
        have htakenHere := hregistered hevent eventType htype
        rw [(hfree hevent eventType htype).1] at htakenHere
        cases htakenHere
      have hsound : Sound (again.bind second).1 := by
        refine hagain.sound.bind hsecond fun hevent eventType htype => ?_
        rw [hagain.objects, typeOf_append hbases] at htype
        exact absurd htype (huntyped hevent eventType)
      refine ⟨hsound, hagainTaken, hagain.grows.trans (extends_bind again second), ?_⟩
      refine ⟨fun _ => ⟨nofun, fun hevent eventType htype => ?_⟩, fun _ => ⟨second, rfl⟩⟩
      exact absurd htype (huntyped hevent eventType)
    | error error =>
      obtain ⟨hevent, eventType, -, htype, -⟩ := hagain.refused error rfl
      refine ⟨hagain.sound, hagainTaken, hagain.grows, by simp, fun hnamed => ?_⟩
      cases hnamed.2 hevent eventType htype

structure Defined (py : Python) (s : Classes) (statement : ClassStatement) (t : Classes)
    (out : List Definition) : Prop where
  sound : Sound t
  taken : Taken t
  grows : Extends s t
  typed : statement.object.isEvent = true → ∀ eventType,
    typeOf s.objects statement.object = some eventType → ∃ cls, t.registry eventType = some cls
  binds : (∃ cls, out = [.bound cls]) ↔ statement.decorator ≠ .raises ∧
    (statement.object.isEvent = true → ∀ eventType,
      typeOf s.objects statement.object = some eventType →
        s.registry eventType = none ∧ statement.decorator = .keeps)
  refused : statement.object.isEvent = true → ∀ eventType registered,
    typeOf s.objects statement.object = some eventType →
      s.registry eventType = some registered →
      t.bound = s.bound ∧ out = [.raised (.valueError ("Event type " ++ py.repr eventType ++
        " is already registered by " ++ s.nameOf registered ++ "."))]

theorem define_spec (py : Python) (h : Sound s) (htaken : Taken s)
    (hbases : Known s statement) :
    Defined py s statement (s.define py statement).1 (s.define py statement).2 := by
  have hmade := make_spec py h hbases
  have hmadeTaken := hmade.taken h htaken hbases
  rw [Classes.define, if_pos hbases.all]
  cases hmake : s.make py statement.object with | mk made result =>
  rw [hmake] at hmade hmadeTaken
  cases result with
  | ok cls =>
    obtain ⟨hobject, hdone⟩ := hmade.done cls rfl
    have hsame : typeOf made.objects statement.object = typeOf s.objects statement.object := by
      rw [hmade.objects, typeOf_append hbases]
    obtain ⟨hsound, hall, hgrows, hbinds⟩ := decorate_spec py hmade.sound hmadeTaken hobject
      fun hevent eventType htype => (hdone hevent eventType (hsame ▸ htype)).2
    refine ⟨hsound, hall, hmade.grows.trans hgrows, ?_, ?_, ?_⟩
    · intro hevent eventType htype
      exact ⟨cls, hgrows.registry _ _ (hdone hevent eventType htype).2⟩
    · rw [hbinds, hsame]
      refine and_congr_right fun _ => ⟨fun hkeeps hevent eventType htype => ?_,
        fun hkeeps hevent eventType htype => (hkeeps hevent eventType htype).2⟩
      exact ⟨(hdone hevent eventType htype).1, hkeeps hevent eventType htype⟩
    · intro hevent eventType registered htype hregistered
      rw [(hdone hevent eventType htype).1] at hregistered
      cases hregistered
  | error error =>
    obtain ⟨hevent, other, registered, hother, hregistered, rfl⟩ := hmade.refused error rfl
    refine ⟨hmade.sound, hmadeTaken, hmade.grows, fun _ _ => hmade.registered hevent, ?_, ?_⟩
    · refine ⟨by simp, fun hbinds => ?_⟩
      rw [(hbinds.2 hevent other hother).1] at hregistered
      cases hregistered
    · intro _ eventType found htype hfound
      obtain rfl := Option.some.inj (hother.symm.trans htype)
      obtain rfl := Option.some.inj (hregistered.symm.trans hfound)
      exact ⟨hmade.bound, rfl⟩

theorem define_keeps (py : Python) (statement : ClassStatement) (h : Sound s) (htaken : Taken s) :
    Sound (s.define py statement).1 ∧ Taken (s.define py statement).1 ∧
      Extends s (s.define py statement).1 := by
  by_cases hknown : statement.object.mro.all (· < s.objects.length) = true
  · have hbases : Known s statement := by
      intro base hbase
      exact of_decide_eq_true (List.all_eq_true.mp hknown base hbase)
    have hdefined := define_spec py h htaken hbases
    exact ⟨hdefined.sound, hdefined.taken, hdefined.grows⟩
  · rw [Classes.define, if_neg hknown]
    exact ⟨h, htaken, Extends.refl s⟩

end define

section runs
variable (py : Python)

theorem after_keeps {s : Classes} (h : Sound s) (htaken : Taken s)
    (statements : List ClassStatement) :
    Sound ((classes py).after s statements) ∧ Taken ((classes py).after s statements) ∧
      Extends s ((classes py).after s statements) := by
  induction statements generalizing s with
  | nil => exact ⟨h, htaken, Extends.refl s⟩
  | cons statement statements ih =>
    obtain ⟨hsound, hall, hgrows⟩ := define_keeps py statement h htaken
    obtain ⟨hsoundLast, hallLast, hgrowsLast⟩ := ih hsound hall
    exact ⟨hsoundLast, hallLast, hgrows.trans hgrowsLast⟩

def defined (statements : List ClassStatement) : Classes :=
  (classes py).after (classes py).init statements

theorem defined_keeps (past more : List ClassStatement) :
    Sound (defined py past) ∧ Taken (defined py past) ∧
      Extends (defined py past) (defined py (past ++ more)) := by
  have hinit : Sound (classes py).init := ⟨by simp [classes], nofun, nofun⟩
  obtain ⟨hsound, htaken, -⟩ := after_keeps py hinit nofun past
  refine ⟨hsound, htaken, ?_⟩
  rw [defined, defined, Machine.after_append]
  exact (after_keeps py hsound htaken more).2.2

def IsEventClass (s : Classes) (cls : Nat) : Prop :=
  ∃ object, s.objects[cls]? = some object ∧ object.isEvent = true

theorem Sound.getEventClass_eq {s : Classes} (h : Sound s) {cls : Nat} (hcls : cls ∈ s.bound)
    (hevent : IsEventClass s cls) {eventType : String} (htype : s.eventType cls = some eventType) :
    s.getEventClass eventType = some cls := by
  obtain ⟨object, hobject, hisEvent⟩ := hevent
  obtain ⟨known, hknown, hregistered⟩ := h.bound cls hcls
  obtain rfl := Option.some.inj (hobject.symm.trans hknown)
  rw [Classes.eventType, hobject, Option.bind_some] at htype
  exact hregistered hisEvent eventType htype

end runs

end DddFramework.Events.Registry
