import DddFramework.Library.Machine
import Mathlib.Logic.Function.Basic

/-! The application context, a dictionary in a context variable. Tasks open and leave `with`
blocks in any order among them, start tasks that inherit their context, and change the
dictionaries they pass in and get out; the event store reads the context as it records.
What is read is what the enclosing blocks of the task say. -/
namespace DddFramework.Application
open Library

variable {V : Type}

abbrev Dict (V : Type) := String → Option V

def Dict.empty : Dict V := fun _ => none

/-- `{**context, **values}`. -/
def Dict.updated (context values : Dict V) : Dict V := fun key => (values key).or (context key)

structure DomainEvent (V : Type) where
  eventType : V
  eventId : V
  occurredOn : V
  version : V
  own : List (String × V)

def eventFields : List String := ["event_id", "occurred_on", "version"]

def DomainEvent.asdict (event : DomainEvent V) : List (String × V) :=
  [("event_id", event.eventId), ("occurred_on", event.occurredOn), ("version", event.version)] ++
    event.own

def getEventPayload (event : DomainEvent V) : List (String × V) :=
  event.asdict.filter fun field => field.1 ∉ eventFields

structure EntityRef (V : Type) where
  id : V
  typeName : String

structure EventOrm (V : Type) where
  eventId : V
  eventType : V
  version : V
  occurredOn : V
  entityId : V
  entityType : String
  correlationId : Option V
  metadata : Dict V
  payload : List (String × V)

def buildEventOrm (context : Dict V) (event : DomainEvent V) (entity : EntityRef V) :
    EventOrm V where
  eventId := event.eventId
  eventType := event.eventType
  version := event.version
  occurredOn := event.occurredOn
  entityId := entity.id
  entityType := entity.typeName
  correlationId := context "correlation_id"
  metadata := fun key => if key = "correlation_id" then none else context key
  payload := getEventPayload event

/-- What tasks do. Names stand for the dictionaries the application holds, whose keys it sets
and, with no value, deletes; a `with` block is left by its end or by an exception. -/
inductive Op (V : Type) where
  | new (name : String) (values : Dict V)
  | assign (name key : String) (value : Option V)
  | spawn (parent child : Nat)
  | useContext (task : Nat) (name : String)
  | extendContext (task : Nat) (name : String)
  | leave (task : Nat)
  | getContext (task : Nat) (name : String)
  | getContextValue (task : Nat) (key : String) (default : Option V)
  | recordAll (task : Nat) (events : List (DomainEvent V × EntityRef V))

inductive Effect (V : Type) where
  | got (task : Nat) (context : Dict V)
  | gotValue (task : Nat) (value : Option V)
  | recorded (task : Nat) (rows : List (EventOrm V))

/-- The value of the context variable in a task, and the tokens of the blocks it is in, the
innermost first. -/
structure TaskContext where
  value : Option Nat
  tokens : List (Option Nat)

/-- Dictionaries are objects; names and the context variable refer to them. -/
structure State (V : Type) where
  heap : List (Dict V)
  names : String → Option Nat
  tasks : Nat → TaskContext

namespace State

def dict (s : State V) (ref : Nat) : Dict V := s.heap[ref]?.getD .empty

def read (s : State V) : Option Nat → Dict V
  | none => .empty
  | some ref => s.dict ref

def context (s : State V) (task : Nat) : Dict V := s.read (s.tasks task).value

def bind (s : State V) (name : String) (values : Dict V) : State V :=
  { s with
    heap := s.heap ++ [values]
    names := Function.update s.names name (some s.heap.length) }

def setTask (s : State V) (task : Nat) (context : TaskContext) : State V :=
  { s with tasks := Function.update s.tasks task context }

def enter (s : State V) (task : Nat) (values : Dict V) : State V :=
  { s with heap := s.heap ++ [values] }.setTask task
    ⟨some s.heap.length, (s.tasks task).value :: (s.tasks task).tokens⟩

def leave (s : State V) (task : Nat) : State V :=
  match (s.tasks task).tokens with
  | [] => s
  | token :: tokens => s.setTask task ⟨token, tokens⟩

end State

def step (s : State V) : Op V → State V × List (Effect V)
  | .new name values => (s.bind name values, [])
  | .assign name key value =>
    match s.names name with
    | none => (s, [])
    | some ref =>
      ({ s with heap := s.heap.set ref (Function.update (s.dict ref) key value) }, [])
  | .spawn parent child => (s.setTask child ⟨(s.tasks parent).value, []⟩, [])
  | .useContext task name =>
    match s.names name with
    | none => (s, [])
    | some ref => (s.enter task (s.dict ref), [])
  | .extendContext task name =>
    match s.names name with
    | none => (s, [])
    | some ref => (s.enter task ((s.context task).updated (s.dict ref)), [])
  | .leave task => (s.leave task, [])
  | .getContext task name => (s.bind name (s.context task), [.got task (s.context task)])
  | .getContextValue task key default =>
    (s, [.gotValue task ((s.context task key).or default)])
  | .recordAll task events =>
    (s, [.recorded task (events.map fun event => buildEventOrm (s.context task) event.1 event.2)])

structure Scopes (V : Type) where
  names : String → Option (Dict V)
  frames : Nat → List (Dict V)

namespace Scopes

def context (s : Scopes V) (task : Nat) : Dict V := (s.frames task).headD .empty

def setStack (s : Scopes V) (task : Nat) (stack : List (Dict V)) : Scopes V :=
  { s with frames := Function.update s.frames task stack }

def bind (s : Scopes V) (name : String) (values : Dict V) : Scopes V :=
  { s with names := Function.update s.names name (some values) }

def step (s : Scopes V) : Op V → Scopes V × List (Effect V)
  | .new name values => (s.bind name values, [])
  | .assign name key value =>
    match s.names name with
    | none => (s, [])
    | some values => (s.bind name (Function.update values key value), [])
  | .spawn parent child => (s.setStack child [s.context parent], [])
  | .useContext task name =>
    match s.names name with
    | none => (s, [])
    | some values => (s.setStack task (values :: s.frames task), [])
  | .extendContext task name =>
    match s.names name with
    | none => (s, [])
    | some values =>
      (s.setStack task ((s.context task).updated values :: s.frames task), [])
  | .leave task =>
    match s.frames task with
    | _ :: outer :: rest => (s.setStack task (outer :: rest), [])
    | _ => (s, [])
  | .getContext task name => (s.bind name (s.context task), [.got task (s.context task)])
  | .getContextValue task key default =>
    (s, [.gotValue task ((s.context task key).or default)])
  | .recordAll task events =>
    (s, [.recorded task (events.map fun event => buildEventOrm (s.context task) event.1 event.2)])

end Scopes

def TaskContext.values (task : TaskContext) : List (Option Nat) := task.value :: task.tokens

structure Agrees (s : State V) (scopes : Scopes V) : Prop where
  names : ∀ name, (s.names name).map s.dict = scopes.names name
  bounds : ∀ name ref, s.names name = some ref → ref < s.heap.length
  distinct : ∀ name other ref, s.names name = some ref → s.names other = some ref → name = other
  frames : ∀ task, (s.tasks task).values.map s.read = scopes.frames task
  own : ∀ task ref, some ref ∈ (s.tasks task).values →
    ref < s.heap.length ∧ ∀ name, s.names name ≠ some ref

namespace Agrees
variable {s : State V} {scopes : Scopes V}

theorem context (h : Agrees s scopes) (task : Nat) : s.context task = scopes.context task := by
  rw [Scopes.context, ← h.frames task]
  rfl

theorem dict_append {ref : Nat} (h : ref < s.heap.length) (values : Dict V) :
    State.dict { s with heap := s.heap ++ [values] } ref = s.dict ref := by
  simp [State.dict, List.getElem?_append_left h]

theorem dict_last (s : State V) (values : Dict V) :
    State.dict { s with heap := s.heap ++ [values] } s.heap.length = values := by
  simp [State.dict]

theorem read_eq (h : Agrees s scopes) {t : State V}
    (hdict : ∀ ref, ref < s.heap.length → (∀ name, s.names name ≠ some ref) →
      t.dict ref = s.dict ref) {task : Nat} {value : Option Nat}
    (hvalue : value ∈ (s.tasks task).values) : t.read value = s.read value := by
  cases value with
  | none => rfl
  | some ref =>
    obtain ⟨hbound, hown⟩ := h.own task ref hvalue
    exact hdict ref hbound hown

theorem bind (h : Agrees s scopes) (name : String) (values : Dict V) :
    Agrees (s.bind name values) (scopes.bind name values) where
  names other := by
    by_cases hname : other = name
    · subst hname
      simp only [State.bind, Scopes.bind, Function.update_self, Option.map_some]
      exact congrArg some (dict_last s values)
    · simp only [State.bind, Scopes.bind, Function.update_of_ne hname]
      rw [← h.names other]
      cases hother : s.names other with
      | none => rfl
      | some ref => exact congrArg some (dict_append (h.bounds other ref hother) values)
  bounds other ref hother := by
    simp only [State.bind, List.length_append, List.length_singleton] at hother ⊢
    by_cases hname : other = name
    · rw [hname, Function.update_self] at hother
      rw [← Option.some.inj hother]
      omega
    · rw [Function.update_of_ne hname] at hother
      have := h.bounds other ref hother
      omega
  distinct other next ref hother hnext := by
    have hfresh : ∀ found, s.names found ≠ some s.heap.length := by
      intro found hfound
      exact absurd (h.bounds found _ hfound) (Nat.lt_irrefl _)
    simp only [State.bind] at hother hnext
    by_cases hname : other = name <;> by_cases hsame : next = name
    · rw [hname, hsame]
    · rw [hname, Function.update_self] at hother
      rw [Function.update_of_ne hsame, ← hother] at hnext
      exact absurd hnext (hfresh next)
    · rw [hsame, Function.update_self] at hnext
      rw [Function.update_of_ne hname, ← hnext] at hother
      exact absurd hother (hfresh other)
    · rw [Function.update_of_ne hname] at hother
      rw [Function.update_of_ne hsame] at hnext
      exact h.distinct other next ref hother hnext
  frames task := by
    refine Eq.trans ?_ (h.frames task)
    apply List.map_congr_left
    intro value hvalue
    exact h.read_eq (fun ref hbound _ => dict_append hbound values) hvalue
  own task ref href := by
    obtain ⟨hbound, hown⟩ := h.own task ref href
    simp only [State.bind, List.length_append, List.length_singleton]
    refine ⟨by omega, ?_⟩
    intro other
    by_cases hname : other = name
    · rw [hname, Function.update_self]
      intro heq
      have := Option.some.inj heq
      omega
    · rw [Function.update_of_ne hname]
      exact hown other

theorem setTask (h : Agrees s scopes) (task : Nat) {next : TaskContext} {stack : List (Dict V)}
    (hstack : next.values.map s.read = stack)
    (hown : ∀ ref, some ref ∈ next.values →
      ref < s.heap.length ∧ ∀ name, s.names name ≠ some ref) :
    Agrees (s.setTask task next) (scopes.setStack task stack) where
  names := h.names
  bounds := h.bounds
  distinct := h.distinct
  frames other := by
    by_cases htask : other = task
    · subst htask
      simp only [State.setTask, Scopes.setStack, Function.update_self]
      exact hstack
    · simp only [State.setTask, Scopes.setStack, Function.update_of_ne htask]
      exact h.frames other
  own other ref href := by
    by_cases htask : other = task
    · subst htask
      simp only [State.setTask, Function.update_self] at href
      exact hown ref href
    · simp only [State.setTask, Function.update_of_ne htask] at href
      exact h.own other ref href

theorem alloc (h : Agrees s scopes) (values : Dict V) :
    Agrees { s with heap := s.heap ++ [values] } scopes where
  names name := by
    rw [← h.names name]
    cases hname : s.names name with
    | none => rfl
    | some ref =>
      simp only [Option.map_some]
      exact congrArg some (dict_append (h.bounds name ref hname) values)
  bounds name ref hname := by
    have := h.bounds name ref hname
    simp only [List.length_append, List.length_singleton]
    omega
  distinct := h.distinct
  frames task := by
    refine Eq.trans ?_ (h.frames task)
    apply List.map_congr_left
    intro value hvalue
    exact h.read_eq (fun ref hbound _ => dict_append hbound values) hvalue
  own task ref href := by
    obtain ⟨hbound, hown⟩ := h.own task ref href
    simp only [List.length_append, List.length_singleton]
    exact ⟨by omega, hown⟩

theorem enter (h : Agrees s scopes) (task : Nat) (values : Dict V) :
    Agrees (s.enter task values) (scopes.setStack task (values :: scopes.frames task)) := by
  have halloc := h.alloc values
  apply halloc.setTask
  · simp only [TaskContext.values, List.map_cons]
    congr 1
    · exact dict_last s values
    · exact halloc.frames task
  · intro ref href
    rcases List.mem_cons.mp href with hlast | hrest
    · rw [Option.some.inj hlast]
      refine ⟨by simp, ?_⟩
      intro name hname
      exact absurd (h.bounds name _ hname) (Nat.lt_irrefl _)
    · exact halloc.own task ref hrest

theorem assign (h : Agrees s scopes) {name : String} {ref : Nat} (hname : s.names name = some ref)
    (values : Dict V) :
    Agrees { s with heap := s.heap.set ref values } (scopes.bind name values) where
  names other := by
    by_cases hother : other = name
    · subst hother
      have hbound := h.bounds other ref hname
      simp [hname, Scopes.bind, State.dict, hbound]
    · simp only [Scopes.bind, Function.update_of_ne hother]
      rw [← h.names other]
      cases hfound : s.names other with
      | none => rfl
      | some found =>
        have hne : ref ≠ found := fun heq => hother (h.distinct other name ref (heq ▸ hfound) hname)
        simp [State.dict, List.getElem?_set_ne hne]
  bounds other found hfound := by
    simpa using h.bounds other found hfound
  distinct := h.distinct
  frames task := by
    refine Eq.trans ?_ (h.frames task)
    apply List.map_congr_left
    intro value hvalue
    refine h.read_eq ?_ hvalue
    intro found _ hown
    have hne : ref ≠ found := fun heq => hown name (heq ▸ hname)
    simp [State.dict, List.getElem?_set_ne hne]
  own task found hfound := by
    simpa using h.own task found hfound

end Agrees

end DddFramework.Application
