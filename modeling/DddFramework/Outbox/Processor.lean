import DddFramework.Library.Machine
import DddFramework.Outbox.Message

/-! Any number of `OutboxProcessor.process` runs over one table. A run locks its batch row
by row, publishes it, and writes it back and commits; its locks last as long as its
transaction. Where an exception leaves a task of a parallel batch, `gather` raises it at
once, and the other tasks go on even after the transaction has been rolled back. -/
namespace DddFramework.Outbox
open Library

structure OutboxConfig where
  batchSize : Nat := 100
  maxAttempts : Nat := 5
  concurrencyEnable : Bool := false
  maxConcurrency : Nat := 10
  batchSize_range : 0 < batchSize ∧ batchSize ≤ 500 := by decide
  maxAttempts_range : 0 < maxAttempts ∧ maxAttempts ≤ 10 := by decide
  maxConcurrency_range : 0 < maxConcurrency ∧ maxConcurrency ≤ 500 := by decide

/-- How far one message is; `escaped` where an exception has left its task. -/
inductive Stage where
  | waiting
  | publishing
  | done
  | escaped
deriving DecidableEq

structure Task (J : Type) where
  message : OutboxMessage J
  stage : Stage

/-- How far a run is. It is `failing` while an exception is on its way out of `process`,
`orphaned` when it is rolled back and may have left tasks behind, and `stopped` when
nothing of it goes on. -/
inductive Phase where
  | unstarted
  | acquiring
  | publishing
  | failing
  | orphaned
  | saved
  | committed
  | stopped
deriving DecidableEq

/-- One call of `process`: `startedAt` is what `now()` is in its transaction. -/
structure Run (J : Type) where
  phase : Phase
  startedAt : Int
  tasks : List (Task J)

structure State (J : Type) where
  table : Table J
  locks : Nat → Option Nat
  runs : Nat → Run J

/-- What the publisher does: return, raise what `except Exception` catches, or raise
something else, such as a cancellation. -/
inductive Outcome where
  | published
  | raised (error : String)
  | interrupted

inductive Event (J : Type) where
  | insert (row : OutboxMessage J)
  | begin (run : Nat) (now : Int)
  | lock (run id : Nat)
  | acquired (run : Nat)
  | start (run id : Nat) (now : Int)
  | finish (run id : Nat) (outcome : Outcome) (now : Int)
  | saveAll (run : Nat)
  | commit (run : Nat)
  | rollback (run : Nat)
  | crash (run : Nat)

/-- What happens to a row's message: a run has it in its batch, calls the publisher with its
event, or has the call return. -/
inductive Effect (E : Type) where
  | acquired (run id : Nat)
  | publish (run id : Nat) (event : E)
  | published (run id : Nat)
deriving DecidableEq

def Effect.id {E : Type} : Effect E → Nat
  | .acquired _ id => id
  | .publish _ id _ => id
  | .published _ id => id

variable {J E : Type}

def Outcome.effects (outcome : Outcome) (run id : Nat) : List (Effect E) :=
  match outcome with
  | .published => [.published run id]
  | _ => []

namespace Run

def init : Run J := ⟨.unstarted, 0, []⟩

def Live (run : Run J) : Prop :=
  run.phase = .acquiring ∨ run.phase = .publishing ∨ run.phase = .failing ∨ run.phase = .saved

instance (run : Run J) : Decidable run.Live := inferInstanceAs (Decidable (_ ∨ _ ∨ _ ∨ _))

def batch (run : Run J) : List (OutboxMessage J) := run.tasks.map Task.message

def task? (run : Run J) (id : Nat) : Option (Task J) :=
  run.tasks.find? fun task => task.message.id = id

def inFlight (run : Run J) : Nat := run.tasks.countP fun task => task.stage = .publishing

/-- The batch with one of its tasks moved on. An exception that leaves the task goes through
`process` unless it is already on its way out. -/
def setTask (run : Run J) (id : Nat) (task : Task J) : Run J :=
  { run with
    phase := if task.stage = .escaped ∧ run.phase = .publishing then .failing else run.phase
    tasks := run.tasks.map fun other => if other.message.id = id then task else other }

end Run

namespace State

def init : State J := ⟨fun _ => none, fun _ => none, fun _ => .init⟩

def setRun (s : State J) (run : Nat) (r : Run J) : State J :=
  { s with runs := Function.update s.runs run r }

def insert (s : State J) (row : OutboxMessage J) : State J :=
  { s with table := Function.update s.table row.id (some row) }

def save (s : State J) (messages : List (OutboxMessage J)) : State J :=
  { s with table := s.table.saveAll messages }

def lock (s : State J) (run id : Nat) : State J :=
  { s with locks := Function.update s.locks id (some run) }

def release (s : State J) (run : Nat) : State J :=
  { s with locks := fun id => if s.locks id = some run then none else s.locks id }

end State

section process
variable (config : OutboxConfig) (retryPolicy : RetryPolicy)
  (deserializeEvent : String → J → Except String E)

namespace Task

/-- The `except` branch of `_publish_one`; an exception of the retry policy leaves it. -/
def fail (task : Task J) (error : String) (now : Int) : Task J :=
  match retryPolicy (task.message.attempts + 1) with
  | some retryAfter => ⟨task.message.markFailed error retryAfter config.maxAttempts now, .done⟩
  | none => ⟨task.message, .escaped⟩

def start (task : Task J) (now : Int) : Task J × Option E :=
  match deserializeEvent task.message.type task.message.payload with
  | .ok event => (⟨task.message, .publishing⟩, some event)
  | .error error => (task.fail config retryPolicy error now, none)

def finish (task : Task J) (outcome : Outcome) (now : Int) : Task J :=
  match outcome with
  | .published => ⟨task.message.markProcessed now, .done⟩
  | .raised error => task.fail config retryPolicy error now
  | .interrupted => ⟨task.message, .escaped⟩

end Task

/-- Tasks of a parallel batch go on whatever becomes of its run, short of a crash. -/
def Run.GoesOn (run : Run J) : Prop :=
  run.phase = .publishing ∨
    config.concurrencyEnable = true ∧ (run.phase = .failing ∨ run.phase = .orphaned)

/-- A task may start when the semaphore lets it, or, one by one, when it is its turn. -/
def Run.MayStart (run : Run J) (id : Nat) (task : Task J) : Prop :=
  run.GoesOn config ∧ task.stage = .waiting ∧
    (config.concurrencyEnable = true ∧ run.inFlight < config.maxConcurrency ∨
      config.concurrencyEnable = false ∧
        (run.tasks.find? fun other => other.stage ≠ .done).map (·.message.id) = some id)

instance (run : Run J) : Decidable (run.GoesOn config) :=
  inferInstanceAs (Decidable (_ ∨ _ ∧ (_ ∨ _)))

instance (run : Run J) (id : Nat) (task : Task J) : Decidable (run.MayStart config id task) :=
  inferInstanceAs (Decidable (_ ∧ _ ∧ (_ ∧ _ ∨ _ ∧ _)))

/-- One row of the `SELECT ... FOR UPDATE SKIP LOCKED` of a run. -/
def lockRow (s : State J) (run id : Nat) : State J × List (Effect E) :=
  let r := s.runs run
  match s.table id with
  | none => (s, [])
  | some row =>
    if r.phase = .acquiring ∧ r.tasks.length < config.batchSize ∧ s.locks id = none ∧
        row.Deliverable r.startedAt then
      ((s.lock run id).setRun run { r with tasks := r.tasks ++ [⟨row, .waiting⟩] },
        [.acquired run id])
    else (s, [])

def startTask (s : State J) (run id : Nat) (now : Int) : State J × List (Effect E) :=
  let r := s.runs run
  match r.task? id with
  | none => (s, [])
  | some task =>
    if r.MayStart config id task then
      let (next, event) := task.start config retryPolicy deserializeEvent now
      (s.setRun run (r.setTask id next), (event.map (.publish run id)).toList)
    else (s, [])

def finishTask (s : State J) (run id : Nat) (outcome : Outcome) (now : Int) :
    State J × List (Effect E) :=
  let r := s.runs run
  match r.task? id with
  | none => (s, [])
  | some task =>
    if r.GoesOn config ∧ task.stage = .publishing then
      (s.setRun run (r.setTask id (task.finish config retryPolicy outcome now)),
        outcome.effects run id)
    else (s, [])

/-- What an event does where it can happen; elsewhere it does nothing. -/
def step (s : State J) (event : Event J) : State J × List (Effect E) :=
  match event with
  | .insert row =>
    if s.table row.id = none then (s.insert row, []) else (s, [])
  | .begin run now =>
    if (s.runs run).phase = .unstarted then (s.setRun run ⟨.acquiring, now, []⟩, []) else (s, [])
  | .lock run id => lockRow config s run id
  | .acquired run =>
    if (s.runs run).phase = .acquiring then
      if (s.runs run).tasks.isEmpty then
        ((s.release run).setRun run { s.runs run with phase := .committed }, [])
      else (s.setRun run { s.runs run with phase := .publishing }, [])
    else (s, [])
  | .start run id now => startTask config retryPolicy deserializeEvent s run id now
  | .finish run id outcome now => finishTask config retryPolicy s run id outcome now
  | .saveAll run =>
    if (s.runs run).phase = .publishing ∧ (s.runs run).tasks.all fun task => task.stage = .done
    then (s.setRun run { s.runs run with phase := .saved }, [])
    else (s, [])
  | .commit run =>
    if (s.runs run).phase = .saved then
      (((s.release run).save (s.runs run).batch).setRun run
        { s.runs run with phase := .committed }, [])
    else (s, [])
  | .rollback run =>
    if (s.runs run).phase = .failing then
      ((s.release run).setRun run { s.runs run with phase := .orphaned }, [])
    else (s, [])
  | .crash run =>
    if (s.runs run).Live ∨ (s.runs run).phase = .orphaned then
      ((s.release run).setRun run { s.runs run with phase := .stopped }, [])
    else (s, [])

def machine : Machine (State J) (Event J) (Effect E) where
  init := .init
  step := step config retryPolicy deserializeEvent

inductive Acts (s : State J) : Event J → State J → List (Effect E) → Prop
  | idle (event : Event J) : Acts s event s []
  | inserted {row : OutboxMessage J} (hfresh : s.table row.id = none) :
      Acts s (.insert row) (s.insert row) []
  | begun {run : Nat} {now : Int} (hphase : (s.runs run).phase = .unstarted) :
      Acts s (.begin run now) (s.setRun run ⟨.acquiring, now, []⟩) []
  | locked {run id : Nat} {row : OutboxMessage J} (hphase : (s.runs run).phase = .acquiring)
      (hlimit : (s.runs run).tasks.length < config.batchSize) (hfree : s.locks id = none)
      (hrow : s.table id = some row) (hdeliverable : row.Deliverable (s.runs run).startedAt) :
      Acts s (.lock run id)
        ((s.lock run id).setRun run
          { s.runs run with tasks := (s.runs run).tasks ++ [⟨row, .waiting⟩] })
        [.acquired run id]
  | foundNone {run : Nat} (hphase : (s.runs run).phase = .acquiring)
      (htasks : (s.runs run).tasks = []) :
      Acts s (.acquired run)
        ((s.release run).setRun run { s.runs run with phase := .committed }) []
  | foundSome {run : Nat} (hphase : (s.runs run).phase = .acquiring) :
      Acts s (.acquired run) (s.setRun run { s.runs run with phase := .publishing }) []
  | started {run id : Nat} {now : Int} {task : Task J}
      (htask : (s.runs run).task? id = some task)
      (hstart : (s.runs run).MayStart config id task) :
      Acts s (.start run id now)
        (s.setRun run ((s.runs run).setTask id
          (task.start config retryPolicy deserializeEvent now).1))
        ((task.start config retryPolicy deserializeEvent now).2.map (.publish run id)).toList
  | finished {run id : Nat} {outcome : Outcome} {now : Int} {task : Task J}
      (htask : (s.runs run).task? id = some task) (hgoes : (s.runs run).GoesOn config)
      (hstage : task.stage = .publishing) :
      Acts s (.finish run id outcome now)
        (s.setRun run ((s.runs run).setTask id (task.finish config retryPolicy outcome now)))
        (outcome.effects run id)
  | saved {run : Nat} (hphase : (s.runs run).phase = .publishing)
      (hdone : ∀ task ∈ (s.runs run).tasks, task.stage = .done) :
      Acts s (.saveAll run) (s.setRun run { s.runs run with phase := .saved }) []
  | committed {run : Nat} (hphase : (s.runs run).phase = .saved) :
      Acts s (.commit run)
        (((s.release run).save (s.runs run).batch).setRun run
          { s.runs run with phase := .committed }) []
  | rolledBack {run : Nat} (hphase : (s.runs run).phase = .failing) :
      Acts s (.rollback run)
        ((s.release run).setRun run { s.runs run with phase := .orphaned }) []
  | crashed {run : Nat} (hphase : (s.runs run).Live ∨ (s.runs run).phase = .orphaned) :
      Acts s (.crash run)
        ((s.release run).setRun run { s.runs run with phase := .stopped }) []

theorem step_acts (s : State J) (event : Event J) :
    Acts config retryPolicy deserializeEvent s event
      (step config retryPolicy deserializeEvent s event).1
      (step config retryPolicy deserializeEvent s event).2 := by
  cases event with
  | insert row =>
    simp only [step]
    split
    case isTrue h => exact .inserted h
    case isFalse => exact .idle _
  | begin run now =>
    simp only [step]
    split
    case isTrue h => exact .begun h
    case isFalse => exact .idle _
  | lock run id =>
    simp only [step, lockRow]
    split
    case h_1 => exact .idle _
    case h_2 row hrow =>
      split
      case isTrue h => exact .locked h.1 h.2.1 h.2.2.1 hrow h.2.2.2
      case isFalse => exact .idle _
  | acquired run =>
    simp only [step]
    split
    case isTrue h =>
      split
      case isTrue htasks => exact .foundNone h (List.isEmpty_iff.mp htasks)
      case isFalse => exact .foundSome h
    case isFalse => exact .idle _
  | start run id now =>
    simp only [step, startTask]
    split
    case h_1 => exact .idle _
    case h_2 task htask =>
      split
      case isTrue h => exact .started htask h
      case isFalse => exact .idle _
  | finish run id outcome now =>
    simp only [step, finishTask]
    split
    case h_1 => exact .idle _
    case h_2 task htask =>
      split
      case isTrue h => exact .finished htask h.1 h.2
      case isFalse => exact .idle _
  | saveAll run =>
    simp only [step]
    split
    case isTrue h => exact .saved h.1 (by simpa using h.2)
    case isFalse => exact .idle _
  | commit run =>
    simp only [step]
    split
    case isTrue h => exact .committed h
    case isFalse => exact .idle _
  | rollback run =>
    simp only [step]
    split
    case isTrue h => exact .rolledBack h
    case isFalse => exact .idle _
  | crash run =>
    simp only [step]
    split
    case isTrue h => exact .crashed h
    case isFalse => exact .idle _

end process
end DddFramework.Outbox
