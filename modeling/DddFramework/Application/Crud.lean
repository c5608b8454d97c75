import DddFramework.Events.Dispatcher
import DddFramework.Library.Coroutines

/-! `Crud`, whose handlers and wrappers are coroutines of the application. A wrapper is handed
the base operation and calls it as it likes, one call after another; a base operation handles,
writes and dispatches. What a request awaits, and when it answers, does not depend on them. -/
namespace DddFramework.Application
open Library Task

inductive Raised where
  | operationNotAllowed (message : String)
  | notFound (message : String)
  | exception (name : String)
  | cancelled
deriving DecidableEq

def Raised.isException : Raised → Bool
  | .cancelled => false
  | _ => true

inductive CrudCall (Uid Entity E Own : Type) where
  | read (uid : Uid)
  | create (entity : Entity)
  | update (entity : Entity)
  | delete (uid : Uid)
  | recordAll (collected : List (E × Entity))
  | commit
  | rollback
  | publish (events : List E)
  | own (call : Own)
deriving DecidableEq

/-- A wrapper's calls: its own, and those of the base operation that it is handed. -/
inductive WrapperCall (Own Args : Type) where
  | own (call : Own)
  | base (args : Args)

def WrapperCall.Answer {Own Args : Type} (Result : Own → Type) (Entity : Type) :
    WrapperCall Own Args → Type
  | .own call => Result call
  | .base _ => Entity

section crud
variable (Uid Entity E Own : Type) (Result : Own → Type)
  (CreateT UpdateT Options Response : Type)

abbrev CrudLog := Log (CrudCall Uid Entity E Own) Raised

abbrev CrudTask (α : Type) := Task (CrudCall Uid Entity E Own) Raised α

abbrev Handler := Coroutine Own Result Raised Entity

/-- A wrapper from its arguments on, whose base operation takes `Args`. -/
abbrev Wrapper (Args : Type) :=
  Coroutine (WrapperCall Own Args) (WrapperCall.Answer Result Entity) Raised Entity

/-- What the calls answer, what waits in an entity's queue of events, and `str` of an id. The
answers may depend on all that was awaited before. -/
structure World where
  read : CrudLog Uid Entity E Own → Uid → Except Raised (Option Entity)
  create : CrudLog Uid Entity E Own → Entity → Except Raised Unit
  update : CrudLog Uid Entity E Own → Entity → Except Raised Unit
  recordAll : CrudLog Uid Entity E Own → List (E × Entity) → Except Raised Unit
  commit : CrudLog Uid Entity E Own → Except Raised Unit
  rollback : CrudLog Uid Entity E Own → Except Raised Unit
  publish : CrudLog Uid Entity E Own → List E → Except Raised Unit
  own : CrudLog Uid Entity E Own → (call : Own) → Except Raised (Result call)
  queued : CrudLog Uid Entity E Own → Entity → List E
  str : Uid → String

structure Crud where
  toResponse : Entity → Except Raised Response
  createHandler : Option (CreateT → Options → Handler Entity Own Result) := none
  updateHandler : Option (Entity → UpdateT → Options → Handler Entity Own Result) := none
  deleteHandler : Option (Entity → Options → Handler Entity Own Result) := none
  createWrapper : Option (CreateT → Options →
    Wrapper Entity Own Result (CreateT × Options)) := none
  readWrapper : Option (Entity → Options → Wrapper Entity Own Result (Entity × Options)) := none
  updateWrapper : Option (Entity → UpdateT → Options →
    Wrapper Entity Own Result (Entity × UpdateT × Options)) := none
  deleteWrapper : Option (Entity → Options → Wrapper Entity Own Result (Entity × Options)) := none
  eventStore : Bool := false

inductive CrudRequest where
  | create (dto : CreateT) (options : Options)
  | read (uid : Uid) (options : Options)
  | update (uid : Uid) (dto : UpdateT) (options : Options)
  | delete (uid : Uid) (options : Options)

end crud

section tasks
variable {Uid Entity E Own : Type} {Result : Own → Type}
  {CreateT UpdateT Options Response : Type}
  (world : World Uid Entity E Own Result)
  (crud : Crud Entity Own Result CreateT UpdateT Options Response)

def ownCall (call : Own) : CrudTask Uid Entity E Own (Result call) :=
  await (.own call) (world.own · call)

def wrapperCall {Args : Type} (base : Args → CrudTask Uid Entity E Own Entity) :
    (call : WrapperCall Own Args) →
      CrudTask Uid Entity E Own (call.Answer Result Entity)
  | .own call => ownCall world call
  | .base args => base args

def collectEvents (entity : Entity) : CrudTask Uid Entity E Own (List (E × Entity)) :=
  fun log => (.ok ((world.queued log entity).map (·, entity)), log)

/-- The body of the `try` statement of `EventDispatcher.__call__`. -/
def recordAndCommit (eventStore : Bool) (collected : List (E × Entity)) :
    CrudTask Uid Entity E Own Unit := do
  if eventStore && !collected.isEmpty then
    await (.recordAll collected) (world.recordAll · collected)
  await .commit world.commit

/-- Its `except` clause. -/
def rollbackAndRaise (raised : Raised) : CrudTask Uid Entity E Own Unit := do
  await .rollback world.rollback
  raise raised

def dispatchCollected (eventStore : Bool) (collected : List (E × Entity)) :
    CrudTask Uid Entity E Own Unit := do
  catching Raised.isException (recordAndCommit world eventStore collected) (rollbackAndRaise world)
  if !collected.isEmpty then
    await (.publish (collected.map Prod.fst)) (world.publish · (collected.map Prod.fst))

def dispatcher (eventStore : Bool) (entity : Entity) : CrudTask Uid Entity E Own Unit := do
  let collected ← collectEvents world entity
  dispatchCollected world eventStore collected

def getOrRaiseNotFound (uid : Uid) : CrudTask Uid Entity E Own Entity := do
  match ← await (.read uid) (world.read · uid) with
  | some entity => return entity
  | none => raise (.notFound ("type with ID " ++ world.str uid ++ " not found."))

/-- What a base operation does with the entity that its handler returns. -/
def baseWrite (handled : Handler Entity Own Result)
    (write : Entity → CrudTask Uid Entity E Own Unit) : CrudTask Uid Entity E Own Entity := do
  let entity ← handled.interpret (ownCall world)
  write entity
  dispatcher world crud.eventStore entity
  return entity

def repositoryCreate (entity : Entity) : CrudTask Uid Entity E Own Unit :=
  await (.create entity) (world.create · entity)

def repositoryUpdate (entity : Entity) : CrudTask Uid Entity E Own Unit :=
  await (.update entity) (world.update · entity)

def wrapped {Args : Type} (wrapper : Option (Wrapper Entity Own Result Args))
    (base : Args → CrudTask Uid Entity E Own Entity) (args : Args) :
    CrudTask Uid Entity E Own Entity :=
  match wrapper with
  | some wrapper => wrapper.interpret (wrapperCall world base)
  | none => base args

def respond (entity : Entity) : CrudTask Uid Entity E Own (Option Response) :=
  match crud.toResponse entity with
  | .ok response => return some response
  | .error raised => raise raised

namespace Crud

def create (dto : CreateT) (options : Options) :
    CrudTask Uid Entity E Own (Option Response) :=
  match crud.createHandler with
  | none => raise (.operationNotAllowed "Create operation is not supported.")
  | some createHandler => do
    let baseCreate := fun args : CreateT × Options =>
      baseWrite world crud (createHandler args.1 args.2) (repositoryCreate world)
    let created ← wrapped world (crud.createWrapper.map (· dto options)) baseCreate (dto, options)
    respond crud created

def read (uid : Uid) (options : Options) : CrudTask Uid Entity E Own (Option Response) := do
  let entity ← getOrRaiseNotFound world uid
  let baseRead := fun args : Entity × Options => return args.1
  let read ← wrapped world (crud.readWrapper.map (· entity options)) baseRead (entity, options)
  respond crud read

def update (uid : Uid) (dto : UpdateT) (options : Options) :
    CrudTask Uid Entity E Own (Option Response) :=
  match crud.updateHandler with
  | none => raise (.operationNotAllowed "Update operation is not supported.")
  | some updateHandler => do
    let entity ← getOrRaiseNotFound world uid
    let baseUpdate := fun args : Entity × UpdateT × Options =>
      baseWrite world crud (updateHandler args.1 args.2.1 args.2.2) (repositoryUpdate world)
    let updated ← wrapped world (crud.updateWrapper.map (· entity dto options)) baseUpdate
      (entity, dto, options)
    respond crud updated

def delete (uid : Uid) (options : Options) : CrudTask Uid Entity E Own (Option Response) :=
  match crud.deleteHandler with
  | none => raise (.operationNotAllowed "Delete operation is not supported.")
  | some deleteHandler => do
    let entity ← getOrRaiseNotFound world uid
    let baseDelete := fun args : Entity × Options =>
      baseWrite world crud (deleteHandler args.1 args.2) (repositoryUpdate world)
    let _ ← wrapped world (crud.deleteWrapper.map (· entity options)) baseDelete (entity, options)
    return none

def perform : CrudRequest Uid CreateT UpdateT Options →
    CrudTask Uid Entity E Own (Option Response)
  | .create dto options => crud.create world dto options
  | .read uid options => crud.read world uid options
  | .update uid dto options => crud.update world uid dto options
  | .delete uid options => crud.delete world uid options

end Crud
end tasks

section rules
variable {Uid Entity E Own : Type} {Result : Own → Type}
  {CreateT UpdateT Options Response : Type}

def CrudRequest.uid : CrudRequest Uid CreateT UpdateT Options → Option Uid
  | .create .. => none
  | .read uid _ => some uid
  | .update uid .. => some uid
  | .delete uid _ => some uid

def CrudRequest.Writes (request : CrudRequest Uid CreateT UpdateT Options) (entity : Entity)
    (call : CrudCall Uid Entity E Own) : Prop :=
  match request with
  | .create .. => call = .create entity
  | .read .. => False
  | .update .. => call = .update entity
  | .delete .. => call = .update entity

variable (world : World Uid Entity E Own Result) (eventStore : Bool)
  (request : CrudRequest Uid CreateT UpdateT Options)

def Written (log : CrudLog Uid Entity E Own) (entity : Entity) : Prop :=
  ∃ earlier write, request.Writes entity write ∧ log = earlier ++ [⟨write, none⟩]

def recording (collected : List (E × Entity)) : CrudLog Uid Entity E Own :=
  if eventStore && !collected.isEmpty then [⟨.recordAll collected, none⟩] else []

def Recorded (log : CrudLog Uid Entity E Own) (entity : Entity) (events : List E) : Prop :=
  ∃ written, Written request written entity ∧ world.queued written entity = events ∧
    log = written ++ recording eventStore (events.map (·, entity))

/-- Where a request may await a call. -/
def Allowed (before : CrudLog Uid Entity E Own) (x : Await (CrudCall Uid Entity E Own) Raised) :
    Prop :=
  match x.call with
  | .read uid => before = [] ∧ request.uid = some uid
  | .create entity => request.Writes entity x.call
  | .update entity => request.Writes entity x.call
  | .delete _ => False
  | .recordAll collected => eventStore = true ∧ collected ≠ [] ∧ ∃ entity,
      Written request before entity ∧ collected = (world.queued before entity).map (·, entity)
  | .commit => ∃ entity events, Recorded world eventStore request before entity events
  | .rollback => ∃ earlier step raised, before = earlier ++ [⟨step, some raised⟩] ∧
      raised.isException = true ∧ (step = .commit ∨ ∃ collected, step = .recordAll collected)
  | .publish events => events ≠ [] ∧ ∃ entity earlier, before = earlier ++ [⟨.commit, none⟩] ∧
      Recorded world eventStore request earlier entity events
  | .own _ => True

end rules

section dispatcher
variable {Uid Entity E Own : Type} {Result : Own → Type}
  {CreateT UpdateT Options : Type} {world : World Uid Entity E Own Result} {eventStore : Bool}
  {request : CrudRequest Uid CreateT UpdateT Options} {written : CrudLog Uid Entity E Own}
  {entity : Entity} {collected : List (E × Entity)}

theorem ends_collectEvents (world : World Uid Entity E Own Result) (entity : Entity)
    (log : CrudLog Uid Entity E Own) :
    Ends (collectEvents world entity) log
      (.ok ((world.queued log entity).map (·, entity))) [] := by
  rw [Ends, List.append_nil]
  rfl

def CommitEnds (eventStore : Bool) (written : CrudLog Uid Entity E Own)
    (collected : List (E × Entity)) : Except Raised Unit → CrudLog Uid Entity E Own → Prop
  | .ok _, log => log = written ++ recording eventStore collected ++ [⟨.commit, none⟩]
  | .error raised, log => ∃ earlier step, log = earlier ++ [⟨step, some raised⟩] ∧
      (step = .commit ∨ ∃ collected, step = .recordAll collected)

theorem commit_obeys (world : World Uid Entity E Own Result) (eventStore : Bool)
    (h : Written request written entity)
    (hcollected : collected = (world.queued written entity).map (·, entity)) :
    Obeys (Allowed world eventStore request) (· = written ++ recording eventStore collected)
      (await .commit world.commit) (CommitEnds eventStore written collected) := by
  apply obeys_await
  · rintro log rfl
    refine ⟨entity, world.queued written entity, written, h, rfl, ?_⟩
    rw [hcollected]
  · rintro log rfl
    cases hanswer : world.commit (written ++ recording eventStore collected) with
    | ok _ => rfl
    | error raised => exact ⟨_, _, rfl, .inl rfl⟩

theorem recordAndCommit_obeys (world : World Uid Entity E Own Result) (eventStore : Bool)
    (h : Written request written entity)
    (hcollected : collected = (world.queued written entity).map (·, entity)) :
    Obeys (Allowed world eventStore request) (· = written)
      (recordAndCommit world eventStore collected) (CommitEnds eventStore written collected) := by
  have hcommit := commit_obeys world eventStore h hcollected
  rw [recordAndCommit]
  by_cases hrecords : (eventStore && !collected.isEmpty) = true
  · rw [if_pos hrecords]
    rw [recording, if_pos hrecords] at hcommit
    obtain ⟨hstore, hsome⟩ := Bool.and_eq_true_iff.mp hrecords
    apply obeys_await_bind
    · exact ⟨hstore, by simpa using hsome, entity, h, hcollected⟩
    · exact fun _ _ => hcommit
    · exact fun raised _ => ⟨_, _, rfl, .inr ⟨collected, rfl⟩⟩
  · rw [if_neg hrecords]
    rw [recording, if_neg hrecords, List.append_nil] at hcommit
    exact hcommit

def dispatching (eventStore : Bool) (entity : Entity) (events : List E) :
    CrudLog Uid Entity E Own :=
  recording eventStore (events.map (·, entity)) ++ ⟨.commit, none⟩ ::
    if events.isEmpty then [] else [⟨.publish events, none⟩]

theorem rollbackAndRaise_obeys {raised : Raised} (hcaught : raised.isException = true) :
    Obeys (Allowed world eventStore request)
      (CommitEnds eventStore written collected (.error raised)) (rollbackAndRaise world raised)
      fun result _ => ∃ last, result = .error last := by
  apply obeys_of_log
  rintro log ⟨earlier, step, rfl, hstep⟩
  apply obeys_await_bind
  · exact ⟨earlier, step, raised, rfl, hcaught, hstep⟩
  · exact fun _ _ => obeys_raise fun _ _ => ⟨raised, rfl⟩
  · exact fun last _ => ⟨last, rfl⟩

theorem publish_obeys (h : Written request written entity) :
    Obeys (Allowed world eventStore request)
      (· = written ++ recording eventStore ((world.queued written entity).map (·, entity)) ++
        [⟨.commit, none⟩])
      (if !((world.queued written entity).map (·, entity)).isEmpty then
        await (.publish (((world.queued written entity).map (·, entity)).map Prod.fst))
          (world.publish · (((world.queued written entity).map (·, entity)).map Prod.fst))
        else pure ())
      fun result log => ∀ done, result = .ok done →
        log = written ++ dispatching eventStore entity (world.queued written entity) := by
  have hevents : ((world.queued written entity).map (·, entity)).map Prod.fst =
      world.queued written entity := by
    rw [List.map_map]
    exact List.map_id _
  rw [hevents, List.isEmpty_map, dispatching]
  cases hempty : (world.queued written entity).isEmpty with
  | true =>
    apply obeys_pure
    rintro log rfl _ _
    simp
  | false =>
    apply obeys_await
    · rintro log rfl
      refine ⟨by simpa using hempty, entity, _, rfl, written, h, rfl, rfl⟩
    · rintro log rfl done hdone
      rw [hdone]
      simp [raisedOf]

theorem dispatcher_obeys (world : World Uid Entity E Own Result) (eventStore : Bool)
    (h : Written request written entity) :
    Obeys (Allowed world eventStore request) (· = written) (dispatcher world eventStore entity)
      fun result log => ∀ done, result = .ok done →
        log = written ++ dispatching eventStore entity (world.queued written entity) := by
  have hcollect : Obeys (Allowed world eventStore request) (· = written)
      (collectEvents world entity) fun result log => log = written ∧
        result = .ok ((world.queued written entity).map (·, entity)) := by
    rintro log rfl
    exact ⟨_, [], ends_collectEvents world entity log, follows_nil _ _, List.append_nil _, rfl⟩
  rw [dispatcher]
  refine hcollect.bind (fun collected => ?_) (by simp)
  apply obeys_of_log
  rintro log ⟨rfl, hcollected⟩
  obtain rfl := Except.ok.inj hcollected
  rw [dispatchCollected]
  have hcommit := recordAndCommit_obeys world eventStore h rfl
  have hcatch : Obeys (Allowed world eventStore request) (· = log)
      (catching Raised.isException
        (recordAndCommit world eventStore ((world.queued log entity).map (·, entity)))
        (rollbackAndRaise world)) fun result after => ∀ done, result = .ok done →
          after = log ++ recording eventStore ((world.queued log entity).map (·, entity)) ++
            [⟨.commit, none⟩] := by
    refine hcommit.catching (fun raised hcaught => ?_) (fun _ _ hends _ _ => hends) ?_
    · refine (rollbackAndRaise_obeys hcaught).mono (fun _ hends => hends) ?_
      rintro result after ⟨last, rfl⟩ done hdone
      cases hdone
    · intro raised after _ _ done hdone
      cases hdone
  refine hcatch.bind (fun done => ?_) (by simp)
  exact (publish_obeys h).mono (fun after hafter => hafter done rfl) fun _ _ hlast => hlast

end dispatcher

section actions
variable {Uid E Own : Type} {Result : Own → Type}
  (world : World Uid Nat (Events.Registered E) Own Result) (eventStore : Bool)

def outcomeOf : Option Raised → Events.Outcome
  | none => .returned
  | some raised => if raised.isException then .raised else .interrupted

def actionOf (x : Await (CrudCall Uid Nat (Events.Registered E) Own) Raised) :
    Option (Events.Action E) :=
  match x.call with
  | .recordAll collected => some (.recordAll collected (outcomeOf x.raised))
  | .commit => some (.commit (outcomeOf x.raised))
  | .rollback => some (.rollback (outcomeOf x.raised))
  | .publish events => some (.publish events (outcomeOf x.raised))
  | _ => none

variable {world eventStore}

theorem attempt_outcomeOf {outcomes : Events.Outcomes} {raised : Raised}
    (next : List (Events.Action E)) :
    Events.attempt outcomes (outcomeOf (some raised)) next =
      if raised.isException then Events.rollback outcomes else [.finished .interrupted] := by
  rw [outcomeOf]
  split <;> rfl

theorem recordAndCommit_actions (log : CrudLog Uid Nat (Events.Registered E) Own)
    (collected : List (Events.Collected E)) :
    ∃ result awaits, Ends (recordAndCommit world eventStore collected) log result awaits ∧
      ∀ outcomes : Events.Outcomes,
        outcomes.recordAll = outcomeOf (raisedOf (world.recordAll log collected)) →
        outcomes.commit =
          outcomeOf (raisedOf (world.commit (log ++ recording eventStore collected))) →
        Events.dispatch outcomes eventStore collected = awaits.filterMap actionOf ++
          Events.attempt outcomes (outcomeOf (raisedOf result))
            (Events.publish outcomes collected) := by
  rw [recordAndCommit]
  by_cases hrecords : (eventStore && !collected.isEmpty) = true
  · rw [if_pos hrecords, recording, if_pos hrecords]
    cases hrecord : world.recordAll log collected with
    | error raised =>
      refine ⟨_, _, ends_await_bind_error hrecord, fun outcomes hrecordAll _ => ?_⟩
      rw [Events.dispatch, if_pos hrecords, hrecordAll]
      simp only [raisedOf, attempt_outcomeOf]
      rfl
    | ok done =>
      have hcommitted := ends_await .commit world.commit (log ++ [⟨.recordAll collected, none⟩])
      refine ⟨_, _, ends_await_bind hrecord hcommitted, fun outcomes hrecordAll hcommit => ?_⟩
      rw [Events.dispatch, if_pos hrecords, hrecordAll, Events.commit, hcommit]
      rfl
  · rw [if_neg hrecords, recording, if_neg hrecords, List.append_nil]
    refine ⟨_, _, ends_await .commit world.commit log, fun outcomes _ hcommit => ?_⟩
    rw [Events.dispatch, if_neg hrecords, Events.commit, hcommit]
    rfl

theorem ends_rollbackAndRaise (world : World Uid Nat (Events.Registered E) Own Result)
    {raised : Raised} (hcaught : raised.isException = true)
    (log : CrudLog Uid Nat (Events.Registered E) Own) :
    ∃ last, Ends (rollbackAndRaise world raised) log (.error last)
        [⟨.rollback, raisedOf (world.rollback log)⟩] ∧
      outcomeOf (some last) = if outcomeOf (raisedOf (world.rollback log)) = .returned then .raised
        else outcomeOf (raisedOf (world.rollback log)) := by
  rw [rollbackAndRaise]
  cases hanswer : world.rollback log with
  | ok done =>
    refine ⟨raised, ends_await_bind hanswer (ends_raise raised _), ?_⟩
    simp [outcomeOf, raisedOf, hcaught]
  | error last =>
    refine ⟨last, ends_await_bind_error hanswer, ?_⟩
    cases hlast : last.isException <;> simp [outcomeOf, raisedOf, hlast]

theorem dispatchCollected_actions (world : World Uid Nat (Events.Registered E) Own Result)
    (eventStore : Bool) (collected : List (Events.Collected E))
    (log : CrudLog Uid Nat (Events.Registered E) Own) :
    ∃ outcomes result awaits,
      Ends (dispatchCollected world eventStore collected) log result awaits ∧
      Events.dispatch outcomes eventStore collected =
        awaits.filterMap actionOf ++ [.finished (outcomeOf (raisedOf result))] := by
  obtain ⟨result, awaits, hends, hactions⟩ := recordAndCommit_actions log collected
  obtain ⟨outcomes, hrollback, hpublisher, hdispatch⟩ : ∃ outcomes : Events.Outcomes,
      outcomes.rollback = outcomeOf (raisedOf (world.rollback (log ++ awaits))) ∧
      outcomes.publisher =
        outcomeOf (raisedOf (world.publish (log ++ awaits) (collected.map Prod.fst))) ∧
      Events.dispatch outcomes eventStore collected = awaits.filterMap actionOf ++
        Events.attempt outcomes (outcomeOf (raisedOf result))
          (Events.publish outcomes collected) :=
    ⟨⟨_, _, _, _⟩, rfl, rfl, hactions _ rfl rfl⟩
  refine ⟨outcomes, ?_⟩
  rw [hdispatch, dispatchCollected]
  cases result with
  | ok done =>
    have hcatch : Ends (catching Raised.isException (recordAndCommit world eventStore collected)
      (rollbackAndRaise world)) log (.ok done) awaits := hends.catching_ok
    have hattempt : Events.attempt outcomes (outcomeOf (raisedOf (.ok done : Except Raised Unit)))
        (Events.publish outcomes collected) = Events.publish outcomes collected := rfl
    rw [hattempt, Events.publish]
    cases hempty : collected.isEmpty with
    | true =>
      refine ⟨_, _, hcatch.bind (ends_pure () _), ?_⟩
      rw [List.append_nil]
      rfl
    | false =>
      refine ⟨_, _, hcatch.bind (ends_await _ _ _), ?_⟩
      rw [List.filterMap_append, hpublisher, List.append_assoc]
      rfl
  | error raised =>
    simp only [raisedOf, attempt_outcomeOf]
    cases hcaught : raised.isException with
    | true =>
      rw [if_pos rfl, Events.rollback, hrollback]
      obtain ⟨last, hhandler, hlast⟩ := ends_rollbackAndRaise world hcaught (log ++ awaits)
      have hcatch := hends.catching_caught hcaught hhandler
      refine ⟨_, _, hcatch.bind_error, ?_⟩
      rw [List.filterMap_append, List.append_assoc, ← hlast]
      rfl
    | false =>
      have hcatch : Ends (catching Raised.isException (recordAndCommit world eventStore collected)
        (rollbackAndRaise world)) log (.error raised) awaits := hends.catching_passed hcaught
      refine ⟨_, _, hcatch.bind_error, ?_⟩
      simp [outcomeOf, hcaught]

/-- The dispatcher does what its model says, for the outcomes that its calls have. -/
theorem dispatcher_dispatches (world : World Uid Nat (Events.Registered E) Own Result)
    (eventStore : Bool) (entity : Nat) (log : CrudLog Uid Nat (Events.Registered E) Own) :
    ∃ outcomes result awaits, Ends (dispatcher world eventStore entity) log result awaits ∧
      Events.dispatch outcomes eventStore ((world.queued log entity).map (·, entity)) =
        awaits.filterMap actionOf ++ [.finished (outcomeOf (raisedOf result))] :=
  dispatchCollected_actions world eventStore _ log

end actions

section requests
variable {Uid Entity E Own : Type} {Result : Own → Type}
  {CreateT UpdateT Options Response : Type} {world : World Uid Entity E Own Result}
  {crud : Crud Entity Own Result CreateT UpdateT Options Response}
  {request : CrudRequest Uid CreateT UpdateT Options}

def OwnSince (start log : CrudLog Uid Entity E Own) : Prop :=
  ∃ owns, (∀ x ∈ owns, ∃ call, x.call = .own call) ∧ log = start ++ owns

/-- From a start on: own calls, the write of an entity, and the whole dispatch of its events. -/
def Completes (world : World Uid Entity E Own Result) (eventStore : Bool)
    (request : CrudRequest Uid CreateT UpdateT Options) (start : CrudLog Uid Entity E Own)
    (entity : Entity) (log : CrudLog Uid Entity E Own) : Prop :=
  ∃ handled write, OwnSince start handled ∧ request.Writes entity write ∧
    log = handled ++ ⟨write, none⟩ ::
      dispatching eventStore entity (world.queued (handled ++ [⟨write, none⟩]) entity)

theorem allowed_write {entity : Entity} {call : CrudCall Uid Entity E Own}
    (h : request.Writes entity call) (eventStore : Bool) (log : CrudLog Uid Entity E Own)
    (raised : Option Raised) : Allowed world eventStore request log ⟨call, raised⟩ := by
  cases request with
  | create dto options =>
    obtain rfl : call = .create entity := h
    rfl
  | read uid options => exact h.elim
  | update uid dto options =>
    obtain rfl : call = .update entity := h
    rfl
  | delete uid options =>
    obtain rfl : call = .update entity := h
    rfl

theorem ownCall_obeys (world : World Uid Entity E Own Result) (eventStore : Bool)
    (request : CrudRequest Uid CreateT UpdateT Options) (start : CrudLog Uid Entity E Own)
    (call : Own) :
    Obeys (Allowed world eventStore request) (OwnSince start) (ownCall world call)
      fun _ log => OwnSince start log := by
  apply obeys_await
  · exact fun _ _ => trivial
  · rintro log ⟨owns, howns, rfl⟩
    refine ⟨owns ++ [_], ?_, List.append_assoc ..⟩
    rw [List.forall_mem_append, List.forall_mem_singleton]
    exact ⟨howns, call, rfl⟩

theorem baseWrite_obeys (world : World Uid Entity E Own Result)
    (crud : Crud Entity Own Result CreateT UpdateT Options Response)
    (request : CrudRequest Uid CreateT UpdateT Options) (handled : Handler Entity Own Result)
    (write : Entity → CrudTask Uid Entity E Own Unit)
    (writeCall : Entity → CrudCall Uid Entity E Own)
    (answer : CrudLog Uid Entity E Own → Entity → Except Raised Unit)
    (hwrite : ∀ entity, write entity = await (writeCall entity) (answer · entity))
    (hwrites : ∀ entity, request.Writes entity (writeCall entity))
    (start : CrudLog Uid Entity E Own) :
    Obeys (Allowed world crud.eventStore request) (· = start) (baseWrite world crud handled write)
      fun result log => ∀ entity, result = .ok entity →
        Completes world crud.eventStore request start entity log := by
  have hhandled : Obeys (Allowed world crud.eventStore request) (· = start)
      (handled.interpret (ownCall world)) fun _ log => OwnSince start log :=
    (obeys_interpret (ownCall_obeys world crud.eventStore request start) handled).mono
      (fun log hlog => ⟨[], by simp, by simp [hlog]⟩) fun _ _ h => h
  rw [baseWrite]
  refine hhandled.bind (fun entity => ?_) (by simp)
  apply obeys_of_log
  intro log hown
  rw [hwrite]
  apply obeys_await_bind
  · exact allowed_write (hwrites entity) _ _ _
  · intro _ _
    refine (dispatcher_obeys world crud.eventStore ⟨log, _, hwrites entity, rfl⟩).bind
      (fun done => ?_) (by simp)
    apply obeys_pure
    intro last hlast written hwritten
    obtain rfl := Except.ok.inj hwritten
    refine ⟨log, _, hown, hwrites entity, ?_⟩
    rw [hlast done rfl, List.append_assoc]
    rfl
  · simp

theorem wrapped_obeys {Args : Type} (wrapper : Option (Wrapper Entity Own Result Args))
    {base : Args → CrudTask Uid Entity E Own Entity}
    {post : Args → CrudLog Uid Entity E Own → Except Raised Entity →
      CrudLog Uid Entity E Own → Prop}
    (hbase : ∀ args start, Obeys (Allowed world crud.eventStore request) (· = start) (base args)
      (post args start)) (args : Args) (start : CrudLog Uid Entity E Own) :
    Obeys (Allowed world crud.eventStore request) (· = start) (wrapped world wrapper base args)
      fun result log => wrapper.isNone = true → post args start result log := by
  cases wrapper with
  | none => exact (hbase args start).mono (fun _ h => h) fun _ _ h _ => h
  | some wrapper =>
    have hcall : ∀ call, Obeys (Allowed world crud.eventStore request) (fun _ => True)
        (wrapperCall world base call) fun _ _ => True := by
      intro call
      cases call with
      | own call => exact obeys_await (fun _ _ => trivial) fun _ _ => trivial
      | base args =>
        apply obeys_of_log
        exact fun log _ => (hbase args log).mono (fun _ h => h) fun _ _ _ => trivial
    exact (obeys_interpret hcall wrapper).mono (fun _ _ => trivial) fun _ _ _ => nofun

def CrudRequest.reading (request : CrudRequest Uid CreateT UpdateT Options) :
    CrudLog Uid Entity E Own :=
  request.uid.toList.map fun uid => ⟨.read uid, none⟩

def Crud.allows (crud : Crud Entity Own Result CreateT UpdateT Options Response) :
    CrudRequest Uid CreateT UpdateT Options → Bool
  | .create .. => crud.createHandler.isSome
  | .read .. => true
  | .update .. => crud.updateHandler.isSome
  | .delete .. => crud.deleteHandler.isSome

def Crud.wraps (crud : Crud Entity Own Result CreateT UpdateT Options Response) :
    CrudRequest Uid CreateT UpdateT Options → Bool
  | .create .. => crud.createWrapper.isSome
  | .read .. => crud.readWrapper.isSome
  | .update .. => crud.updateWrapper.isSome
  | .delete .. => crud.deleteWrapper.isSome

def Crud.Answers (crud : Crud Entity Own Result CreateT UpdateT Options Response)
    (entity : Entity) (response : Option Response) :
    CrudRequest Uid CreateT UpdateT Options → Prop
  | .delete .. => response = none
  | _ => ∃ answer, crud.toResponse entity = .ok answer ∧ response = some answer

def Answered (world : World Uid Entity E Own Result)
    (crud : Crud Entity Own Result CreateT UpdateT Options Response)
    (request : CrudRequest Uid CreateT UpdateT Options) (entity : Entity)
    (log : CrudLog Uid Entity E Own) : Prop :=
  match request with
  | .read uid _ => world.read [] uid = .ok (some entity) ∧ log = [⟨.read uid, none⟩]
  | _ => Completes world crud.eventStore request request.reading entity log

def Finishes (world : World Uid Entity E Own Result)
    (crud : Crud Entity Own Result CreateT UpdateT Options Response)
    (request : CrudRequest Uid CreateT UpdateT Options) (result : Except Raised (Option Response))
    (log : CrudLog Uid Entity E Own) : Prop :=
  crud.wraps request = false → ∀ response, result = .ok response →
    ∃ entity, crud.Answers entity response request ∧ Answered world crud request entity log

def Reads (world : World Uid Entity E Own Result)
    (crud : Crud Entity Own Result CreateT UpdateT Options Response)
    (request : CrudRequest Uid CreateT UpdateT Options) (log : CrudLog Uid Entity E Own) : Prop :=
  crud.allows request = true → ∀ uid, request.uid = some uid →
    [⟨.read uid, raisedOf (world.read [] uid)⟩] <+: log

/-- What a request keeps to, however its handlers and its wrapper are made. -/
structure Conducted (world : World Uid Entity E Own Result)
    (crud : Crud Entity Own Result CreateT UpdateT Options Response)
    (request : CrudRequest Uid CreateT UpdateT Options)
    (result : Except Raised (Option Response)) (log : CrudLog Uid Entity E Own) : Prop where
  follows : ∀ before x behind, log = before ++ x :: behind →
    Allowed world crud.eventStore request before x
  refused : crud.allows request = false → log = [] ∧
    ∃ message, result = .error (.operationNotAllowed message)
  reads : Reads world crud request log
  missing : crud.allows request = true → ∀ uid, request.uid = some uid →
    world.read [] uid = .ok none → log = [⟨.read uid, none⟩] ∧
      result = .error (.notFound ("type with ID " ++ world.str uid ++ " not found."))
  answered : Finishes world crud request result log

theorem respond_obeys (eventStore : Bool) (pre : CrudLog Uid Entity E Own → Prop)
    (entity : Entity) :
    Obeys (Allowed world eventStore request) pre (respond crud entity)
      fun result log => pre log ∧ ∀ response, result = .ok response →
        ∃ answer, crud.toResponse entity = .ok answer ∧ response = some answer := by
  rw [respond]
  cases hanswer : crud.toResponse entity with
  | ok answer =>
    apply obeys_pure
    intro log hlog
    refine ⟨hlog, fun response hresponse => ⟨answer, rfl, ?_⟩⟩
    exact (Except.ok.inj hresponse).symm
  | error raised => exact obeys_raise fun log hlog => ⟨hlog, nofun⟩

theorem wrapped_respond_obeys {Args : Type} (wrapper : Option (Wrapper Entity Own Result Args))
    {base : Args → CrudTask Uid Entity E Own Entity}
    {done : Args → CrudLog Uid Entity E Own → Entity → CrudLog Uid Entity E Own → Prop}
    (hbase : ∀ args start, Obeys (Allowed world crud.eventStore request) (· = start) (base args)
      fun result log => ∀ entity, result = .ok entity → done args start entity log)
    (args : Args) (start : CrudLog Uid Entity E Own) :
    Obeys (Allowed world crud.eventStore request) (· = start)
      (wrapped world wrapper base args >>= respond crud)
      fun result log => wrapper.isNone = true → ∀ response, result = .ok response →
        ∃ entity answer, crud.toResponse entity = .ok answer ∧ response = some answer ∧
          done args start entity log := by
  refine (wrapped_obeys wrapper hbase args start).bind (fun entity => ?_) ?_
  · refine (respond_obeys crud.eventStore _ entity).mono (fun _ h => h) ?_
    rintro result log ⟨hdone, hanswer⟩ hnone response hresponse
    obtain ⟨answer, hok, rfl⟩ := hanswer response hresponse
    exact ⟨entity, answer, hok, rfl, hdone hnone entity rfl⟩
  · intro raised log _ _ response hresponse
    cases hresponse

theorem getOrRaiseNotFound_obeys {α : Type} (eventStore : Bool) {uid : Uid}
    (huid : request.uid = some uid) {next : Entity → CrudTask Uid Entity E Own α}
    {post : Except Raised α → CrudLog Uid Entity E Own → Prop}
    (hnext : ∀ entity, world.read [] uid = .ok (some entity) →
      Obeys (Allowed world eventStore request) (· = [⟨.read uid, none⟩]) (next entity) post)
    (hraised : ∀ raised log, post (.error raised) log) :
    Obeys (Allowed world eventStore request) (· = [])
      (getOrRaiseNotFound world uid >>= next) fun result log => post result log ∧
        [⟨.read uid, raisedOf (world.read [] uid)⟩] <+: log := by
  have hread : Obeys (Allowed world eventStore request) (· = []) (getOrRaiseNotFound world uid)
      fun result log => log = [⟨.read uid, raisedOf (world.read [] uid)⟩] ∧
        ∀ entity, result = .ok entity → world.read [] uid = .ok (some entity) := by
    rw [getOrRaiseNotFound]
    apply obeys_await_bind
    · exact ⟨rfl, huid⟩
    · intro found hfound
      rw [hfound]
      cases found with
      | none =>
        apply obeys_raise
        rintro log rfl
        exact ⟨rfl, nofun⟩
      | some entity =>
        apply obeys_pure
        rintro log rfl
        refine ⟨rfl, fun other hother => ?_⟩
        rw [Except.ok.inj hother]
    · intro raised hanswer
      rw [hanswer]
      exact ⟨rfl, nofun⟩
  refine hread.bind (fun entity => ?_) fun raised log hlog =>
    ⟨hraised raised log, hlog.1 ▸ List.prefix_rfl⟩
  apply obeys_of_log
  rintro log ⟨rfl, hfound⟩
  rw [hfound entity rfl]
  exact (hnext entity (hfound entity rfl)).keeps

theorem getOrRaiseNotFound_missing {α : Type} {uid : Uid} (h : world.read [] uid = .ok none)
    (next : Entity → CrudTask Uid Entity E Own α) :
    (getOrRaiseNotFound world uid >>= next).outcome =
      (.error (.notFound ("type with ID " ++ world.str uid ++ " not found.")),
        [⟨.read uid, none⟩]) := by
  have hread : Ends (getOrRaiseNotFound world uid) []
      (.error (.notFound ("type with ID " ++ world.str uid ++ " not found.")))
      [⟨.read uid, none⟩] :=
    ends_await_bind h (ends_raise _ _)
  exact hread.bind_error.outcome

theorem finishes_error (raised : Raised) (log : CrudLog Uid Entity E Own) :
    Finishes world crud request (.error raised) log := by
  intro _ response hresponse
  cases hresponse

def Conforms (world : World Uid Entity E Own Result)
    (crud : Crud Entity Own Result CreateT UpdateT Options Response)
    (request : CrudRequest Uid CreateT UpdateT Options) : Prop :=
  Obeys (Allowed world crud.eventStore request) (· = []) (crud.perform world request)
    fun result log => Finishes world crud request result log ∧ Reads world crud request log

theorem conforms_of_next {uid : Uid} {next : Entity → CrudTask Uid Entity E Own (Option Response)}
    (huid : request.uid = some uid)
    (hperform : crud.perform world request = getOrRaiseNotFound world uid >>= next)
    (hnext : ∀ entity, world.read [] uid = .ok (some entity) →
      Obeys (Allowed world crud.eventStore request) (· = [⟨.read uid, none⟩]) (next entity)
        (Finishes world crud request)) :
    Conforms world crud request := by
  rw [Conforms, hperform]
  refine (getOrRaiseNotFound_obeys _ huid hnext finishes_error).mono (fun _ hlog => hlog) ?_
  rintro result log ⟨hfinishes, hreads⟩
  refine ⟨hfinishes, fun _ other hother => ?_⟩
  obtain rfl := Option.some.inj (huid.symm.trans hother)
  exact hreads

theorem reads_of_refused (h : crud.allows request = false) (log : CrudLog Uid Entity E Own) :
    Reads world crud request log := by
  intro hallows
  rw [h] at hallows
  contradiction

section operations
variable (world : World Uid Entity E Own Result)
  (crud : Crud Entity Own Result CreateT UpdateT Options Response)

theorem create_conforms (dto : CreateT) (options : Options) :
    Conforms world crud (.create dto options) := by
  rw [Conforms, Crud.perform, Crud.create]
  cases hhandler : crud.createHandler with
  | none =>
    have hrefused : crud.allows (.create dto options : CrudRequest Uid CreateT UpdateT Options) =
        false := by
      simp [Crud.allows, hhandler]
    exact obeys_raise fun log _ => ⟨finishes_error _ log, reads_of_refused hrefused log⟩
  | some createHandler =>
    have hbase := fun args : CreateT × Options => baseWrite_obeys world crud
      (.create dto options) (createHandler args.1 args.2) (repositoryCreate world) .create
      world.create (fun _ => rfl) fun _ => rfl
    refine (wrapped_respond_obeys (crud.createWrapper.map (· dto options)) hbase (dto, options)
      []).mono (fun _ h => h) ?_
    intro result log hdone
    refine ⟨fun hunwrapped response hresponse => ?_, fun _ _ => nofun⟩
    obtain ⟨entity, answer, hok, rfl, hcompletes⟩ :=
      hdone (by simpa [Crud.wraps] using hunwrapped) response hresponse
    exact ⟨entity, ⟨answer, hok, rfl⟩, hcompletes⟩

theorem read_conforms (uid : Uid) (options : Options) :
    Conforms world crud (.read uid options) := by
  apply conforms_of_next rfl rfl
  intro entity hfound
  have hbase (args : Entity × Options) (start : CrudLog Uid Entity E Own) :
      Obeys (Allowed world crud.eventStore
          (.read uid options : CrudRequest Uid CreateT UpdateT Options)) (· = start)
        (pure args.1 : CrudTask Uid Entity E Own Entity) fun result log =>
          ∀ read, result = .ok read → read = args.1 ∧ log = start := by
    apply obeys_pure
    rintro log rfl read hread
    exact ⟨(Except.ok.inj hread).symm, rfl⟩
  refine (wrapped_respond_obeys (crud.readWrapper.map (· entity options)) hbase
    (entity, options) _).mono (fun _ h => h) ?_
  intro result log hdone hunwrapped response hresponse
  obtain ⟨read, answer, hok, rfl, hread, hlog⟩ :=
    hdone (by simpa [Crud.wraps] using hunwrapped) response hresponse
  rw [hread] at hok
  exact ⟨entity, ⟨answer, hok, rfl⟩, hfound, hlog⟩

theorem update_conforms (uid : Uid) (dto : UpdateT) (options : Options) :
    Conforms world crud (.update uid dto options) := by
  cases hhandler : crud.updateHandler with
  | none =>
    have hrefused : crud.allows (.update uid dto options : CrudRequest Uid CreateT UpdateT Options)
        = false := by
      simp [Crud.allows, hhandler]
    rw [Conforms, Crud.perform, Crud.update, hhandler]
    exact obeys_raise fun log _ => ⟨finishes_error _ log, reads_of_refused hrefused log⟩
  | some updateHandler =>
    apply conforms_of_next rfl
    · rw [Crud.perform, Crud.update, hhandler]
    intro entity hfound
    have hbase := fun args : Entity × UpdateT × Options => baseWrite_obeys world crud
      (.update uid dto options) (updateHandler args.1 args.2.1 args.2.2)
      (repositoryUpdate world) .update world.update (fun _ => rfl) fun _ => rfl
    refine (wrapped_respond_obeys (crud.updateWrapper.map (· entity dto options)) hbase
      (entity, dto, options) _).mono (fun _ h => h) ?_
    intro result log hdone hunwrapped response hresponse
    obtain ⟨updated, answer, hok, rfl, hcompletes⟩ :=
      hdone (by simpa [Crud.wraps] using hunwrapped) response hresponse
    exact ⟨updated, ⟨answer, hok, rfl⟩, hcompletes⟩

theorem delete_conforms (uid : Uid) (options : Options) :
    Conforms world crud (.delete uid options) := by
  cases hhandler : crud.deleteHandler with
  | none =>
    have hrefused : crud.allows (.delete uid options : CrudRequest Uid CreateT UpdateT Options) =
        false := by
      simp [Crud.allows, hhandler]
    rw [Conforms, Crud.perform, Crud.delete, hhandler]
    exact obeys_raise fun log _ => ⟨finishes_error _ log, reads_of_refused hrefused log⟩
  | some deleteHandler =>
    apply conforms_of_next rfl
    · rw [Crud.perform, Crud.delete, hhandler]
    intro entity hfound
    have hbase := fun args : Entity × Options => baseWrite_obeys world crud
      (.delete uid options) (deleteHandler args.1 args.2) (repositoryUpdate world) .update
      world.update (fun _ => rfl) fun _ => rfl
    refine (wrapped_obeys (crud.deleteWrapper.map (· entity options)) hbase
      (entity, options) _).bind (fun deleted => ?_) fun raised log _ => finishes_error raised log
    apply obeys_pure
    intro log hdone hunwrapped response hresponse
    obtain rfl := Except.ok.inj hresponse
    exact ⟨deleted, rfl, hdone (by simpa [Crud.wraps] using hunwrapped) deleted rfl⟩

theorem conforms (request : CrudRequest Uid CreateT UpdateT Options) :
    Conforms world crud request := by
  cases request with
  | create dto options => exact create_conforms world crud dto options
  | read uid options => exact read_conforms world crud uid options
  | update uid dto options => exact update_conforms world crud uid dto options
  | delete uid options => exact delete_conforms world crud uid options

theorem perform_refused {request : CrudRequest Uid CreateT UpdateT Options}
    (h : crud.allows request = false) :
    ∃ message, (crud.perform world request).outcome =
      (.error (.operationNotAllowed message), []) := by
  cases request with
  | create dto options =>
    have hnone : crud.createHandler = none := by simpa [Crud.allows] using h
    rw [Crud.perform, Crud.create, hnone]
    exact ⟨_, rfl⟩
  | read uid options => simp [Crud.allows] at h
  | update uid dto options =>
    have hnone : crud.updateHandler = none := by simpa [Crud.allows] using h
    rw [Crud.perform, Crud.update, hnone]
    exact ⟨_, rfl⟩
  | delete uid options =>
    have hnone : crud.deleteHandler = none := by simpa [Crud.allows] using h
    rw [Crud.perform, Crud.delete, hnone]
    exact ⟨_, rfl⟩

theorem perform_missing {request : CrudRequest Uid CreateT UpdateT Options}
    (h : crud.allows request = true) {uid : Uid} (huid : request.uid = some uid)
    (hmissing : world.read [] uid = .ok none) :
    (crud.perform world request).outcome =
      (.error (.notFound ("type with ID " ++ world.str uid ++ " not found.")),
        [⟨.read uid, none⟩]) := by
  cases request with
  | create dto options => cases huid
  | read other options =>
    obtain rfl := Option.some.inj huid
    exact getOrRaiseNotFound_missing hmissing _
  | update other dto options =>
    obtain rfl := Option.some.inj huid
    obtain ⟨handler, hhandler⟩ := Option.isSome_iff_exists.mp h
    rw [Crud.perform, Crud.update, hhandler]
    exact getOrRaiseNotFound_missing hmissing _
  | delete other options =>
    obtain rfl := Option.some.inj huid
    obtain ⟨handler, hhandler⟩ := Option.isSome_iff_exists.mp h
    rw [Crud.perform, Crud.delete, hhandler]
    exact getOrRaiseNotFound_missing hmissing _

/-- However handlers and wrappers are made, and whatever the calls answer or raise, a request
makes its calls in their places only: it reads its entity first, it commits what it has just
written, and it publishes what it has just committed. -/
theorem request_conducted (request : CrudRequest Uid CreateT UpdateT Options) :
    Conducted world crud request (crud.perform world request).outcome.1
      (crud.perform world request).outcome.2 := by
  obtain ⟨hfollows, hanswered, hreads⟩ := Obeys.outcome (conforms world crud request) rfl
  refine ⟨hfollows, fun hrefused => ?_, hreads, fun hallows uid huid hmissing => ?_, hanswered⟩
  · obtain ⟨message, houtcome⟩ := perform_refused world crud hrefused
    rw [houtcome]
    exact ⟨rfl, message, rfl⟩
  · rw [perform_missing world crud hallows huid hmissing]
    exact ⟨rfl, rfl⟩

end operations
end requests
end DddFramework.Application
