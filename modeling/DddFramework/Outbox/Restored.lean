import DddFramework.Outbox.Delivery
import DddFramework.Events.Registry

/-! Events through the outbox. A message is what an event was serialized to, and every attempt
to deliver it restores the event anew, in the class that is registered under its type. Whatever
the runs do, what they publish for a row is what its content restores to. -/
namespace DddFramework.Outbox
open Library Events.Registry
open Filters (Python)

structure TypeAdapter (V J : Type) where
  dump : Nat → V → J
  validate : Nat → J → Except String V

structure DomainEvent (V : Type) where
  cls : Nat
  fields : V
deriving DecidableEq

section restore
variable {V J : Type} (py : Python) (adapter : TypeAdapter V J) (classes : Classes)

def unknownEventType (eventType : String) : String :=
  "Unknown event type: " ++ py.repr eventType ++ ". Ensure the event module is imported."

def deserializeEvent (eventType : String) (payload : J) : Except String (DomainEvent V) :=
  match classes.getEventClass eventType with
  | none => .error (unknownEventType py eventType)
  | some cls => (adapter.validate cls payload).map fun fields => ⟨cls, fields⟩

def serializeEvent (event : DomainEvent V) : J := adapter.dump event.cls event.fields

variable {adapter classes}

theorem deserializeEvent_serializeEvent {event : DomainEvent V} {eventType : String}
    (hround : adapter.validate event.cls (adapter.dump event.cls event.fields) = .ok event.fields)
    (hclass : classes.getEventClass eventType = some event.cls) :
    deserializeEvent py adapter classes eventType (serializeEvent adapter event) =
      .ok event := by
  rw [deserializeEvent, hclass]
  simp only [serializeEvent, hround]
  rfl

theorem deserializeEvent_unknown (adapter : TypeAdapter V J) {eventType : String}
    (hclass : classes.getEventClass eventType = none) (payload : J) :
    deserializeEvent py adapter classes eventType payload =
      .error (unknownEventType py eventType) := by
  rw [deserializeEvent, hclass]

end restore

section process
variable {J E : Type} {config : OutboxConfig} {retryPolicy : RetryPolicy}
  {deserializeEvent : String → J → Except String E} {s s' : State J} {event : Event J}
  {out more : List (Effect E)}

def Restores (deserializeEvent : String → J → Except String E) (content : Content J) : Prop :=
  ∃ event, deserializeEvent content.type content.payload = .ok event

/-- What a run's task is about is a row with its content, and a call of the publisher that goes
on is one for an event of it. -/
structure TaskBacked (deserializeEvent : String → J → Except String E) (table : Table J)
    (task : Task J) : Prop where
  row : ∃ row, table task.message.id = some row ∧ row.content = task.message.content
  restores : task.stage = .publishing → Restores deserializeEvent task.message.content

def EffectBacked (deserializeEvent : String → J → Except String E) (table : Table J) :
    Effect E → Prop
  | .acquired _ id => ∃ row, table id = some row
  | .publish _ id event => ∃ row, table id = some row ∧
      deserializeEvent row.type row.payload = .ok event
  | .published _ id => ∃ row, table id = some row ∧ Restores deserializeEvent row.content

structure Backed (deserializeEvent : String → J → Except String E) (out : List (Effect E))
    (s : State J) : Prop where
  keyed : s.table.Keyed
  tasks : ∀ w, ∀ task ∈ (s.runs w).tasks, TaskBacked deserializeEvent s.table task
  effects : ∀ effect ∈ out, EffectBacked deserializeEvent s.table effect

def Keeps (table table' : Table J) : Prop :=
  ∀ id row, table id = some row → ∃ row', table' id = some row' ∧ row'.content = row.content

theorem TaskBacked.keeps {table table' : Table J} {task : Task J}
    (h : TaskBacked deserializeEvent table task) (hkeeps : Keeps table table') :
    TaskBacked deserializeEvent table' task where
  row := by
    obtain ⟨row, hrow, hsame⟩ := h.row
    obtain ⟨row', hrow', hsame'⟩ := hkeeps _ row hrow
    exact ⟨row', hrow', hsame'.trans hsame⟩
  restores := h.restores

theorem EffectBacked.keeps {table table' : Table J} {effect : Effect E}
    (h : EffectBacked deserializeEvent table effect) (hkeeps : Keeps table table') :
    EffectBacked deserializeEvent table' effect := by
  cases effect with
  | acquired w id =>
    obtain ⟨row, hrow⟩ := h
    obtain ⟨row', hrow', -⟩ := hkeeps id row hrow
    exact ⟨row', hrow'⟩
  | publish w id event =>
    obtain ⟨row, hrow, hevent⟩ := h
    obtain ⟨row', hrow', hsame⟩ := hkeeps id row hrow
    refine ⟨row', hrow', ?_⟩
    rw [show row'.type = row.type from congrArg Content.type hsame,
      show row'.payload = row.payload from congrArg Content.payload hsame, hevent]
  | published w id =>
    obtain ⟨row, hrow, hrestores⟩ := h
    obtain ⟨row', hrow', hsame⟩ := hkeeps id row hrow
    exact ⟨row', hrow', hsame ▸ hrestores⟩

theorem TaskBacked.moved {table : Table J} {task next : Task J}
    (h : TaskBacked deserializeEvent table task)
    (hcontent : next.message.content = task.message.content)
    (hrestores : next.stage = .publishing → Restores deserializeEvent task.message.content) :
    TaskBacked deserializeEvent table next where
  row := by
    rw [OutboxMessage.id_of_content hcontent, hcontent]
    exact h.row
  restores hstage := hcontent ▸ hrestores hstage

section tasks
variable {task : Task J} {error : String} {now : Int}

theorem stage_fail : (task.fail config retryPolicy error now).stage ≠ .publishing := by
  unfold Task.fail
  split <;> simp

theorem stage_finish (outcome : Outcome) :
    (task.finish config retryPolicy outcome now).stage ≠ .publishing := by
  cases outcome with
  | published => simp [Task.finish]
  | raised error => exact stage_fail
  | interrupted => simp [Task.finish]

theorem event_start {event : E}
    (h : (task.start config retryPolicy deserializeEvent now).2 = some event) :
    deserializeEvent task.message.type task.message.payload = .ok event := by
  unfold Task.start at h
  split at h
  case h_1 restored hrestored =>
    rw [hrestored, Option.some.inj h]
  case h_2 => cases h

theorem stage_start
    (h : (task.start config retryPolicy deserializeEvent now).1.stage = .publishing) :
    Restores deserializeEvent task.message.content := by
  unfold Task.start at h
  split at h
  case h_1 restored hrestored => exact ⟨restored, hrestored⟩
  case h_2 => exact absurd h stage_fail

end tasks

theorem Keeps.refl (table : Table J) : Keeps table table := fun _ row hrow => ⟨row, hrow, rfl⟩

theorem Backed.setRun {t : State J} (h : Backed deserializeEvent out s) (hruns : t.runs = s.runs)
    (hkeyed : t.table.Keyed) (hkeeps : Keeps s.table t.table) {w : Nat} {run : Run J}
    (htasks : ∀ task ∈ run.tasks, TaskBacked deserializeEvent t.table task)
    (heffects : ∀ effect ∈ more, EffectBacked deserializeEvent t.table effect) :
    Backed deserializeEvent (out ++ more) (t.setRun w run) where
  keyed := hkeyed
  tasks := by
    intro v
    by_cases hv : v = w
    · rw [hv, State.setRun_self]
      exact htasks
    · rw [State.setRun_of_ne _ hv, hruns]
      exact fun task htask => (h.tasks v task htask).keeps hkeeps
  effects := by
    intro effect heffect
    obtain hold | hnew := List.mem_append.mp heffect
    · exact (h.effects effect hold).keeps hkeeps
    · exact heffects effect hnew

theorem Backed.phase (h : Backed deserializeEvent out s) (w : Nat) {t : State J}
    (hruns : t.runs = s.runs) (hkeyed : t.table.Keyed) (hkeeps : Keeps s.table t.table)
    (phase : Phase) :
    Backed deserializeEvent (out ++ []) (t.setRun w { s.runs w with phase := phase }) :=
  h.setRun hruns hkeyed hkeeps (fun task htask => (h.tasks w task htask).keeps hkeeps) nofun

theorem Backed.setTask (h : Backed deserializeEvent out s) {w id : Nat} {next : Task J}
    (hnext : TaskBacked deserializeEvent s.table next)
    (heffects : ∀ effect ∈ more, EffectBacked deserializeEvent s.table effect) :
    Backed deserializeEvent (out ++ more) (s.setRun w ((s.runs w).setTask id next)) := by
  refine h.setRun rfl h.keyed (Keeps.refl _) (fun other hother => ?_) heffects
  obtain rfl | hold := mem_setTask hother
  · exact hnext
  · exact h.tasks w other hold

theorem Backed.step (h : Backed deserializeEvent out s)
    (hacts : Acts config retryPolicy deserializeEvent s event s' more) :
    Backed deserializeEvent (out ++ more) s' := by
  have hkeeps : Keeps s.table s'.table := fun id row hrow => acts_kept hacts hrow
  cases hacts with
  | idle => rwa [List.append_nil]
  | inserted hfresh =>
    rw [List.append_nil]
    exact ⟨h.keyed.insert _, fun w task htask => (h.tasks w task htask).keeps hkeeps,
      fun effect heffect => (h.effects effect heffect).keeps hkeeps⟩
  | begun => exact h.setRun rfl h.keyed hkeeps nofun nofun
  | @locked w id row hphase hlimit hfree hrow hdeliverable =>
    refine h.setRun (t := s.lock w id) rfl h.keyed hkeeps (fun task htask => ?_)
      (fun effect heffect => ?_)
    · obtain hold | hnew := List.mem_append.mp htask
      · exact h.tasks w task hold
      · rw [List.mem_singleton.mp hnew]
        exact ⟨⟨row, (h.keyed id row hrow).symm ▸ hrow, rfl⟩, nofun⟩
    · rw [List.mem_singleton.mp heffect]
      exact ⟨row, hrow⟩
  | @foundNone w => exact h.phase w (t := s.release w) rfl h.keyed hkeeps _
  | foundSome => exact h.phase _ rfl h.keyed hkeeps _
  | @started w id now task htask hstart =>
    obtain ⟨hmem, hid⟩ := task?_spec htask
    have hbacked := h.tasks w task hmem
    refine h.setTask (hbacked.moved content_start stage_start) fun effect heffect => ?_
    rw [Option.mem_toList, Option.map_eq_some_iff] at heffect
    obtain ⟨restored, hrestored, rfl⟩ := heffect
    obtain ⟨row, hrow, hsame⟩ := hbacked.row
    refine ⟨row, hid ▸ hrow, ?_⟩
    rw [show row.type = task.message.type from congrArg Content.type hsame,
      show row.payload = task.message.payload from congrArg Content.payload hsame]
    exact event_start hrestored
  | @finished w id outcome now task htask hgoes hstage =>
    obtain ⟨hmem, hid⟩ := task?_spec htask
    have hbacked := h.tasks w task hmem
    refine h.setTask ?_ fun effect heffect => ?_
    · exact hbacked.moved (content_finish outcome) fun h => absurd h (stage_finish outcome)
    · obtain ⟨row, hrow, hsame⟩ := hbacked.row
      cases outcome <;> simp only [Outcome.effects, List.mem_singleton, List.not_mem_nil] at heffect
      rw [heffect]
      exact ⟨row, hid ▸ hrow, hsame ▸ hbacked.restores hstage⟩
  | saved => exact h.phase _ rfl h.keyed hkeeps _
  | @committed w =>
    exact h.phase w (t := (s.release w).save (s.runs w).batch) rfl h.keyed.saveAll hkeeps _
  | @rolledBack w => exact h.phase w (t := s.release w) rfl h.keyed hkeeps _
  | @crashed w => exact h.phase w (t := s.release w) rfl h.keyed hkeeps _

variable {events : List (Event J)}

theorem backed_after (config : OutboxConfig) (retryPolicy : RetryPolicy)
    (deserializeEvent : String → J → Except String E) (events : List (Event J)) :
    Backed deserializeEvent ((machine config retryPolicy deserializeEvent).emitted .init events)
      ((machine config retryPolicy deserializeEvent).after .init events) := by
  induction events using List.reverseRecOn with
  | nil => exact ⟨nofun, nofun, nofun⟩
  | append_singleton past event ih =>
    rw [Machine.emitted_concat, Machine.after_concat]
    exact ih.step (step_acts config retryPolicy deserializeEvent _ event)

/-- Delivery has not got past restoring the event. -/
def OutboxMessage.RefusedBy (message : OutboxMessage J) (error : String) : Prop :=
  message.processedAt = none ∧ (message.lastError = none ∨ message.lastError = some error)

theorem refusedBy_markFailed {message : OutboxMessage J} {error : String}
    (h : message.RefusedBy error) (retryAfter : Int) (maxAttempts : Nat) (now : Int) :
    (message.markFailed error retryAfter maxAttempts now).RefusedBy error := by
  refine ⟨(OutboxMessage.processedAt_markFailed ..).trans h.1, .inr ?_⟩
  simp only [OutboxMessage.markFailed]
  split <;> rfl

theorem refusedBy_fail {task : Task J} {error : String} (h : task.message.RefusedBy error)
    (now : Int) : (task.fail config retryPolicy error now).message.RefusedBy error := by
  unfold Task.fail
  split
  · exact refusedBy_markFailed h ..
  · exact h

theorem Table.saveAll_refusedBy {table : Table J} {messages : List (OutboxMessage J)} {id : Nat}
    {error : String} (hrow : ∀ row, table id = some row → row.RefusedBy error)
    (hmessages : ∀ message ∈ messages, message.id = id → message.RefusedBy error) :
    ∀ row, table.saveAll messages id = some row → row.RefusedBy error := by
  induction messages generalizing table with
  | nil => exact hrow
  | cons message messages ih =>
    rw [List.forall_mem_cons] at hmessages
    refine ih (fun row hsaved => ?_) hmessages.2
    by_cases hid : message.id = id
    · have hmessage := hmessages.1 hid
      subst hid
      rw [Table.save, Function.update_self] at hsaved
      cases hold : table message.id with
      | none =>
        rw [hold, Option.elim_none] at hsaved
        exact Option.some.inj hsaved ▸ hmessage
      | some old =>
        rw [hold, Option.elim_some] at hsaved
        exact Option.some.inj hsaved ▸ hmessage
    · exact hrow row ((Table.save_of_ne hid).symm.trans hsaved)

/-- A row whose content does not restore, and the copies of it. -/
structure Stuck (deserializeEvent : String → J → Except String E) (error : String) (id : Nat)
    (s : State J) : Prop where
  row : ∃ row, s.table id = some row ∧ deserializeEvent row.type row.payload = .error error
  refused : ∀ row, s.table id = some row → row.RefusedBy error
  copies : ∀ w, ∀ task ∈ (s.runs w).tasks, task.message.id = id → task.message.RefusedBy error

theorem Stuck.not_restores {error : String} {id : Nat} (h : Stuck deserializeEvent error id s)
    {row : OutboxMessage J} (hrow : s.table id = some row) :
    deserializeEvent row.type row.payload = .error error := by
  obtain ⟨known, hknown, herror⟩ := h.row
  obtain rfl := Option.some.inj (hknown.symm.trans hrow)
  exact herror

theorem Stuck.setRun {error : String} {id : Nat} {t : State J}
    (h : Stuck deserializeEvent error id s) (hruns : t.runs = s.runs)
    (hrow : ∃ row, t.table id = some row ∧ deserializeEvent row.type row.payload = .error error)
    (hrefused : ∀ row, t.table id = some row → row.RefusedBy error) {w : Nat} {run : Run J}
    (htasks : ∀ task ∈ run.tasks, task.message.id = id → task.message.RefusedBy error) :
    Stuck deserializeEvent error id (t.setRun w run) where
  row := hrow
  refused := hrefused
  copies := by
    intro v
    by_cases hv : v = w
    · rw [hv, State.setRun_self]
      exact htasks
    · rw [State.setRun_of_ne _ hv, hruns]
      exact h.copies v

theorem Stuck.setTask {error : String} {id other : Nat} {w : Nat} {next : Task J}
    (h : Stuck deserializeEvent error id s)
    (hnext : next.message.id = id → next.message.RefusedBy error) :
    Stuck deserializeEvent error id (s.setRun w ((s.runs w).setTask other next)) := by
  refine h.setRun rfl h.row h.refused fun task htask hid => ?_
  obtain rfl | hold := mem_setTask htask
  · exact hnext hid
  · exact h.copies w task hold hid

theorem Stuck.step {error : String} {id : Nat} (h : Stuck deserializeEvent error id s)
    (hbacked : Backed deserializeEvent out s)
    (hacts : Acts config retryPolicy deserializeEvent s event s' more) :
    Stuck deserializeEvent error id s' := by
  cases hacts with
  | idle => exact h
  | @inserted new hfresh =>
    obtain ⟨row, hrow, herror⟩ := h.row
    have hsame := s.insert_of_some hfresh hrow
    refine ⟨⟨row, hsame, herror⟩, fun found hfound => ?_, h.copies⟩
    rw [← Option.some.inj (hsame.symm.trans hfound)]
    exact h.refused row hrow
  | begun => exact h.setRun rfl h.row h.refused nofun
  | @locked w other row hphase hlimit hfree hrow hdeliverable =>
    refine h.setRun (t := s.lock w other) rfl h.row h.refused fun task htask hid => ?_
    obtain hold | hnew := List.mem_append.mp htask
    · exact h.copies w task hold hid
    · obtain rfl := List.mem_singleton.mp hnew
      have hother : other = id := (hbacked.keyed other row hrow).symm.trans hid
      exact h.refused row (hother ▸ hrow)
  | @foundNone w => exact h.setRun (t := s.release w) rfl h.row h.refused (h.copies w)
  | @foundSome w => exact h.setRun rfl h.row h.refused (h.copies w)
  | @started w other now task htask hstart =>
    obtain ⟨hmem, hother⟩ := task?_spec htask
    refine h.setTask fun hid => ?_
    have hsame : task.message.id = id :=
      (OutboxMessage.id_of_content content_start).symm.trans hid
    obtain ⟨row, hrow, hcontent⟩ := (hbacked.tasks w task hmem).row
    have herror := h.not_restores (hsame ▸ hrow)
    rw [show row.type = task.message.type from congrArg Content.type hcontent,
      show row.payload = task.message.payload from congrArg Content.payload hcontent] at herror
    have hstart : task.start config retryPolicy deserializeEvent now =
        (task.fail config retryPolicy error now, none) := by
      rw [Task.start, herror]
    rw [hstart]
    exact refusedBy_fail (h.copies w task hmem hsame) now
  | @finished w other outcome now task htask hgoes hstage =>
    obtain ⟨hmem, hother⟩ := task?_spec htask
    refine h.setTask fun hid => ?_
    have hsame : task.message.id = id :=
      (OutboxMessage.id_of_content (content_finish outcome)).symm.trans hid
    obtain ⟨row, hrow, hcontent⟩ := (hbacked.tasks w task hmem).row
    obtain ⟨restored, hrestored⟩ := (hbacked.tasks w task hmem).restores hstage
    rw [← hcontent] at hrestored
    have herror := h.not_restores (hsame ▸ hrow)
    cases hrestored.symm.trans herror
  | @saved w => exact h.setRun rfl h.row h.refused (h.copies w)
  | @committed w =>
    refine h.setRun (t := (s.release w).save (s.runs w).batch) rfl ?_ ?_ (h.copies w)
    · obtain ⟨row, hrow, herror⟩ := h.row
      have hkept : ∃ row', s.table.saveAll (s.runs w).batch id = some row' ∧
          row'.content = row.content := Table.saveAll_content hrow
      obtain ⟨row', hrow', hsame⟩ := hkept
      refine ⟨row', hrow', ?_⟩
      rw [show row'.type = row.type from congrArg Content.type hsame,
        show row'.payload = row.payload from congrArg Content.payload hsame, herror]
    · refine Table.saveAll_refusedBy h.refused fun message hmessage hid => ?_
      obtain ⟨task, htask, rfl⟩ := List.mem_map.mp hmessage
      exact h.copies w task htask hid
  | @rolledBack w => exact h.setRun (t := s.release w) rfl h.row h.refused (h.copies w)
  | @crashed w => exact h.setRun (t := s.release w) rfl h.row h.refused (h.copies w)

theorem stuck_after {error : String} {id : Nat} (past rest : List (Event J))
    (h : Stuck deserializeEvent error id
      ((machine config retryPolicy deserializeEvent).after .init past)) :
    Stuck deserializeEvent error id
      ((machine config retryPolicy deserializeEvent).after .init (past ++ rest)) := by
  induction rest using List.reverseRecOn with
  | nil => rwa [List.append_nil]
  | append_singleton rest event ih =>
    rw [← List.append_assoc, Machine.after_concat]
    exact ih.step (backed_after config retryPolicy deserializeEvent (past ++ rest))
      (step_acts config retryPolicy deserializeEvent _ event)

theorem published_restores {past rest : List (Event J)} {row : OutboxMessage J}
    (hrow : ((machine config retryPolicy deserializeEvent).after .init past).table row.id =
      some row) {w : Nat} {published : E}
    (hpublished : Effect.publish w row.id published ∈
      (machine config retryPolicy deserializeEvent).emitted .init (past ++ rest)) :
    deserializeEvent row.type row.payload = .ok published := by
  have hbacked := backed_after config retryPolicy deserializeEvent (past ++ rest)
  obtain ⟨last, hlast, hrestored⟩ := hbacked.effects _ hpublished
  have hafter : ∃ kept, ((machine config retryPolicy deserializeEvent).after .init
      (past ++ rest)).table row.id = some kept ∧ kept.content = row.content := by
    rw [Machine.after_append]
    exact after_kept hrow
  obtain ⟨kept, hkept, hsame⟩ := hafter
  obtain rfl := Option.some.inj (hkept.symm.trans hlast)
  rw [← show kept.type = row.type from congrArg Content.type hsame,
    ← show kept.payload = row.payload from congrArg Content.payload hsame]
  exact hrestored

end process

section events
variable {V J : Type} (py : Python) (adapter : TypeAdapter V J) (statements : List ClassStatement)
  (config : OutboxConfig) (retryPolicy : RetryPolicy)

def eventWorkers : Machine (State J) (Event J) (Effect (DomainEvent V)) :=
  machine config retryPolicy (deserializeEvent py adapter (defined py statements))

/-- The row is of an event object, whose class has a name and whose adapter reads back what it
has written of it. -/
structure RowOf (event : DomainEvent V) (row : OutboxMessage J) : Prop where
  named : event.cls ∈ (defined py statements).bound
  isEvent : IsEventClass (defined py statements) event.cls
  type : (defined py statements).eventType event.cls = some row.type
  payload : row.payload = serializeEvent adapter event
  round : adapter.validate event.cls (adapter.dump event.cls event.fields) = .ok event.fields

/-- Whatever the workers do, each time that they publish a stored event it is the event itself;
where no class of its type has been defined it is never published nor processed, and an error
that is stored names the type. -/
theorem events_restored {past rest : List (Event J)} {row : OutboxMessage J}
    (hfresh : ((eventWorkers py adapter statements config retryPolicy).after .init past).table
      row.id = none) :
    (∀ event, RowOf py adapter statements event row → ∀ w published,
      .publish w row.id published ∈ (eventWorkers py adapter statements config retryPolicy).emitted
        .init (past ++ .insert row :: rest) → published = event) ∧
    ((defined py statements).getEventClass row.type = none → row.processedAt = none →
      row.lastError = none →
      (∀ w published, .publish w row.id published ∉
        (eventWorkers py adapter statements config retryPolicy).emitted .init
          (past ++ .insert row :: rest)) ∧
      ∃ last, ((eventWorkers py adapter statements config retryPolicy).after .init
          (past ++ .insert row :: rest)).table row.id = some last ∧
        last.processedAt = none ∧
        (last.lastError = none ∨ last.lastError = some (unknownEventType py row.type))) := by
  have hsplit : past ++ .insert row :: rest = (past ++ [.insert row]) ++ rest := by simp
  have hinserted : (eventWorkers py adapter statements config retryPolicy).after .init
      (past ++ [.insert row]) =
        ((eventWorkers py adapter statements config retryPolicy).after .init past).insert row := by
    rw [Machine.after_concat]
    simp only [eventWorkers, machine, step] at hfresh ⊢
    rw [if_pos hfresh]
  have hrow : ((eventWorkers py adapter statements config retryPolicy).after .init
      (past ++ [.insert row])).table row.id = some row := by
    rw [hinserted]
    exact State.insert_self _ row
  rw [hsplit]
  constructor
  · intro event hof w published hpublished
    have hsound := (defined_keeps py statements []).1
    have hclass := hsound.getEventClass_eq hof.named hof.isEvent hof.type
    have hrestored := published_restores hrow hpublished
    rw [hof.payload, deserializeEvent_serializeEvent py hof.round hclass] at hrestored
    exact (Except.ok.inj hrestored).symm
  · intro hunknown hprocessed herror
    have hrefused := deserializeEvent_unknown py adapter hunknown row.payload
    constructor
    · intro w published hpublished
      rw [published_restores hrow hpublished] at hrefused
      cases hrefused
    · have hstuck : Stuck (deserializeEvent py adapter (defined py statements))
          (unknownEventType py row.type) row.id
          ((eventWorkers py adapter statements config retryPolicy).after .init
            (past ++ [.insert row])) := by
        refine ⟨⟨row, hrow, hrefused⟩, fun found hfound => ?_, fun w task htask hid => ?_⟩
        · rw [← Option.some.inj (hrow.symm.trans hfound)]
          exact ⟨hprocessed, .inl herror⟩
        · rw [hinserted] at htask
          obtain ⟨known, hknown, -⟩ := ((backed_after config retryPolicy
            (deserializeEvent py adapter (defined py statements)) past).tasks w task htask).row
          rw [hid] at hknown
          cases hknown.symm.trans hfresh
      have hlast := stuck_after (past ++ [.insert row]) rest hstuck
      obtain ⟨last, hfound, -⟩ := hlast.row
      exact ⟨last, hfound, hlast.refused last hfound⟩

end events

section witness
open Filters (asciiPython)

def orderModule : List ClassStatement :=
  [⟨⟨"Event", [], none, false⟩, .keeps⟩,
    ⟨⟨"OrderPlaced", [0], some (some "OrderPlaced"), true⟩, .keeps⟩]

def textAdapter : TypeAdapter String String := ⟨fun _ text => text, fun _ payload => .ok payload⟩

theorem rowOf_ordered : RowOf asciiPython textAdapter orderModule ⟨1, "order"⟩ (ordered 1) where
  named := by decide
  isEvent := ⟨_, rfl, rfl⟩
  type := by decide
  payload := rfl
  round := rfl

theorem events_restored_redelivery :
    .publish 2 1 ⟨1, "order"⟩ ∈ (eventWorkers asciiPython textAdapter orderModule {}
      exponentialRetryPolicy).emitted .init redelivery ∧
    ∀ w published, .publish w 1 published ∈ (eventWorkers asciiPython textAdapter orderModule {}
      exponentialRetryPolicy).emitted .init redelivery → published = ⟨1, "order"⟩ := by
  refine ⟨by decide +kernel, fun w published h => ?_⟩
  have hfresh : ((eventWorkers asciiPython textAdapter orderModule {}
      exponentialRetryPolicy).after .init []).table (ordered 1).id = none := rfl
  exact (events_restored asciiPython textAdapter orderModule {} exponentialRetryPolicy
    hfresh).1 _ rowOf_ordered w published h

end witness
end DddFramework.Outbox
