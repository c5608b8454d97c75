import DddFramework.Library.Machine
import Mathlib.Data.List.Basic
import Mathlib.Logic.Function.Basic

/-! `EventDispatcher` over entities that collect their events in queues. A call drains the
queues of its entities before its first await, so that calls of several tasks are in the order
in which they collect; then it records, commits and publishes, or rolls back. -/
namespace DddFramework.Events
open Library

/-- An event as one call of `register_event` put it in its queue: which call this was, of all
of them, and the event. -/
structure Registered (E : Type) where
  number : Nat
  event : E
deriving DecidableEq

abbrev Collected (E : Type) := Registered E × Nat

/-- How an awaited call ends: it returns, raises what `except Exception` catches, or raises
something else, such as a cancellation. -/
inductive Outcome where
  | returned
  | raised
  | interrupted
deriving DecidableEq

structure Outcomes where
  recordAll : Outcome := .returned
  commit : Outcome := .returned
  rollback : Outcome := .returned
  publisher : Outcome := .returned

inductive Action (E : Type) where
  | recordAll (collected : List (Collected E)) (outcome : Outcome)
  | commit (outcome : Outcome)
  | rollback (outcome : Outcome)
  | publish (events : List (Registered E)) (outcome : Outcome)
  | finished (outcome : Outcome)
deriving DecidableEq

variable {E : Type}

def Action.isPublish : Action E → Bool
  | .publish _ _ => true
  | _ => false

def Action.handed : Action E → List (Registered E)
  | .publish events _ => events
  | _ => []

section dispatch
variable (outcomes : Outcomes)

/-- The `except` branch. An exception of `rollback` takes the place of the one that led there. -/
def rollback : List (Action E) :=
  [.rollback outcomes.rollback,
    .finished (if outcomes.rollback = .returned then .raised else outcomes.rollback)]

/-- What becomes of an awaited call in the `try` block: after an exception the dispatch rolls
back, after a cancellation it does not. -/
def attempt (outcome : Outcome) (next : List (Action E)) : List (Action E) :=
  match outcome with
  | .returned => next
  | .raised => rollback outcomes
  | .interrupted => [.finished .interrupted]

def publish (collected : List (Collected E)) : List (Action E) :=
  if collected.isEmpty then [.finished .returned]
  else [.publish (collected.map Prod.fst) outcomes.publisher, .finished outcomes.publisher]

def commit (collected : List (Collected E)) : List (Action E) :=
  .commit outcomes.commit :: attempt outcomes outcomes.commit (publish outcomes collected)

def dispatch (eventStore : Bool) (collected : List (Collected E)) : List (Action E) :=
  if eventStore && !collected.isEmpty then
    .recordAll collected outcomes.recordAll ::
      attempt outcomes outcomes.recordAll (commit outcomes collected)
  else commit outcomes collected

end dispatch

structure State (E : Type) where
  queues : Nat → List (Registered E)
  registrations : Nat

inductive Op (E : Type) where
  | register (entity : Nat) (event : E)
  | call (eventStore : Bool) (entities : List Nat) (outcomes : Outcomes)

/-- The first loop of `__call__`: each entity's queue is drained in turn. -/
def collect (queues : Nat → List (Registered E)) :
    List Nat → List (Collected E) × (Nat → List (Registered E))
  | [] => ([], queues)
  | entity :: entities =>
    let rest := collect (Function.update queues entity []) entities
    ((queues entity).map (·, entity) ++ rest.1, rest.2)

def step (s : State E) : Op E → State E × List (Action E)
  | .register entity event =>
    ({ queues := Function.update s.queues entity (s.queues entity ++ [⟨s.registrations, event⟩])
       registrations := s.registrations + 1 }, [])
  | .call eventStore entities outcomes =>
    ({ s with queues := (collect s.queues entities).2 },
      dispatch outcomes eventStore (collect s.queues entities).1)

def machine : Machine (State E) (Op E) (Action E) where
  init := ⟨fun _ => [], 0⟩
  step := step

def Op.pending (entity : Nat) (events : List E) : Op E → List E
  | .register other event => if other = entity then events ++ [event] else events
  | .call _ entities _ => if entity ∈ entities then [] else events

def pending (ops : List (Op E)) (entity : Nat) : List E := ops.foldl (Op.pending entity) []

abbrev dispatched (past : List (Op E)) (op : Op E) : List (Action E) :=
  (machine.step (machine.after machine.init past) op).2

def waiting (past : List (Op E)) (entities : List Nat) : List E :=
  entities.eraseDups.flatMap (pending past)

def Recorded (eventStore : Bool) (outcomes : Outcomes) (events : List E) : Prop :=
  eventStore = true → events ≠ [] → outcomes.recordAll = .returned

structure Does (past : List (Op E)) (eventStore : Bool) (entities : List Nat)
    (outcomes : Outcomes) (actions : List (Action E)) : Prop where
  records : eventStore = true → waiting past entities ≠ [] →
    ∃ collected, (collected.map Prod.fst).map Registered.event = waiting past entities ∧
      .recordAll collected outcomes.recordAll ∈ actions
  commits : Recorded eventStore outcomes (waiting past entities) →
    .commit outcomes.commit ∈ actions
  publishes : Recorded eventStore outcomes (waiting past entities) →
    outcomes.commit = .returned → waiting past entities ≠ [] →
    ∃ events, events.map Registered.event = waiting past entities ∧
      actions.filter Action.isPublish = [.publish events outcomes.publisher]
  rollsBack : (eventStore = true ∧ waiting past entities ≠ [] ∧ outcomes.recordAll = .raised) ∨
      (Recorded eventStore outcomes (waiting past entities) ∧ outcomes.commit = .raised) →
    .rollback outcomes.rollback ∈ actions ∧
      (∃ outcome, outcome ≠ .returned ∧ actions.getLast? = some (.finished outcome)) ∧
      actions.filter Action.isPublish = []

/-- Events are published only after the commit, once and in order, and whenever it returns. -/
structure PublishedAfterCommit (ops : List (Op E)) : Prop where
  does : ∀ past eventStore entities outcomes rest,
    ops = past ++ .call eventStore entities outcomes :: rest →
    Does past eventStore entities outcomes
      (dispatched past (.call eventStore entities outcomes))
  committed : ∀ past eventStore entities outcomes rest,
    ops = past ++ .call eventStore entities outcomes :: rest → ∀ before events outcome behind,
    dispatched past (.call eventStore entities outcomes) =
      before ++ .publish events outcome :: behind →
    .commit .returned ∈ before ∧
      (eventStore = true → events ≠ [] → ∃ collected earlier later,
        before = earlier ++ .recordAll collected .returned :: later ∧
        collected.map Prod.fst = events ∧ .commit .returned ∈ later)
  ordered : ∀ past eventStore entities outcomes rest,
    ops = past ++ .call eventStore entities outcomes :: rest → ∀ events outcome,
    .publish events outcome ∈ dispatched past (.call eventStore entities outcomes) →
    events.map Registered.event = waiting past entities
  once : (((machine.emitted machine.init ops).flatMap Action.handed).map Registered.number).Nodup
  failed : ∀ past eventStore entities outcomes rest,
    ops = past ++ .call eventStore entities outcomes :: rest →
    ∀ actions, dispatched past (.call eventStore entities outcomes) = actions →
    (∃ collected, .recordAll collected .raised ∈ actions) ∨ .commit .raised ∈ actions →
    (∃ outcome, .rollback outcome ∈ actions) ∧
      (∃ outcome, .finished outcome ∈ actions) ∧ .finished .returned ∉ actions ∧
      ∀ events outcome, .publish events outcome ∉ actions

section dispatch
variable {outcomes : Outcomes} {eventStore : Bool} {collected : List (Collected E)}
  {events : List (Registered E)} {outcome : Outcome} {entities : List Nat}
  {queues : Nat → List (Registered E)}

theorem publish_notMem_rollback : .publish events outcome ∉ rollback (E := E) outcomes := by
  simp [rollback]

theorem publish_mem_attempt {ending : Outcome} {next : List (Action E)} :
    .publish events outcome ∈ attempt outcomes ending next ↔
      ending = .returned ∧ .publish events outcome ∈ next := by
  cases ending <;> simp [attempt, publish_notMem_rollback]

theorem publish_mem_commit :
    .publish events outcome ∈ commit outcomes collected ↔
      outcomes.commit = .returned ∧ .publish events outcome ∈ publish outcomes collected := by
  simp [commit, publish_mem_attempt]

theorem publish_mem_publish :
    .publish events outcome ∈ publish outcomes collected ↔
      collected ≠ [] ∧ events = collected.map Prod.fst ∧ outcome = outcomes.publisher := by
  cases collected <;> simp [publish]

theorem dispatch_of_publish (h : .publish events outcome ∈ dispatch outcomes eventStore collected) :
    collected ≠ [] ∧ events = collected.map Prod.fst ∧
      dispatch outcomes eventStore collected =
        (if eventStore then [.recordAll collected .returned] else []) ++
          [.commit .returned, .publish events outcome, .finished outcome] := by
  have hcommit : .publish events outcome ∈ commit outcomes collected →
      collected ≠ [] ∧ events = collected.map Prod.fst ∧ commit outcomes collected =
        [.commit .returned, .publish events outcome, .finished outcome] := by
    rw [publish_mem_commit, publish_mem_publish]
    rintro ⟨hreturned, hnonempty, rfl, rfl⟩
    simp [commit, attempt, publish, hreturned, hnonempty]
  unfold dispatch at h ⊢
  split at h
  case isTrue hstore =>
    rw [List.mem_cons, publish_mem_attempt] at h
    rcases h with hrecord | ⟨hreturned, hpublish⟩
    · cases hrecord
    · obtain ⟨hnonempty, hevents, hactions⟩ := hcommit hpublish
      refine ⟨hnonempty, hevents, ?_⟩
      have hconfigured : eventStore = true := (Bool.and_eq_true_iff.mp hstore).1
      rw [if_pos hstore, if_pos hconfigured, hreturned, attempt, hactions]
      rfl
  case isFalse hstore =>
    obtain ⟨hnonempty, hevents, hactions⟩ := hcommit h
    refine ⟨hnonempty, hevents, ?_⟩
    have hnone : ¬eventStore = true := by
      simpa [hnonempty] using hstore
    rw [if_neg hstore, if_neg hnone, hactions]
    rfl

theorem recordAll_notMem_commit {recorded : List (Collected E)} :
    .recordAll recorded outcome ∉ commit outcomes collected := by
  unfold commit
  cases outcomes.commit with
  | returned => cases collected <;> simp [attempt, publish]
  | raised => simp [attempt, rollback]
  | interrupted => simp [attempt]

theorem dispatch_of_raised (h : (∃ recorded, .recordAll recorded .raised ∈
      dispatch outcomes eventStore collected) ∨
      .commit .raised ∈ dispatch outcomes eventStore collected) :
    ∃ actions, dispatch outcomes eventStore collected = actions ++ rollback outcomes ∧
      (∀ ending, .finished ending ∉ actions) ∧
        ∀ events ending, .publish events ending ∉ actions := by
  have hcommit : .commit .raised ∈ commit outcomes collected →
      commit outcomes collected = [.commit .raised] ++ rollback outcomes := by
    unfold commit
    cases outcomes.commit with
    | returned => cases collected <;> simp [attempt, publish]
    | raised => exact fun _ => rfl
    | interrupted => simp [attempt]
  unfold dispatch at h ⊢
  split at h
  case isTrue hstore =>
    rw [if_pos hstore]
    cases hending : outcomes.recordAll with
    | returned =>
      simp only [hending, attempt, List.mem_cons, Action.recordAll.injEq, reduceCtorEq, and_false,
        false_or, recordAll_notMem_commit, exists_false] at h
      rw [attempt, hcommit h]
      exact ⟨[.recordAll collected .returned, .commit .raised], rfl, by simp, by simp⟩
    | raised => exact ⟨[.recordAll collected .raised], rfl, by simp, by simp⟩
    | interrupted => simp [hending, attempt] at h
  case isFalse hstore =>
    rw [if_neg hstore]
    simp only [recordAll_notMem_commit, exists_false, false_or] at h
    rw [hcommit h]
    exact ⟨[.commit .raised], rfl, by simp, by simp⟩

end dispatch

section collect
variable {queues : Nat → List (Registered E)} {entities : List Nat}

theorem nodup_eraseDups (entities : List Nat) : entities.eraseDups.Nodup := by
  induction hlength : entities.length using Nat.strongRecOn generalizing entities with
  | ind n ih =>
    cases entities with
    | nil => exact List.nodup_nil
    | cons entity rest =>
      rw [List.eraseDups_cons, List.nodup_cons, List.mem_eraseDups]
      refine ⟨by simp, ih _ ?_ _ rfl⟩
      have hle := List.length_filter_le (fun other => !other == entity) rest
      rw [List.length_cons] at hlength
      omega

theorem flatMap_eraseDups_filter {B : Type} {f : Nat → List B} {a : Nat} (ha : f a = [])
    (entities : List Nat) :
    ((entities.filter fun b => !b == a).eraseDups).flatMap f = entities.eraseDups.flatMap f := by
  induction hlength : entities.length using Nat.strongRecOn generalizing entities with
  | ind n ih =>
    cases entities with
    | nil => rfl
    | cons b rest =>
      by_cases hb : b = a
      · subst hb
        rw [List.filter_cons_of_neg (by simp), List.eraseDups_cons, List.flatMap_cons, ha,
          List.nil_append]
      · rw [List.filter_cons_of_pos (by simp [hb]), List.eraseDups_cons, List.eraseDups_cons,
          List.flatMap_cons, List.flatMap_cons, List.filter_comm]
        have hshorter : (rest.filter fun c => !c == b).length < n := by
          have hle := List.length_filter_le (fun c => !c == b) rest
          rw [List.length_cons] at hlength
          omega
        rw [ih _ hshorter _ rfl]

theorem collect_fst : (collect queues entities).1 =
    entities.eraseDups.flatMap fun entity => (queues entity).map (·, entity) := by
  induction entities generalizing queues with
  | nil => rfl
  | cons entity entities ih =>
    simp only [collect]
    rw [ih, List.eraseDups_cons, List.flatMap_cons]
    congr 1
    have hempty : (Function.update queues entity [] entity).map (·, entity) = [] := by
      rw [Function.update_self, List.map_nil]
    rw [← flatMap_eraseDups_filter (a := entity) hempty]
    apply List.flatMap_congr
    intro other hother
    have hne : other ≠ entity := by
      have hmem := List.mem_filter.mp (List.mem_eraseDups.mp hother)
      simpa using hmem.2
    rw [Function.update_of_ne hne]

theorem collect_snd (other : Nat) : (collect queues entities).2 other =
    if other ∈ entities then [] else queues other := by
  induction entities generalizing queues with
  | nil => rfl
  | cons entity entities ih =>
    rw [collect, ih]
    by_cases hother : other = entity
    · simp [hother]
    · simp [hother]

theorem collect_events : ((collect queues entities).1.map Prod.fst) =
    entities.eraseDups.flatMap queues := by
  rw [collect_fst, List.map_flatMap]
  simp [Function.comp_def]

end collect

/-- Every registered event waits in one queue, or has been handed over, or neither, but no
event does so twice. -/
structure Distinct (handed : List (Registered E)) (s : State E) : Prop where
  queued : ∀ entity, ∀ r ∈ s.queues entity, r.number < s.registrations
  known : ∀ r ∈ handed, r.number < s.registrations
  queue : ∀ entity, ((s.queues entity).map Registered.number).Nodup
  apart : ∀ entity other, entity ≠ other → ∀ r ∈ s.queues entity, ∀ q ∈ s.queues other,
    r.number ≠ q.number
  new : ∀ entity, ∀ r ∈ s.queues entity, ∀ q ∈ handed, r.number ≠ q.number
  once : (handed.map Registered.number).Nodup

section runs
variable {handed : List (Registered E)} {s : State E} {past : List (Op E)}

theorem mem_register {entity other : Nat} {event : E} {r : Registered E}
    (hr : r ∈ (step s (.register entity event)).1.queues other) :
    r ∈ s.queues other ∨ r.number = s.registrations ∧ other = entity := by
  by_cases hother : other = entity
  · subst hother
    simp only [step, Function.update_self, List.mem_append, List.mem_singleton] at hr
    exact hr.imp_right fun hnew => ⟨congrArg Registered.number hnew, rfl⟩
  · simp only [step, Function.update_of_ne hother] at hr
    exact .inl hr

theorem Distinct.register (h : Distinct handed s) (entity : Nat) (event : E) :
    Distinct handed (step s (.register entity event)).1 where
  queued other r hr := by
    change r.number < s.registrations + 1
    rcases mem_register hr with hold | ⟨hnew, -⟩
    · exact Nat.lt_succ_of_lt (h.queued other r hold)
    · omega
  known r hr := Nat.lt_succ_of_lt (h.known r hr)
  queue other := by
    by_cases hother : other = entity
    · subst hother
      simp only [step, Function.update_self, List.map_append, List.map_cons, List.map_nil]
      rw [List.nodup_append]
      refine ⟨h.queue other, by simp, ?_⟩
      intro number hnumber new hnew heq
      obtain ⟨r, hr, rfl⟩ := List.mem_map.mp hnumber
      rw [List.mem_singleton.mp hnew] at heq
      exact Nat.ne_of_lt (h.queued other r hr) heq
    · simp only [step, Function.update_of_ne hother]
      exact h.queue other
  apart first second hne r hr q hq heq := by
    rcases mem_register hr with hold | ⟨hnew, hfirst⟩
    · rcases mem_register hq with hold' | ⟨hnew', -⟩
      · exact h.apart first second hne r hold q hold' heq
      · exact Nat.ne_of_lt (h.queued first r hold) (heq.trans hnew')
    · rcases mem_register hq with hold' | ⟨-, hsecond⟩
      · exact Nat.ne_of_lt (h.queued second q hold') (heq.symm.trans hnew)
      · exact hne (hfirst.trans hsecond.symm)
  new other r hr q hq heq := by
    rcases mem_register hr with hold | ⟨hnew, -⟩
    · exact h.new other r hold q hq heq
    · exact Nat.ne_of_lt (h.known q hq) (heq.symm.trans hnew)
  once := h.once

theorem Distinct.flatMap (h : Distinct handed s) {entities : List Nat}
    (hentities : entities.Nodup) :
    ((entities.flatMap s.queues).map Registered.number).Nodup := by
  induction entities with
  | nil => exact List.nodup_nil
  | cons entity entities ih =>
    rw [List.nodup_cons] at hentities
    rw [List.flatMap_cons, List.map_append, List.nodup_append]
    refine ⟨h.queue entity, ih hentities.2, ?_⟩
    intro number hnumber other hother heq
    obtain ⟨r, hr, rfl⟩ := List.mem_map.mp hnumber
    obtain ⟨q, hq, rfl⟩ := List.mem_map.mp hother
    obtain ⟨owner, howner, hq⟩ := List.mem_flatMap.mp hq
    have hne : entity ≠ owner := by
      rintro rfl
      exact hentities.1 howner
    exact h.apart entity owner hne r hr q hq heq

theorem mem_drained {entities : List Nat} {entity : Nat} {r : Registered E}
    (hr : r ∈ (collect s.queues entities).2 entity) : entity ∉ entities ∧ r ∈ s.queues entity := by
  rw [collect_snd] at hr
  split at hr
  case isTrue => cases hr
  case isFalse hentity => exact ⟨hentity, hr⟩

theorem Distinct.drain (h : Distinct handed s) (entities : List Nat) :
    Distinct handed { s with queues := (collect s.queues entities).2 } where
  queued entity r hr := h.queued entity r (mem_drained hr).2
  known := h.known
  queue entity := by
    change (((collect s.queues entities).2 entity).map Registered.number).Nodup
    rw [collect_snd]
    split
    · exact List.nodup_nil
    · exact h.queue entity
  apart first second hne r hr q hq :=
    h.apart first second hne r (mem_drained hr).2 q (mem_drained hq).2
  new entity r hr := h.new entity r (mem_drained hr).2
  once := h.once

theorem Distinct.hand (h : Distinct handed s) (entities : List Nat) :
    Distinct (handed ++ entities.eraseDups.flatMap s.queues)
      { s with queues := (collect s.queues entities).2 } := by
  have hdrained := h.drain entities
  have hcollected : ∀ r ∈ entities.eraseDups.flatMap s.queues,
      ∃ entity ∈ entities, r ∈ s.queues entity := by
    intro r hr
    obtain ⟨entity, hentity, hr⟩ := List.mem_flatMap.mp hr
    exact ⟨entity, List.mem_eraseDups.mp hentity, hr⟩
  exact {
    queued := hdrained.queued
    known := fun r hr => by
      rcases List.mem_append.mp hr with hold | hnew
      · exact h.known r hold
      · obtain ⟨entity, -, hr⟩ := hcollected r hnew
        exact h.queued entity r hr
    queue := hdrained.queue
    apart := hdrained.apart
    new := fun other r hr q hq => by
      rcases List.mem_append.mp hq with hold | hnew
      · exact hdrained.new other r hr q hold
      · obtain ⟨entity, hentity, hq⟩ := hcollected q hnew
        obtain ⟨hother, hr⟩ := mem_drained hr
        exact h.apart other entity (fun heq => hother (heq ▸ hentity)) r hr q hq
    once := by
      rw [List.map_append, List.nodup_append]
      refine ⟨h.once, h.flatMap (nodup_eraseDups entities), ?_⟩
      intro number hnumber other hother heq
      obtain ⟨q, hq, rfl⟩ := List.mem_map.mp hnumber
      obtain ⟨r, hr, rfl⟩ := List.mem_map.mp hother
      obtain ⟨entity, -, hr⟩ := hcollected r hr
      exact h.new entity r hr q hq heq.symm }

theorem handed_dispatch (outcomes : Outcomes) (eventStore : Bool) (collected : List (Collected E)) :
    (dispatch outcomes eventStore collected).flatMap Action.handed = collected.map Prod.fst ∨
      (dispatch outcomes eventStore collected).flatMap Action.handed = [] := by
  by_cases hpublish : ∃ events outcome,
      .publish events outcome ∈ dispatch outcomes eventStore collected
  · obtain ⟨events, outcome, hmem⟩ := hpublish
    obtain ⟨-, rfl, hactions⟩ := dispatch_of_publish hmem
    rw [hactions]
    cases eventStore <;> simp [Action.handed]
  · right
    rw [List.flatMap_eq_nil_iff]
    intro action haction
    cases action with
    | publish events outcome => exact absurd ⟨events, outcome, haction⟩ hpublish
    | _ => rfl

theorem Distinct.call (h : Distinct handed s) (eventStore : Bool) (entities : List Nat)
    (outcomes : Outcomes) :
    Distinct (handed ++
      (dispatch outcomes eventStore (collect s.queues entities).1).flatMap Action.handed)
      { s with queues := (collect s.queues entities).2 } := by
  rcases handed_dispatch outcomes eventStore (collect s.queues entities).1 with hall | hnone
  · rw [hall, collect_events]
    exact h.hand entities
  · rw [hnone, List.append_nil]
    exact h.drain entities

theorem distinct_after (ops : List (Op E)) :
    Distinct ((machine.emitted machine.init ops).flatMap Action.handed)
      (machine.after machine.init ops) := by
  induction ops using List.reverseRecOn with
  | nil => constructor <;> simp [machine]
  | append_singleton past op ih =>
    rw [Machine.emitted_concat, Machine.after_concat, List.flatMap_append]
    cases op with
    | register entity event => exact (List.append_nil _).symm ▸ ih.register entity event
    | call eventStore entities outcomes => exact ih.call eventStore entities outcomes

/-- An entity's queue holds what has been registered since it was last passed. -/
theorem queue_eq_pending (ops : List (Op E)) (entity : Nat) :
    ((machine.after machine.init ops).queues entity).map Registered.event = pending ops entity := by
  induction ops using List.reverseRecOn with
  | nil => rfl
  | append_singleton past op ih =>
    rw [Machine.after_concat, pending, List.foldl_append, ← pending, ← ih]
    cases op with
    | register other event =>
      by_cases hother : entity = other
      · simp [machine, step, Op.pending, hother]
      · simp [machine, step, Op.pending, hother, Ne.symm hother]
    | call eventStore entities outcomes =>
      change ((collect _ entities).2 entity).map Registered.event = _
      rw [collect_snd]
      split
      case isTrue hmem => simp [Op.pending, hmem]
      case isFalse hmem => simp [Op.pending, hmem]

theorem collected_events (past : List (Op E)) (entities : List Nat) :
    (((collect (machine.after machine.init past).queues entities).1.map Prod.fst).map
      Registered.event) = waiting past entities := by
  rw [collect_events, List.map_flatMap]
  exact List.flatMap_congr fun entity _ => queue_eq_pending past entity

section outcomes
variable {outcomes : Outcomes} {eventStore : Bool} {collected : List (Collected E)}

theorem dispatch_of_recorded (h : Recorded eventStore outcomes collected) :
    dispatch outcomes eventStore collected =
      (if eventStore && !collected.isEmpty then [.recordAll collected .returned] else []) ++
        commit outcomes collected := by
  unfold dispatch
  split
  case isTrue hstore =>
    obtain ⟨hconfigured, hnonempty⟩ := Bool.and_eq_true_iff.mp hstore
    rw [h hconfigured (by simpa using hnonempty)]
    rfl
  case isFalse hstore => rfl

theorem filter_rollback : (rollback (E := E) outcomes).filter Action.isPublish = [] := by
  simp [rollback, Action.isPublish]

theorem rollback_getLast? (actions : List (Action E)) :
    ∃ outcome, outcome ≠ .returned ∧
      (actions ++ rollback outcomes).getLast? = some (.finished outcome) := by
  refine ⟨if outcomes.rollback = .returned then .raised else outcomes.rollback, ?_, ?_⟩
  · split
    · decide
    · assumption
  · rw [List.getLast?_append]
    rfl

theorem dispatch_publishes (h : Recorded eventStore outcomes collected)
    (hcommit : outcomes.commit = .returned) (hnonempty : collected ≠ []) :
    (dispatch outcomes eventStore collected).filter Action.isPublish =
      [.publish (collected.map Prod.fst) outcomes.publisher] := by
  have hfull : collected.isEmpty = false := by simpa using hnonempty
  rw [dispatch_of_recorded h, List.filter_append]
  simp only [commit, hcommit, attempt, publish, hfull]
  cases eventStore <;> rfl

theorem dispatch_rollsBack
    (h : (eventStore = true ∧ collected ≠ [] ∧ outcomes.recordAll = .raised) ∨
      (Recorded eventStore outcomes collected ∧ outcomes.commit = .raised)) :
    ∃ actions, dispatch outcomes eventStore collected = actions ++ rollback outcomes ∧
      actions.filter Action.isPublish = [] := by
  rcases h with ⟨hstore, hnonempty, hraised⟩ | ⟨hrecorded, hraised⟩
  · refine ⟨[.recordAll collected .raised], ?_, rfl⟩
    simp [dispatch, hstore, hnonempty, hraised, attempt]
  · refine ⟨(if eventStore && !collected.isEmpty then [.recordAll collected .returned] else []) ++
      [.commit .raised], ?_, ?_⟩
    · rw [dispatch_of_recorded hrecorded, commit, hraised, List.append_assoc]
      rfl
    · split <;> rfl

end outcomes

theorem does_dispatched (past : List (Op E)) (eventStore : Bool) (entities : List Nat)
    (outcomes : Outcomes) :
    Does past eventStore entities outcomes
      (dispatched past (.call eventStore entities outcomes)) := by
  have hactions : dispatched past (.call eventStore entities outcomes) = dispatch outcomes
      eventStore (collect (machine.after machine.init past).queues entities).1 := rfl
  have hevents := collected_events past entities
  generalize (collect (machine.after machine.init past).queues entities).1 = collected at *
  have hempty : waiting past entities = [] ↔ collected = [] := by
    rw [← hevents, List.map_eq_nil_iff, List.map_eq_nil_iff]
  have hrecorded : Recorded eventStore outcomes (waiting past entities) ↔
      Recorded eventStore outcomes collected := by
    unfold Recorded
    rw [ne_eq, ne_eq, hempty]
  rw [hactions]
  constructor
  · intro hstore hwaiting
    refine ⟨collected, hevents, ?_⟩
    have hnonempty : collected ≠ [] := fun hnil => hwaiting (hempty.mpr hnil)
    simp [dispatch, hstore, hnonempty]
  · intro h
    rw [dispatch_of_recorded (hrecorded.mp h)]
    exact List.mem_append_right _ List.mem_cons_self
  · intro h hcommit hwaiting
    exact ⟨_, hevents, dispatch_publishes (hrecorded.mp h) hcommit fun hnil =>
      hwaiting (hempty.mpr hnil)⟩
  · rw [hrecorded, ne_eq, hempty]
    intro h
    obtain ⟨actions, hsplit, hunpublished⟩ := dispatch_rollsBack h
    rw [hsplit]
    refine ⟨List.mem_append_right _ List.mem_cons_self, rollback_getLast? actions, ?_⟩
    rw [List.filter_append, hunpublished, filter_rollback, List.append_nil]

theorem published_after_commit (ops : List (Op E)) : PublishedAfterCommit ops := by
  constructor
  · intro past eventStore entities outcomes rest _
    exact does_dispatched past eventStore entities outcomes
  · intro past eventStore entities outcomes rest _ before events outcome behind hsplit
    have hmem : .publish events outcome ∈
        dispatched past (.call eventStore entities outcomes) := by simp [hsplit]
    obtain ⟨hnonempty, hevents, hactions⟩ := dispatch_of_publish hmem
    have hsame := hactions.symm.trans hsplit
    rw [List.append_cons, List.append_cons_inj_of_notMem (by cases eventStore <;> simp) (by simp)]
      at hsame
    rw [← hsame.1]
    refine ⟨List.mem_append_right _ List.mem_cons_self, fun hstore _ => ?_⟩
    rw [if_pos hstore]
    exact ⟨_, [], [.commit .returned], rfl, hevents.symm, List.mem_cons_self⟩
  · intro past eventStore entities outcomes rest _ events outcome hmem
    obtain ⟨-, hevents, -⟩ := dispatch_of_publish hmem
    rw [hevents]
    exact collected_events past entities
  · exact (distinct_after ops).once
  · rintro past eventStore entities outcomes rest _ actions rfl hraised
    obtain ⟨actions, hactions, hunfinished, hunpublished⟩ := dispatch_of_raised hraised
    have hmem : ∀ action, action ∈ dispatched past (.call eventStore entities outcomes) ↔
        action ∈ actions ∨ action ∈ rollback outcomes := by
      intro action
      rw [← List.mem_append, ← hactions]
      rfl
    refine ⟨⟨_, (hmem _).mpr (.inr List.mem_cons_self)⟩,
      ⟨_, (hmem _).mpr (.inr (List.mem_cons_of_mem _ List.mem_cons_self))⟩, ?_, ?_⟩
    · intro hfinished
      rcases (hmem _).mp hfinished with hearlier | hlast
      · exact hunfinished _ hearlier
      · by_cases hreturned : outcomes.rollback = .returned
        · simp [rollback, hreturned] at hlast
        · simp [rollback, hreturned, Ne.symm hreturned] at hlast
    · intro events outcome hpublish
      rcases (hmem _).mp hpublish with hearlier | hlast
      · exact hunpublished _ _ hearlier
      · exact publish_notMem_rollback hlast

end runs

section failure
variable {s : State E} {eventStore : Bool} {entities : List Nat} {outcomes : Outcomes}

abbrev called (s : State E) (eventStore : Bool) (entities : List Nat) (outcomes : Outcomes) :
    List (Action E) :=
  (step s (.call eventStore entities outcomes)).2

def Raises (s : State E) (eventStore : Bool) (entities : List Nat) (outcomes : Outcomes) : Prop :=
  (∃ collected, .recordAll collected .raised ∈ called s eventStore entities outcomes) ∨
    .commit .raised ∈ called s eventStore entities outcomes

/-- A call rolls back and leaves every queue as it was, so that the same call again, where it
records and commits, does what it would have done at first. -/
structure KeepsEvents (s : State E) (eventStore : Bool) (entities : List Nat)
    (outcomes : Outcomes) : Prop where
  rolledBack : ∃ outcome, .rollback outcome ∈ called s eventStore entities outcomes
  queues : (step s (.call eventStore entities outcomes)).1.queues = s.queues
  retried : ∀ retry : Outcomes, retry.recordAll = .returned → retry.commit = .returned →
    called (step s (.call eventStore entities outcomes)).1 eventStore entities retry =
      called s eventStore entities retry

theorem collect_snd_eq_iff {queues : Nat → List (Registered E)} :
    (collect queues entities).2 = queues ↔ ∀ entity ∈ entities, queues entity = [] := by
  rw [funext_iff]
  simp only [collect_snd]
  constructor
  · intro h entity hentity
    rw [← h entity, if_pos hentity]
  · intro h entity
    split
    case isTrue hentity => exact (h entity hentity).symm
    case isFalse => rfl

/-- What a failed call leaves of the events of its entities: nothing, unless there were none;
the same call again neither records nor publishes. -/
structure DropsEvents (s : State E) (eventStore : Bool) (entities : List Nat)
    (outcomes : Outcomes) : Prop where
  rolledBack : ∃ outcome, .rollback outcome ∈ called s eventStore entities outcomes
  unpublished : ∀ events outcome, .publish events outcome ∉ called s eventStore entities outcomes
  queues : ∀ entity, (step s (.call eventStore entities outcomes)).1.queues entity =
    if entity ∈ entities then [] else s.queues entity
  silent : ∀ retry actions,
    called (step s (.call eventStore entities outcomes)).1 eventStore entities retry = actions →
    (∀ collected outcome, .recordAll collected outcome ∉ actions) ∧
      ∀ events outcome, .publish events outcome ∉ actions
  kept_iff : KeepsEvents s eventStore entities outcomes ↔
    ∀ entity ∈ entities, s.queues entity = []

theorem collect_drained :
    (collect (step s (.call eventStore entities outcomes)).1.queues entities).1 = [] := by
  rw [collect_fst, List.flatMap_eq_nil_iff]
  intro entity hentity
  change ((collect s.queues entities).2 entity).map _ = []
  rw [collect_snd, if_pos (List.mem_eraseDups.mp hentity), List.map_nil]

theorem keepsEvents_iff (h : ∃ outcome, .rollback outcome ∈ called s eventStore entities outcomes) :
    KeepsEvents s eventStore entities outcomes ↔ ∀ entity ∈ entities, s.queues entity = [] := by
  constructor
  · intro hkeeps
    exact collect_snd_eq_iff.mp hkeeps.queues
  · intro hnone
    have hqueues := collect_snd_eq_iff.mpr hnone
    have hsame : (step s (.call eventStore entities outcomes)).1 = s := by
      rw [step, hqueues]
    exact ⟨h, hqueues, fun retry _ _ => by rw [hsame]⟩

/-- A call in which `record_all` or `commit` raises drops the events it has collected. -/
theorem failedCall_drops (h : Raises s eventStore entities outcomes) :
    DropsEvents s eventStore entities outcomes := by
  obtain ⟨actions, hactions, -, hunpublished⟩ := dispatch_of_raised h
  have hcalled : called s eventStore entities outcomes = actions ++ rollback outcomes := hactions
  have hrolledBack : ∃ outcome, .rollback outcome ∈ called s eventStore entities outcomes :=
    ⟨outcomes.rollback, by simp [hcalled, rollback]⟩
  refine ⟨hrolledBack, ?_, fun entity => collect_snd entity, ?_, keepsEvents_iff hrolledBack⟩
  · intro events outcome hmem
    rw [hcalled, List.mem_append] at hmem
    exact hmem.elim (hunpublished events outcome) publish_notMem_rollback
  · rintro retry _ rfl
    have hnone : called (step s (.call eventStore entities outcomes)).1 eventStore entities retry =
        commit retry [] := by
      change dispatch retry eventStore (collect _ entities).1 = _
      rw [collect_drained]
      simp [dispatch]
    rw [hnone]
    refine ⟨fun collected outcome => recordAll_notMem_commit, fun events outcome hmem => ?_⟩
    exact (publish_mem_publish.mp (publish_mem_commit.mp hmem).2).1 rfl

def oneWaits : State String :=
  ⟨fun entity => if entity = 0 then [⟨0, "OrderPlaced"⟩] else [], 1⟩

theorem failedCall_drops_oneWaits : DropsEvents oneWaits true [0, 1] { commit := .raised } :=
  failedCall_drops (.inr (by decide))

/-- The event is drained from its queue before the commit fails. -/
theorem oneWaits_not_kept : Raises oneWaits true [0, 1] { commit := .raised } ∧
    ¬KeepsEvents oneWaits true [0, 1] { commit := .raised } := by
  refine ⟨.inr (by decide), ?_⟩
  intro hkeeps
  have hqueue := congrFun hkeeps.queues 0
  exact absurd hqueue (by decide)

end failure
end DddFramework.Events
