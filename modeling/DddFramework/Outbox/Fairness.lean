import DddFramework.Outbox.Lifecycle
import Mathlib.Algebra.BigOperators.Group.Finset.Basic
import Mathlib.Algebra.Order.BigOperators.Group.Finset
import Mathlib.Data.List.Flatten
import Mathlib.Data.List.TakeWhile

/-! No message that is due is passed over for ever. `acquire` scans by time of availability
and id, so that a run which leaves a free message out has a full batch of messages ahead of
it, and each of those is attempted a bounded number of times. -/
namespace DddFramework.Outbox
open Library

variable {J E : Type}

def OutboxMessage.Before (row other : OutboxMessage J) : Prop :=
  row.availableAt < other.availableAt ∨ row.availableAt = other.availableAt ∧ row.id < other.id

instance (row other : OutboxMessage J) : Decidable (row.Before other) :=
  inferInstanceAs (Decidable (_ ∨ _ ∧ _))

theorem OutboxMessage.Before.of_not {row other : OutboxMessage J} (hid : row.id ≠ other.id)
    (h : ¬ other.Before row) : row.Before other := by
  unfold Before at h ⊢
  omega

def Event.begins (w : Nat) : Event J → Bool
  | .begin run _ => run = w
  | _ => false

def sinceBegin (w : Nat) (trail : List (State J × Event J)) : List (State J × Event J) :=
  trail.dropWhile fun x => !x.2.begins w

/-- A row that is deliverable to a run and has been free ever since the run began. -/
structure FreeSince (trail : List (State J × Event J)) (s : State J) (w : Nat)
    (row : OutboxMessage J) : Prop where
  deliverable : row.Deliverable (s.runs w).startedAt
  before : ∀ x ∈ sinceBegin w trail, x.1.table row.id = some row ∧ x.1.locks row.id = none
  now : s.table row.id = some row ∧ s.locks row.id = none

def Locks (config : OutboxConfig) (s : State J) (w id : Nat) : Prop :=
  (s.runs w).phase = .acquiring ∧ (s.runs w).tasks.length < config.batchSize ∧
    s.locks id = none ∧ ∃ row, s.table id = some row ∧ row.Deliverable (s.runs w).startedAt

/-- What PostgreSQL documents of `ORDER BY ... LIMIT ... FOR UPDATE SKIP LOCKED`. A row that is
locked was found deliverable after the run had begun, ahead of every row that has been free
since; and the scan ends with a full batch, or when no such row is left. -/
def ScansInOrder (config : OutboxConfig) (deserializeEvent : String → J → Except String E)
    (past : List (Event J)) (s : State J) : Event J → Prop
  | .lock w id =>
    let trail := (defaultMachine config deserializeEvent).steps .init past
    Locks config s w id →
      ∃ seen ∈ (sinceBegin w trail).map Prod.fst ++ [s], ∃ row, seen.table id = some row ∧
        row.Deliverable (s.runs w).startedAt ∧
        ∀ other, FreeSince trail s w other → ¬ other.Before row
  | .acquired w =>
    let trail := (defaultMachine config deserializeEvent).steps .init past
    (s.runs w).phase = .acquiring →
      (s.runs w).tasks.length = config.batchSize ∨ ∀ row, ¬ FreeSince trail s w row
  | _ => True

def commits (x : State J × Event J) : Option Nat :=
  match x.2 with
  | .commit w => if (x.1.runs w).phase = .saved then some w else none
  | .acquired w =>
    if (x.1.runs w).phase = .acquiring ∧ (x.1.runs w).tasks = [] then some w else none
  | _ => none

def delivered (x : State J × Event J) : List Nat :=
  match commits x with
  | some w => (x.1.runs w).tasks.map (·.message.id)
  | none => []

/-! How often a message is attempted. -/
section attempts
variable {config : OutboxConfig} {deserializeEvent : String → J → Except String E}
  {count : Nat → Nat} {times : List Int} {s s' : State J} {event : Event J}
  {out more : List (Effect E)}

/-- Deliveries of a message so far, and its row. -/
structure Counted (config : OutboxConfig) (deliveries : Nat → Nat) (table : Table J) : Prop where
  absent : ∀ id, table id = none → deliveries id = 0
  pending : ∀ id row, table id = some row → row.status = .pending → deliveries id = row.attempts
  bound : ∀ id, deliveries id ≤ config.maxAttempts

theorem Counted.insert {deliveries : Nat → Nat} (h : Counted config deliveries s.table)
    {row : OutboxMessage J} (hfresh : s.table row.id = none) (hunsent : row.Unsent) :
    Counted config deliveries (s.insert row).table where
  absent id hnone := by
    by_cases hid : id = row.id
    · rw [hid, s.insert_self] at hnone
      cases hnone
    · exact h.absent id ((s.insert_of_ne _ hid).symm.trans hnone)
  pending id found hfound hpending := by
    by_cases hid : id = row.id
    · rw [hid, s.insert_self] at hfound
      rw [hid, h.absent _ hfresh, ← Option.some.inj hfound, hunsent.1]
    · exact h.pending id found ((s.insert_of_ne _ hid).symm.trans hfound) hpending
  bound := h.bound

theorem Copies.attempts_of_pending {startedAt : Int} {row : OutboxMessage J} {task : Task J}
    (hcopy : Copies config startedAt row task) (hdone : task.stage = .done)
    (hpending : task.message.status = .pending) : task.message.attempts = row.attempts + 1 := by
  obtain ⟨hnot, -⟩ | ⟨now, -, -, hmessage | ⟨error, hmessage⟩⟩ := hcopy
  · exact absurd hdone hnot
  · rw [hmessage] at hpending
    cases (OutboxMessage.status_eq_pending.mp hpending).1
  · rw [hmessage, attempts_markFailed]

theorem Lived.attempts_lt {row : OutboxMessage J} {id : Nat} (h : Lived config count times s)
    (hrow : s.table id = some row) {now : Int} (hdeliverable : row.Deliverable now) :
    row.attempts < config.maxAttempts := by
  have hlawful := h.rows id row hrow
  have hlast : row.attempts ≠ config.maxAttempts :=
    fun heq => hlawful.failed.mpr heq hdeliverable.2.1
  have hbound := hlawful.bound
  omega

theorem Counted.commit {deliveries : Nat → Nat} (h : Counted config deliveries s.table)
    (hlived : Lived config count times s) {w : Nat} (hphase : (s.runs w).phase = .saved) :
    Counted config
      (fun id => deliveries id + ((s.runs w).tasks.map (·.message.id)).count id)
      (s.table.saveAll (s.runs w).batch) := by
  have hrun := hlived.runs w
  have hnone : ∀ id, id ∉ (s.runs w).tasks.map (·.message.id) →
      deliveries id + ((s.runs w).tasks.map (·.message.id)).count id = deliveries id ∧
        s.table.saveAll (s.runs w).batch id = s.table id := by
    intro id hid
    refine ⟨by rw [List.count_eq_zero.mpr hid, Nat.add_zero], saveAll_batch_of_ne ?_⟩
    exact fun task htask heq => hid (heq ▸ List.mem_map_of_mem htask)
  have hmem : ∀ id, id ∈ (s.runs w).tasks.map (·.message.id) → ∃ task ∈ (s.runs w).tasks,
      s.table.saveAll (s.runs w).batch id = some task.message ∧
      (task.message.status = .pending → deliveries id + 1 = task.message.attempts) ∧
      deliveries id + 1 ≤ config.maxAttempts := by
    intro id hid
    obtain ⟨task, htask, rfl⟩ := List.mem_map.mp hid
    obtain ⟨row, hrow, hdeliverable, hcopy, hsaved⟩ := hrun.saved hphase htask
    have hcount := h.pending _ row hrow hdeliverable.pending
    have hlt := hlived.attempts_lt hrow hdeliverable
    refine ⟨task, htask, hsaved, ?_, by omega⟩
    intro hpending
    rw [hcopy.attempts_of_pending (hrun.complete hphase task htask) hpending, hcount]
  have hone : ∀ id, id ∈ (s.runs w).tasks.map (·.message.id) →
      ((s.runs w).tasks.map (·.message.id)).count id = 1 :=
    fun id hid => List.count_eq_one_of_mem hrun.ids hid
  constructor
  · intro id hrow
    by_cases hid : id ∈ (s.runs w).tasks.map (·.message.id)
    · obtain ⟨task, -, hsaved, -⟩ := hmem id hid
      rw [hsaved] at hrow
      cases hrow
    · rw [(hnone id hid).2] at hrow
      exact (hnone id hid).1.trans (h.absent id hrow)
  · intro id row hrow hpending
    by_cases hid : id ∈ (s.runs w).tasks.map (·.message.id)
    · obtain ⟨task, -, hsaved, hattempts, -⟩ := hmem id hid
      obtain rfl := Option.some.inj (hsaved.symm.trans hrow)
      rw [hone id hid]
      exact hattempts hpending
    · rw [(hnone id hid).2] at hrow
      exact (hnone id hid).1.trans (h.pending id row hrow hpending)
  · intro id
    by_cases hid : id ∈ (s.runs w).tasks.map (·.message.id)
    · obtain ⟨task, -, -, -, hbound⟩ := hmem id hid
      rw [hone id hid]
      exact hbound
    · exact (hnone id hid).1.le.trans (h.bound id)

theorem Counted.step {deliveries : Nat → Nat} (h : Counted config deliveries s.table)
    (hlived : Lived config count times s) (hinsert : ∀ row, event = .insert row → row.Unsent) :
    Counted config (fun id => deliveries id + (delivered (s, event)).count id)
      (step config exponentialRetryPolicy deserializeEvent s event).1.table := by
  have hnothing : ∀ table : Table J, table = s.table → delivered (s, event) = [] →
      Counted config (fun id => deliveries id + (delivered (s, event)).count id) table := by
    rintro table rfl hnone
    simpa [hnone] using h
  cases event with
  | insert row =>
    simp only [step]
    split
    · rename_i hfresh
      simpa [delivered, commits] using h.insert hfresh (hinsert row rfl)
    · exact hnothing _ rfl rfl
  | begin w now =>
    simp only [step]
    split <;> exact hnothing _ rfl rfl
  | lock w id =>
    refine hnothing _ ?_ rfl
    simp only [step, lockRow]
    split
    · rfl
    · split <;> rfl
  | acquired w =>
    have hempty : delivered (s, Event.acquired (J := J) w) = [] := by
      simp only [delivered, commits]
      split
      · rename_i v hv
        split at hv
        · rename_i hboth
          rw [← Option.some.inj hv, hboth.2]
          rfl
        · cases hv
      · rfl
    refine hnothing _ ?_ hempty
    simp only [step]
    split
    · split <;> rfl
    · rfl
  | start w id now =>
    refine hnothing _ ?_ rfl
    simp only [step, startTask]
    split
    · rfl
    · split <;> rfl
  | finish w id outcome now =>
    refine hnothing _ ?_ rfl
    simp only [step, finishTask]
    split
    · rfl
    · split <;> rfl
  | saveAll w =>
    simp only [step]
    split <;> exact hnothing _ rfl rfl
  | commit w =>
    simp only [step]
    by_cases hphase : (s.runs w).phase = .saved
    · rw [if_pos hphase]
      have hcommit := h.commit hlived hphase
      simp only [delivered, commits, if_pos hphase]
      exact hcommit
    · rw [if_neg hphase]
      exact hnothing _ rfl (by simp [delivered, commits, hphase])
  | rollback w =>
    simp only [step]
    split <;> exact hnothing _ rfl rfl
  | crash w =>
    simp only [step]
    split <;> exact hnothing _ rfl rfl

def deliveries (config : OutboxConfig) (deserializeEvent : String → J → Except String E)
    (s : State J) (events : List (Event J)) : List Nat :=
  ((defaultMachine config deserializeEvent).steps s events).flatMap delivered

theorem counted_after {events : List (Event J)} (h : Orderly events) :
    Counted config (fun id => (deliveries config deserializeEvent .init events).count id)
      (reached config deserializeEvent events).table := by
  induction events using List.reverseRecOn with
  | nil => exact ⟨fun _ _ => rfl, fun id row hrow => (by cases hrow), fun _ => Nat.zero_le _⟩
  | append_singleton past event ih =>
    have hstep := @Counted.step _ _ config deserializeEvent _ _ _ _ _ (ih h.before)
      (lived_after h.before) h.last.1
    rw [reached_concat]
    unfold deliveries
    rw [Machine.steps_concat, List.flatMap_append]
    simpa [deliveries, List.count_append] using hstep

end attempts

/-! Messages that stay free while others are delivered. -/
section fairness
variable {config : OutboxConfig} {deserializeEvent : String → J → Except String E}
  {s s' : State J} {event : Event J} {out more : List (Effect E)} {past since : List (Event J)}

theorem acts_free (hacts : Acts config exponentialRetryPolicy deserializeEvent s event s' more)
    (h : Consistent out s) {id : Nat} {row : OutboxMessage J}
    (hfree : s.table id = some row ∧ s.locks id = none) (hnever : ∀ w, .acquired w id ∉ more) :
    s'.table id = some row ∧ s'.locks id = none := by
  have hreleased : ∀ w, (s.release w).locks id = none := by
    intro w
    simp only [State.release, hfree.2, ite_self]
  cases hacts with
  | idle => exact hfree
  | inserted hfresh => exact ⟨s.insert_of_some hfresh hfree.1, hfree.2⟩
  | begun hphase => exact hfree
  | @locked w other found =>
    have hne : id ≠ other := by
      rintro rfl
      exact hnever w (by simp)
    exact ⟨hfree.1, (Function.update_of_ne hne _ _).trans hfree.2⟩
  | foundNone => exact ⟨hfree.1, hreleased _⟩
  | foundSome => exact hfree
  | started => exact hfree
  | finished => exact hfree
  | saved => exact hfree
  | @committed w hphase =>
    refine ⟨?_, hreleased w⟩
    refine (saveAll_batch_of_ne ?_).trans hfree.1
    intro task htask hid
    have hheld := (h.runs w).held (live_of_saved hphase) task htask
    rw [hid, hfree.2] at hheld
    cases hheld
  | rolledBack => exact ⟨hfree.1, hreleased _⟩
  | crashed => exact ⟨hfree.1, hreleased _⟩

theorem after_free {id : Nat} {row : OutboxMessage J}
    (hfree : (reached config deserializeEvent past).table id = some row ∧
      (reached config deserializeEvent past).locks id = none)
    (hnever : ∀ w, .acquired w id ∉
      (defaultMachine config deserializeEvent).emitted
        (reached config deserializeEvent past) since) :
    (reached config deserializeEvent (past ++ since)).table id = some row ∧
      (reached config deserializeEvent (past ++ since)).locks id = none := by
  induction since using List.reverseRecOn with
  | nil => rwa [List.append_nil]
  | append_singleton since event ih =>
    rw [Machine.emitted_concat, ← Machine.after_append] at hnever
    have hbefore := ih fun w hmem => hnever w (List.mem_append_left _ hmem)
    rw [← List.append_assoc, reached_concat]
    exact acts_free (step_acts config exponentialRetryPolicy deserializeEvent _ event)
      (consistent_after (past ++ since)) hbefore
      fun w hmem => hnever w (List.mem_append_right _ hmem)

def passesOver (start : State J) (message : OutboxMessage J) (x : State J × Event J) : Bool :=
  match commits x with
  | some w => (start.runs w).phase = .unstarted ∧ message.availableAt ≤ (x.1.runs w).startedAt
  | none => false

theorem acts_started (hacts : Acts config exponentialRetryPolicy deserializeEvent s event s' more)
    {w : Nat} (h : (s.runs w).phase ≠ .unstarted) : (s'.runs w).phase ≠ .unstarted := by
  have hset : ∀ (t : State J) (v : Nat) (run : Run J), t.runs = s.runs →
      (v = w → run.phase ≠ .unstarted) → ((t.setRun v run).runs w).phase ≠ .unstarted := by
    intro t v run hruns hrun
    by_cases hv : w = v
    · rw [hv, State.setRun_self]
      exact hrun hv.symm
    · rwa [State.setRun_of_ne _ hv, hruns]
  have hmoved : ∀ (v id : Nat) (next : Task J), v = w →
      ((s.runs v).setTask id next).phase ≠ .unstarted := by
    rintro v id next rfl
    simp only [Run.setTask]
    split
    · decide
    · exact h
  cases hacts with
  | idle => exact h
  | inserted => exact h
  | begun => exact hset s _ _ rfl fun _ => by simp
  | @locked v id row hphase =>
    apply hset (s.lock v id) _ _ rfl
    rintro rfl
    rw [hphase]
    decide
  | foundNone => exact hset (s.release _) _ _ rfl fun _ => by simp
  | foundSome => exact hset s _ _ rfl fun _ => by simp
  | started => exact hset s _ _ rfl (hmoved _ _ _)
  | finished => exact hset s _ _ rfl (hmoved _ _ _)
  | saved => exact hset s _ _ rfl fun _ => by simp
  | committed => exact hset ((s.release _).save _) _ _ rfl fun _ => by simp
  | rolledBack => exact hset (s.release _) _ _ rfl fun _ => by simp
  | crashed => exact hset (s.release _) _ _ rfl fun _ => by simp

theorem not_begins {w : Nat}
    (h : ((reached config deserializeEvent past).runs w).phase = .unstarted) :
    ∀ event ∈ past, event.begins w = false := by
  induction past using List.reverseRecOn with
  | nil => simp
  | append_singleton past event ih =>
    rw [reached_concat] at h
    have hbefore : ((reached config deserializeEvent past).runs w).phase = .unstarted := by
      by_contra hstarted
      exact acts_started (step_acts config exponentialRetryPolicy deserializeEvent _ event)
        hstarted h
    rw [List.forall_mem_append, List.forall_mem_singleton]
    refine ⟨ih hbefore, ?_⟩
    cases event with
    | begin run now =>
      by_contra hbegins
      have hrun : run = w := by simpa [Event.begins] using hbegins
      subst hrun
      simp [step, hbefore] at h
    | _ => rfl

theorem mem_sinceBegin {w : Nat}
    (h : ((reached config deserializeEvent past).runs w).phase = .unstarted)
    {x : State J × Event J}
    (hx : x ∈ sinceBegin w ((defaultMachine config deserializeEvent).steps .init (past ++ since))) :
    ∃ before, before <+: since ∧ x.1 = reached config deserializeEvent (past ++ before) := by
  have hpast : ((defaultMachine config deserializeEvent).steps .init past).dropWhile
      (fun x => !x.2.begins w) = [] := by
    rw [List.dropWhile_eq_nil_iff]
    intro y hy
    obtain ⟨before, rest, rfl, -⟩ := (Machine.mem_steps _).mp hy
    simp [not_begins h y.2 (by simp)]
  rw [sinceBegin, Machine.steps_append, List.dropWhile_append, hpast] at hx
  have hmem := (List.dropWhile_sublist _).subset hx
  obtain ⟨before, rest, rfl, hstate⟩ := (Machine.mem_steps _).mp hmem
  exact ⟨before, List.prefix_append _ _, hstate.trans (Machine.after_append ..).symm⟩

/-- Runs that begin when a message is due take only messages that are ahead of it, and go on
with a full batch. -/
def Overtaking (config : OutboxConfig) (start : State J) (message : OutboxMessage J)
    (ahead : Finset Nat) (s : State J) : Prop :=
  ∀ w, (start.runs w).phase = .unstarted → message.availableAt ≤ (s.runs w).startedAt →
    (∀ id ∈ (s.runs w).tasks.map (·.message.id), id ∈ ahead) ∧
    ((s.runs w).phase = .publishing ∨ (s.runs w).phase = .saved →
      (s.runs w).tasks.length = config.batchSize)

theorem Overtaking.setRun {start : State J} {message : OutboxMessage J} {ahead : Finset Nat}
    (h : Overtaking config start message ahead s) {t : State J} (hruns : t.runs = s.runs) {w : Nat}
    {run : Run J}
    (hrun : (start.runs w).phase = .unstarted → message.availableAt ≤ run.startedAt →
      (∀ id ∈ run.tasks.map (·.message.id), id ∈ ahead) ∧
      (run.phase = .publishing ∨ run.phase = .saved → run.tasks.length = config.batchSize)) :
    Overtaking config start message ahead (t.setRun w run) := by
  intro v hunstarted hdue
  by_cases hv : v = w
  · subst hv
    rw [State.setRun_self] at hdue ⊢
    exact hrun hunstarted hdue
  · rw [State.setRun_of_ne _ hv, hruns] at hdue ⊢
    exact h v hunstarted hdue

theorem Overtaking.setTask {start : State J} {message : OutboxMessage J} {ahead : Finset Nat}
    (h : Overtaking config start message ahead s) {w id : Nat} {task next : Task J}
    (htask : (s.runs w).task? id = some task) (hnext : next.message.id = task.message.id) :
    Overtaking config start message ahead (s.setRun w ((s.runs w).setTask id next)) := by
  apply h.setRun rfl
  intro hunstarted hdue
  obtain ⟨hids, hfull⟩ := h w hunstarted hdue
  have hsame : ((s.runs w).setTask id next).tasks.map (·.message.id) =
      (s.runs w).tasks.map (·.message.id) := ids_setTask (hnext.trans (task?_spec htask).2)
  refine ⟨by rwa [hsame], ?_⟩
  intro hphase
  have hlength := congrArg List.length hsame
  rw [List.length_map, List.length_map] at hlength
  rw [hlength]
  apply hfull
  simp only [Run.setTask] at hphase
  split at hphase
  · simp at hphase
  · exact hphase

theorem Overtaking.phase {start : State J} {message : OutboxMessage J} {ahead : Finset Nat}
    (h : Overtaking config start message ahead s) {t : State J} (hruns : t.runs = s.runs) {w : Nat}
    {phase : Phase}
    (hphase : phase = .publishing ∨ phase = .saved →
      (s.runs w).phase = .publishing ∨ (s.runs w).phase = .saved ∨
        ((start.runs w).phase = .unstarted → message.availableAt ≤ (s.runs w).startedAt →
          (s.runs w).tasks.length = config.batchSize)) :
    Overtaking config start message ahead (t.setRun w { s.runs w with phase := phase }) := by
  apply h.setRun hruns
  intro hunstarted hdue
  obtain ⟨hids, hfull⟩ := h w hunstarted hdue
  refine ⟨hids, ?_⟩
  intro hnow
  rcases hphase hnow with hbefore | hbefore | hlength
  · exact hfull (.inl hbefore)
  · exact hfull (.inr hbefore)
  · exact hlength hunstarted hdue

structure Ignored (config : OutboxConfig) (deserializeEvent : String → J → Except String E)
    (past since : List (Event J)) (message : OutboxMessage J) (ahead : Finset Nat) : Prop where
  pending : message.status = .pending
  free : ∀ before, before <+: since →
    (reached config deserializeEvent (past ++ before)).table message.id = some message ∧
      (reached config deserializeEvent (past ++ before)).locks message.id = none
  ahead : ∀ before, before <+: since → ∀ id row,
    (reached config deserializeEvent (past ++ before)).table id = some row →
      row.status = .pending → row.Before message → id ∈ ahead

theorem Ignored.before {message : OutboxMessage J} {ahead : Finset Nat} {later : List (Event J)}
    (h : Ignored config deserializeEvent past (since ++ later) message ahead) :
    Ignored config deserializeEvent past since message ahead where
  pending := h.pending
  free before hbefore := h.free before (hbefore.trans (List.prefix_append _ _))
  ahead before hbefore := h.ahead before (hbefore.trans (List.prefix_append _ _))

theorem Ignored.freeSince {message : OutboxMessage J} {ahead : Finset Nat}
    (h : Ignored config deserializeEvent past since message ahead) {w : Nat}
    (hunstarted : ((reached config deserializeEvent past).runs w).phase = .unstarted)
    (hdue : message.availableAt ≤
      ((reached config deserializeEvent (past ++ since)).runs w).startedAt) :
    FreeSince ((defaultMachine config deserializeEvent).steps .init (past ++ since))
      (reached config deserializeEvent (past ++ since)) w message where
  deliverable :=
    ⟨(OutboxMessage.status_eq_pending.mp h.pending).1,
      (OutboxMessage.status_eq_pending.mp h.pending).2, hdue⟩
  before x hx := by
    obtain ⟨before, hbefore, hstate⟩ := mem_sinceBegin hunstarted hx
    rw [hstate]
    exact h.free before hbefore
  now := h.free since (List.prefix_refl _)

theorem keyed_reached (events : List (Event J)) :
    (reached config deserializeEvent events).table.Keyed := by
  have hconsistent : Consistent _ (reached config deserializeEvent events) :=
    consistent_after events
  exact hconsistent.keyed

theorem Overtaking.step {message : OutboxMessage J} {ahead : Finset Nat}
    (hs : reached config deserializeEvent (past ++ since) = s)
    (h : Overtaking config (reached config deserializeEvent past) message ahead s)
    (hignored : Ignored config deserializeEvent past since message ahead)
    (hscan : ScansInOrder config deserializeEvent (past ++ since) s event)
    (hacts : Acts config exponentialRetryPolicy deserializeEvent s event s' more)
    (hnever : ∀ w, .acquired w message.id ∉ more) :
    Overtaking config (reached config deserializeEvent past) message ahead s' := by
  cases hacts with
  | idle => exact h
  | inserted => exact h
  | begun => exact h.setRun rfl fun _ _ => ⟨by simp, by simp⟩
  | @locked w id row hphase hlimit hfree hrow hdeliverable =>
    apply h.setRun (t := s.lock w id) rfl
    intro hunstarted hdue
    refine ⟨?_, by simp [hphase]⟩
    rw [List.map_append, List.forall_mem_append]
    refine ⟨(h w hunstarted hdue).1, ?_⟩
    rw [List.map_singleton, List.forall_mem_singleton]
    subst hs
    have hid : row.id = id := keyed_reached _ id row hrow
    have hne : message.id ≠ id := fun heq => hnever w (by simp [heq])
    obtain ⟨seen, hseen, found, hfound, hvisible, hfirst⟩ :=
      hscan ⟨hphase, hlimit, hfree, row, hrow, hdeliverable⟩
    obtain ⟨before, hbefore, rfl⟩ : ∃ before, before <+: since ∧
        seen = reached config deserializeEvent (past ++ before) := by
      rcases List.mem_append.mp hseen with hseen | hseen
      · obtain ⟨x, hx, rfl⟩ := List.mem_map.mp hseen
        exact mem_sinceBegin hunstarted hx
      · exact ⟨since, List.prefix_refl _, List.mem_singleton.mp hseen⟩
    have hfoundId : found.id = id := keyed_reached _ id found hfound
    have hahead : found.Before message := by
      apply OutboxMessage.Before.of_not (by rwa [hfoundId, ne_comm])
      exact hfirst message (hignored.freeSince hunstarted hdue)
    rw [hid]
    exact hignored.ahead before hbefore id found hfound hvisible.pending hahead
  | @foundNone w hphase htasks =>
    apply h.phase (t := s.release w) rfl
    simp
  | @foundSome w hphase =>
    apply h.phase rfl
    intro _
    refine .inr (.inr ?_)
    intro hunstarted hdue
    subst hs
    exact (hscan hphase).resolve_right fun hnone => hnone _ (hignored.freeSince hunstarted hdue)
  | started htask hstart =>
    exact h.setTask htask (OutboxMessage.id_of_content content_start)
  | finished htask hgoes hstage =>
    exact h.setTask htask (OutboxMessage.id_of_content (content_finish _))
  | saved hphase hdone => exact h.phase rfl fun _ => .inl hphase
  | @committed w hphase =>
    apply h.phase (t := (s.release w).save (s.runs w).batch) rfl
    simp
  | @rolledBack w hphase =>
    apply h.phase (t := s.release w) rfl
    simp
  | @crashed w hphase =>
    apply h.phase (t := s.release w) rfl
    simp

theorem overtaking_after {message : OutboxMessage J} {ahead : Finset Nat}
    (horderly : Orderly (past ++ since))
    (hignored : Ignored config deserializeEvent past since message ahead)
    (hscans : (defaultMachine config deserializeEvent).Guarded
      (ScansInOrder config deserializeEvent) (past ++ since))
    (hnever : ∀ w, .acquired w message.id ∉
      (defaultMachine config deserializeEvent).emitted
        (reached config deserializeEvent past) since) :
    Overtaking config (reached config deserializeEvent past) message ahead
      (reached config deserializeEvent (past ++ since)) := by
  induction since using List.reverseRecOn with
  | nil =>
    intro w hunstarted _
    rw [List.append_nil] at horderly ⊢
    have hlived : Lived config (failures config deserializeEvent past) _
      (reached config deserializeEvent past) := lived_after horderly
    have hempty := (hlived.runs w).empty hunstarted
    simp [hempty, hunstarted]
  | append_singleton since event ih =>
    rw [← List.append_assoc] at horderly hscans ⊢
    rw [Machine.emitted_concat, ← Machine.after_append] at hnever
    rw [reached_concat]
    apply (ih horderly.before hignored.before hscans.past fun w hmem =>
      hnever w (List.mem_append_left _ hmem)).step rfl hignored.before hscans.last
      (step_acts config exponentialRetryPolicy deserializeEvent _ event)
    exact fun w hmem => hnever w (List.mem_append_right _ hmem)

/-- A transaction that commits while the message is ignored brings a full batch. -/
theorem delivered_of_passesOver {message : OutboxMessage J} {ahead : Finset Nat}
    (horderly : Orderly (past ++ since))
    (hignored : Ignored config deserializeEvent past since message ahead)
    (hscans : (defaultMachine config deserializeEvent).Guarded
      (ScansInOrder config deserializeEvent) (past ++ since))
    (hnever : ∀ w, .acquired w message.id ∉
      (defaultMachine config deserializeEvent).emitted (reached config deserializeEvent past) since)
    {x : State J × Event J}
    (hx : x ∈ (defaultMachine config deserializeEvent).steps (reached config deserializeEvent past)
      since)
    (hpasses : passesOver (reached config deserializeEvent past) message x = true) :
    (delivered x).length = config.batchSize ∧ ∀ id ∈ delivered x, id ∈ ahead := by
  obtain ⟨before, rest, rfl, hstate⟩ := (Machine.mem_steps _).mp hx
  rw [← Machine.after_append] at hstate
  have hscan := hscans (past ++ before) x.2 rest (by simp)
  rw [← List.append_assoc] at horderly hscans
  have hovertaking := overtaking_after horderly.before hignored.before hscans.past
    fun w hmem => hnever w (by
      rw [Machine.emitted_append]
      exact List.mem_append_left _ hmem)
  obtain ⟨s, event⟩ := x
  change s = reached config deserializeEvent (past ++ before) at hstate
  subst hstate
  simp only [passesOver] at hpasses
  split at hpasses
  · rename_i w hcommits
    obtain ⟨hunstarted, hdue⟩ : _ ∧ _ := by simpa using hpasses
    obtain ⟨hids, hfull⟩ := hovertaking w hunstarted hdue
    rw [delivered, hcommits]
    refine ⟨?_, hids⟩
    rw [List.length_map]
    cases event with
    | commit v =>
      simp only [commits] at hcommits
      split at hcommits
      · rename_i hphase
        obtain rfl := Option.some.inj hcommits
        exact hfull (.inr hphase)
      · cases hcommits
    | acquired v =>
      simp only [commits] at hcommits
      split at hcommits
      · rename_i hempty
        obtain rfl := Option.some.inj hcommits
        exact (hscan hempty.1).resolve_right
          fun hnone => hnone _ (hignored.before.freeSince hunstarted hdue)
      · cases hcommits
    | _ => cases hcommits
  · cases hpasses

theorem length_le_card_mul {ids : List Nat} {among : Finset Nat} {most : Nat}
    (hamong : ∀ id ∈ ids, id ∈ among) (hmost : ∀ id, ids.count id ≤ most) :
    ids.length ≤ among.card * most := by
  have hsubset : ids.toFinset ⊆ among := fun id hid => hamong id (List.mem_toFinset.mp hid)
  calc ids.length = ∑ id ∈ ids.toFinset, ids.count id := (ids.sum_toFinset_count_eq_length).symm
    _ ≤ ids.toFinset.card • most := Finset.sum_le_card_nsmul _ _ _ fun id _ => hmost id
    _ ≤ among.card * most := Nat.mul_le_mul_right _ (Finset.card_le_card hsubset)

/-- How often a message is passed over: the transactions that begin when it is due, and
commit. -/
def passedOver (config : OutboxConfig) (deserializeEvent : String → J → Except String E)
    (past since : List (Event J)) (message : OutboxMessage J) : Nat :=
  ((defaultMachine config deserializeEvent).steps (reached config deserializeEvent past)
    since).countP (passesOver (reached config deserializeEvent past) message)

/-- Whatever number of runs share the table: while a message that is due and free is not
acquired, only so many transactions can commit as it takes to attempt every message ahead of
it as often as `max_attempts` says. -/
theorem no_starvation {message : OutboxMessage J} {ahead : Finset Nat}
    (horderly : Orderly (past ++ since))
    (hscans : (defaultMachine config deserializeEvent).Guarded
      (ScansInOrder config deserializeEvent) (past ++ since))
    (hpending : message.status = .pending)
    (hrow : (reached config deserializeEvent past).table message.id = some message)
    (hfree : (reached config deserializeEvent past).locks message.id = none)
    (hnever : ∀ w, .acquired w message.id ∉
      (defaultMachine config deserializeEvent).emitted (reached config deserializeEvent past) since)
    (hahead : ∀ before, before <+: since → ∀ id row,
      (reached config deserializeEvent (past ++ before)).table id = some row →
        row.status = .pending → row.Before message → id ∈ ahead) :
    passedOver config deserializeEvent past since message * config.batchSize ≤
      ahead.card * config.maxAttempts := by
  have hignored : Ignored config deserializeEvent past since message ahead := by
    refine ⟨hpending, ?_, hahead⟩
    rintro before ⟨rest, rfl⟩
    apply after_free ⟨hrow, hfree⟩
    intro w hmem
    apply hnever w
    rw [Machine.emitted_append]
    exact List.mem_append_left _ hmem
  have hall := fun x hx => @delivered_of_passesOver _ _ _ _ _ _ _ _ horderly hignored hscans
    hnever x hx
  have hcounted : Counted config _ (reached config deserializeEvent (past ++ since)).table :=
    counted_after horderly
  let steps := (defaultMachine config deserializeEvent).steps
    (reached config deserializeEvent past) since
  let passing := steps.filter (passesOver (reached config deserializeEvent past) message)
  have hlength : (passing.flatMap delivered).length =
      passedOver config deserializeEvent past since message * config.batchSize := by
    have hconst : passing.map (fun x => (delivered x).length) =
        passing.map fun _ => config.batchSize := by
      apply List.map_congr_left
      intro x hx
      obtain ⟨hx, hpasses⟩ := List.mem_filter.mp hx
      exact (hall x hx hpasses).1
    rw [List.length_flatMap, hconst, List.map_const', List.sum_replicate_nat,
      passedOver, List.countP_eq_length_filter]
  rw [← hlength]
  apply length_le_card_mul
  · intro id hid
    obtain ⟨x, hx, hmem⟩ := List.mem_flatMap.mp hid
    obtain ⟨hx, hpasses⟩ := List.mem_filter.mp hx
    exact (hall x hx hpasses).2 id hmem
  · intro id
    refine le_trans ?_ (hcounted.bound id)
    have hsublist : (passing.flatMap delivered).Sublist (steps.flatMap delivered) :=
      List.filter_sublist.flatMap delivered
    apply (hsublist.count_le id).trans
    rw [deliveries, Machine.steps_append, List.flatMap_append, List.count_append]
    exact Nat.le_add_left _ _

end fairness

section witness

def twoOrders : List (Event String) := [.insert (ordered 1), .insert (ordered 2)]

def firstOrder : List (Event String) :=
  [.begin 1 0, .lock 1 1, .acquired 1, .start 1 1 0, .finish 1 1 .published 1, .saveAll 1,
    .commit 1]

def oneAtATime : OutboxConfig := { batchSize := 1, maxAttempts := 3, maxConcurrency := 1 }

theorem orderly_twoOrders : Orderly (twoOrders ++ firstOrder) := by
  refine ⟨?_, by decide⟩
  intro row hrow
  have hsame : row = ordered 1 ∨ row = ordered 2 := by simpa [twoOrders, firstOrder] using hrow
  rcases hsame with rfl | rfl <;> decide

theorem table_twoOrders :
    (reached (E := String) oneAtATime (fun _ payload => .ok payload) twoOrders).table =
      Function.update (Function.update (fun _ => none) 1 (some (ordered 1))) 2
        (some (ordered 2)) := rfl

theorem not_before_first {id : Nat} {row : OutboxMessage String}
    (h : (reached (E := String) oneAtATime (fun _ payload => .ok payload) twoOrders).table id =
      some row) : ¬ row.Before (ordered 1) := by
  rw [table_twoOrders, Function.update_apply, Function.update_apply] at h
  split at h
  · rw [← Option.some.inj h]
    decide
  · split at h
    · rw [← Option.some.inj h]
      decide
    · cases h

theorem table_firstOrder {before : List (Event String)} (hbefore : before <+: firstOrder)
    {id : Nat} (hid : id ≠ 1) :
    (reached (E := String) oneAtATime (fun _ payload => .ok payload)
        (twoOrders ++ before)).table id =
      (reached (E := String) oneAtATime (fun _ payload => .ok payload) twoOrders).table id := by
  rw [List.prefix_iff_eq_take.mp hbefore]
  have hlength : before.length ≤ 7 := hbefore.length_le
  match before.length, hlength with
  | 0, _ | 1, _ | 2, _ | 3, _ | 4, _ | 5, _ | 6, _ => rfl
  | 7, _ => exact Function.update_of_ne hid _ _

theorem scans_twoOrders :
    (defaultMachine (E := String) oneAtATime fun _ payload => .ok payload).Guarded
      (ScansInOrder (E := String) oneAtATime fun _ payload => .ok payload)
      (twoOrders ++ firstOrder) := by
  apply Machine.Guarded.of_get
  intro i hi
  match i, hi with
  | 3, _ =>
    intro _
    refine ⟨_, List.mem_append_right _ (List.mem_singleton.mpr rfl), ordered 1, rfl, by decide, ?_⟩
    exact fun other hother => not_before_first hother.now.1
  | 4, _ => exact fun _ => .inl rfl
  | 0, _ | 1, _ | 2, _ | 5, _ | 6, _ | 7, _ | 8, _ => trivial

theorem no_starvation_twoOrders :
    passedOver (E := String) oneAtATime (fun _ payload => .ok payload) twoOrders firstOrder
        (ordered 2) = 1 ∧
      passedOver (E := String) oneAtATime (fun _ payload => .ok payload) twoOrders firstOrder
        (ordered 2) * 1 ≤ Finset.card {1} * 3 := by
  refine ⟨by decide +kernel, ?_⟩
  refine @no_starvation _ _ oneAtATime _ _ _ _ _ orderly_twoOrders scans_twoOrders rfl rfl rfl ?_ ?_
  · intro w hmem
    have hnone : ∀ effect ∈ (defaultMachine (E := String) oneAtATime
        fun _ payload => .ok payload).emitted (reached oneAtATime (fun _ payload => .ok payload)
          twoOrders) firstOrder, effect.id = 1 := by decide +kernel
    cases hnone _ hmem
  · intro before hbefore id row hrow _ hahead
    by_cases hid : id = 1
    · simp [hid]
    · rw [table_firstOrder hbefore hid, table_twoOrders, Function.update_apply,
        Function.update_apply, if_neg hid] at hrow
      split at hrow
      · rw [← Option.some.inj hrow] at hahead
        exact absurd hahead (by decide)
      · cases hrow

end witness
end DddFramework.Outbox
