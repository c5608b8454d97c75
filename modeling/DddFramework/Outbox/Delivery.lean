import DddFramework.Outbox.Processor

/-! Safety of delivery by concurrent runs. What a live run has in its batch it has locked,
and the row is still pending with the content of its copy, so the copies of two live runs
never meet and a commit settles only pending rows. Tasks left behind by a rolled back run
are outside of this: they publish without a lock. -/
namespace DddFramework.Outbox
open Library

variable {J E : Type}

def Settled (s : State J) (id : Nat) : Prop := ∃ row, s.table id = some row ∧ row.status ≠ .pending

/-- What delivery keeps to over a run of the machine. -/
structure DeliverySafe (m : Machine (State J) (Event J) (Effect E)) (events : List (Event J)) :
    Prop where
  exclusive : ∀ past rest, events = past ++ rest → ∀ v w, ((m.after m.init past).runs v).Live →
    ((m.after m.init past).runs w).Live →
    ∀ a ∈ ((m.after m.init past).runs v).batch, ∀ b ∈ ((m.after m.init past).runs w).batch,
      a.id = b.id → v = w
  publishedFirst : ∀ past event rest, events = past ++ event :: rest → ∀ id row,
    (m.after m.init (past ++ [event])).table id = some row → row.processedAt ≠ none →
    (m.after m.init past).table id ≠ some row →
    event = .insert row ∨ ∃ w, event = .commit w ∧ .published w id ∈ m.emitted m.init past
  settledForGood : ∀ past between event rest, events = past ++ between ++ event :: rest →
    ∀ id, Settled (m.after m.init past) id →
    ∀ effect ∈ (m.step (m.after m.init (past ++ between)) event).2, effect.id ≠ id
  kept : ∀ past rest, events = past ++ rest → ∀ id row,
    (m.after m.init past).table id = some row →
    ∃ row', (m.after m.init events).table id = some row' ∧ row'.content = row.content

/-- A run is not rolled back, for an exception that has left one of its tasks, while another
task is still to be published or being published. -/
def LeavesNoTask (config : OutboxConfig) (s : State J) : Event J → Prop
  | .rollback w => config.concurrencyEnable = true → (s.runs w).phase = .failing →
      ∀ task ∈ (s.runs w).tasks, task.stage = .done ∨ task.stage = .escaped
  | _ => True

/-- What holds of one run: its batch is locked by it, its rows are pending with the content
of their copies, and what it has marked as processed it has published. -/
structure RunOk (table : Table J) (locks : Nat → Option Nat) (out : List (Effect E)) (w : Nat)
    (run : Run J) : Prop where
  held : run.Live → ∀ task ∈ run.tasks, locks task.message.id = some w
  pending : run.Live → ∀ task ∈ run.tasks, ∃ row, table task.message.id = some row ∧
    row.status = .pending ∧ row.content = task.message.content
  marked : ∀ task ∈ run.tasks, task.message.processedAt ≠ none →
    .published w task.message.id ∈ out

structure Consistent (out : List (Effect E)) (s : State J) : Prop where
  keyed : s.table.Keyed
  runs : ∀ w, RunOk s.table s.locks out w (s.runs w)

/-- No task of a rolled back run of a parallel batch is still to come. -/
def Finished (config : OutboxConfig) (s : State J) : Prop :=
  config.concurrencyEnable = true → ∀ w, (s.runs w).phase = .orphaned →
    ∀ task ∈ (s.runs w).tasks, task.stage = .done ∨ task.stage = .escaped

namespace State

@[simp] theorem setRun_table (s : State J) (w : Nat) (r : Run J) : (s.setRun w r).table = s.table :=
  rfl

@[simp] theorem setRun_self (s : State J) (w : Nat) (r : Run J) : (s.setRun w r).runs w = r :=
  Function.update_self ..

theorem setRun_of_ne (s : State J) {v w : Nat} (h : v ≠ w) (r : Run J) :
    (s.setRun w r).runs v = s.runs v :=
  Function.update_of_ne h ..

theorem insert_self (s : State J) (row : OutboxMessage J) :
    (s.insert row).table row.id = some row :=
  Function.update_self ..

theorem insert_of_ne (s : State J) (row : OutboxMessage J) {id : Nat} (h : id ≠ row.id) :
    (s.insert row).table id = s.table id :=
  Function.update_of_ne h ..

theorem insert_of_some (s : State J) {row old : OutboxMessage J} (hfresh : s.table row.id = none)
    {id : Nat} (h : s.table id = some old) : (s.insert row).table id = some old := by
  rw [insert_of_ne, h]
  rintro rfl
  rw [hfresh] at h
  cases h

theorem lock_of_some (s : State J) {run id other holder : Nat} (hfree : s.locks id = none)
    (h : s.locks other = some holder) : (s.lock run id).locks other = some holder := by
  have hne : other ≠ id := by
    rintro rfl
    rw [hfree] at h
    cases h
  exact (Function.update_of_ne hne _ _).trans h

theorem release_of_ne (s : State J) {v w id : Nat} (h : s.locks id = some v) (hne : v ≠ w) :
    (s.release w).locks id = some v := by
  have hnot : s.locks id ≠ some w := by
    rw [h]
    exact fun heq => hne (Option.some.inj heq)
  exact (if_neg hnot).trans h

end State

section preservation
variable {out more : List (Effect E)} {s : State J} {w : Nat} {run : Run J}

theorem RunOk.transfer {table table' : Table J} {locks locks' : Nat → Option Nat}
    (h : RunOk table locks out w run)
    (hlocks : ∀ id, locks id = some w → locks' id = some w)
    (htable : ∀ id row, locks id = some w → table id = some row → table' id = some row) :
    RunOk table' locks' (out ++ more) w run where
  held hlive task htask := hlocks _ (h.held hlive task htask)
  pending hlive task htask := by
    obtain ⟨row, hrow, hsame⟩ := h.pending hlive task htask
    exact ⟨row, htable _ _ (h.held hlive task htask) hrow, hsame⟩
  marked task htask hprocessed := List.mem_append_left _ (h.marked task htask hprocessed)

theorem RunOk.ended {table table' : Table J} {locks locks' : Nat → Option Nat}
    (h : RunOk table locks out w run) {phase : Phase}
    (hphase : ¬({ run with phase := phase } : Run J).Live) :
    RunOk table' locks' (out ++ more) w { run with phase := phase } where
  held hlive := absurd hlive hphase
  pending hlive := absurd hlive hphase
  marked task htask hprocessed := List.mem_append_left _ (h.marked task htask hprocessed)

theorem RunOk.goesOn {table : Table J} {locks : Nat → Option Nat}
    (h : RunOk table locks out w run) (hlive : run.Live) (phase : Phase) :
    RunOk table locks (out ++ more) w { run with phase := phase } where
  held _ := h.held hlive
  pending _ := h.pending hlive
  marked task htask hprocessed := List.mem_append_left _ (h.marked task htask hprocessed)

theorem task?_spec {id : Nat} {task : Task J} (h : run.task? id = some task) :
    task ∈ run.tasks ∧ task.message.id = id :=
  ⟨List.mem_of_find?_eq_some h, by simpa using List.find?_some h⟩

theorem live_of_setTask {id : Nat} {next : Task J} (h : (run.setTask id next).Live) :
    run.Live := by
  simp only [Run.setTask, Run.Live] at h ⊢
  split at h
  case isTrue hescaped => exact .inr (.inl hescaped.2)
  case isFalse => exact h

theorem mem_setTask {id : Nat} {next other : Task J} (h : other ∈ (run.setTask id next).tasks) :
    other = next ∨ other ∈ run.tasks := by
  simp only [Run.setTask, List.mem_map] at h
  obtain ⟨old, hold, rfl⟩ := h
  split
  · exact .inl rfl
  · exact .inr hold

theorem RunOk.setTask {table : Table J} {locks : Nat → Option Nat}
    (h : RunOk table locks out w run) {id : Nat} {task next : Task J}
    (htask : run.task? id = some task) (hcontent : next.message.content = task.message.content)
    (hmarked : next.message.processedAt ≠ none → .published w id ∈ out ++ more) :
    RunOk table locks (out ++ more) w (run.setTask id next) := by
  obtain ⟨hmem, hid⟩ := task?_spec htask
  have hnext : next.message.id = task.message.id := OutboxMessage.id_of_content hcontent
  constructor
  · intro hlive other hother
    rcases mem_setTask hother with rfl | hold
    · rw [hnext]
      exact h.held (live_of_setTask hlive) task hmem
    · exact h.held (live_of_setTask hlive) other hold
  · intro hlive other hother
    rcases mem_setTask hother with rfl | hold
    · rw [hnext, hcontent]
      exact h.pending (live_of_setTask hlive) task hmem
    · exact h.pending (live_of_setTask hlive) other hold
  · intro other hother hprocessed
    rcases mem_setTask hother with rfl | hold
    · rw [hnext, hid]
      exact hmarked hprocessed
    · exact List.mem_append_left _ (h.marked other hold hprocessed)

theorem RunOk.lock {table : Table J} {locks : Nat → Option Nat}
    (h : RunOk table locks out w run) {id : Nat} {row : OutboxMessage J} (hid : row.id = id)
    (hlive : run.Live) (hrow : table id = some row) (hpending : row.status = .pending) :
    RunOk table (Function.update locks id (some w)) (out ++ more) w
      { run with tasks := run.tasks ++ [⟨row, .waiting⟩] } := by
  constructor
  · intro _ task htask
    rcases List.mem_append.mp htask with hold | hnew
    · by_cases heq : task.message.id = id
      · rw [heq, Function.update_self]
      · rw [Function.update_of_ne heq]
        exact h.held hlive task hold
    · rw [List.mem_singleton.mp hnew, hid, Function.update_self]
  · intro _ task htask
    rcases List.mem_append.mp htask with hold | hnew
    · exact h.pending hlive task hold
    · rw [List.mem_singleton.mp hnew]
      exact ⟨row, hid ▸ hrow, hpending, rfl⟩
  · intro task htask hprocessed
    rcases List.mem_append.mp htask with hold | hnew
    · exact List.mem_append_left _ (h.marked task hold hprocessed)
    · rw [List.mem_singleton.mp hnew] at hprocessed
      exact absurd (OutboxMessage.status_eq_pending.mp hpending).1 hprocessed

theorem Consistent.setRun {s' : State J} (h : Consistent out s) (hruns : s'.runs = s.runs)
    (hkeyed : s'.table.Keyed)
    (hlocks : ∀ v id, v ≠ w → s.locks id = some v → s'.locks id = some v)
    (htable : ∀ v id row, v ≠ w → s.locks id = some v → s.table id = some row →
      s'.table id = some row)
    (hrun : RunOk s'.table s'.locks (out ++ more) w run) :
    Consistent (out ++ more) (s'.setRun w run) where
  keyed := hkeyed
  runs v := by
    by_cases hv : v = w
    · rw [hv, State.setRun_self]
      exact hrun
    · rw [State.setRun_of_ne _ hv, hruns]
      exact (h.runs v).transfer (hlocks v · hv) (htable v · · hv)

theorem Consistent.setRun_same (h : Consistent out s)
    (hrun : RunOk s.table s.locks (out ++ more) w run) :
    Consistent (out ++ more) (s.setRun w run) :=
  h.setRun rfl h.keyed (fun _ _ _ hlock => hlock) (fun _ _ _ _ _ hrow => hrow) hrun

end preservation

section process
variable {config : OutboxConfig} {retryPolicy : RetryPolicy}
  {deserializeEvent : String → J → Except String E} {s s' : State J} {event : Event J}
  {out more : List (Effect E)}

section tasks
variable {task : Task J} {error : String} {now : Int}

@[simp] theorem content_fail :
    (task.fail config retryPolicy error now).message.content = task.message.content := by
  unfold Task.fail
  split <;> simp

@[simp] theorem processedAt_fail :
    (task.fail config retryPolicy error now).message.processedAt = task.message.processedAt := by
  unfold Task.fail
  split <;> simp

theorem content_start :
    (task.start config retryPolicy deserializeEvent now).1.message.content =
      task.message.content := by
  unfold Task.start
  split <;> simp

theorem processedAt_start :
    (task.start config retryPolicy deserializeEvent now).1.message.processedAt =
      task.message.processedAt := by
  unfold Task.start
  split <;> simp

theorem content_finish (outcome : Outcome) :
    (task.finish config retryPolicy outcome now).message.content = task.message.content := by
  cases outcome <;> simp [Task.finish]

theorem processedAt_finish (outcome : Outcome) (run id : Nat)
    (h : (task.finish config retryPolicy outcome now).message.processedAt ≠ none) :
    task.message.processedAt ≠ none ∨ .published run id ∈ outcome.effects (E := E) run id := by
  cases outcome with
  | published => exact .inr (List.mem_singleton.mpr rfl)
  | raised error => exact .inl (by simpa [Task.finish] using h)
  | interrupted => exact .inl h

end tasks

theorem live_of_acquiring {run : Run J} (h : run.phase = .acquiring) : run.Live := .inl h

theorem live_of_saved {run : Run J} (h : run.phase = .saved) : run.Live := .inr (.inr (.inr h))

theorem live_of_failing {run : Run J} (h : run.phase = .failing) : run.Live := .inr (.inr (.inl h))

theorem live_of_publishing {run : Run J} (h : run.phase = .publishing) : run.Live := .inr (.inl h)

theorem Consistent.ended (h : Consistent out s) (w : Nat) {phase : Phase}
    (hphase : ¬({ s.runs w with phase := phase } : Run J).Live) :
    Consistent (out ++ more) ((s.release w).setRun w { s.runs w with phase := phase }) :=
  h.setRun rfl h.keyed (fun _ _ hne hlock => s.release_of_ne hlock hne)
    (fun _ _ _ _ _ hrow => hrow) ((h.runs w).ended hphase)

theorem Consistent.step (h : Consistent out s)
    (hacts : Acts config retryPolicy deserializeEvent s event s' more) :
    Consistent (out ++ more) s' := by
  cases hacts with
  | idle => rwa [List.append_nil]
  | inserted hfresh =>
    exact ⟨h.keyed.insert _, fun w => (h.runs w).transfer (fun _ hlock => hlock) fun _ _ _ hold =>
      s.insert_of_some hfresh hold⟩
  | begun hphase =>
    apply h.setRun_same
    exact ⟨by simp, by simp, by simp⟩
  | locked hphase hlimit hfree hrow hdeliverable =>
    refine h.setRun ?_ ?_ ?_ ?_ ?_
    · rfl
    · exact h.keyed
    · exact fun _ _ _ hlock => s.lock_of_some hfree hlock
    · exact fun _ _ _ _ _ hold => hold
    · exact (h.runs _).lock (h.keyed _ _ hrow) (live_of_acquiring hphase) hrow
        hdeliverable.pending
  | foundNone hphase htasks => exact h.ended _ (by simp [Run.Live])
  | foundSome hphase =>
    apply h.setRun_same
    exact (h.runs _).goesOn (live_of_acquiring hphase) _
  | started htask hstart =>
    apply h.setRun_same
    apply (h.runs _).setTask htask content_start
    rw [processedAt_start]
    intro hprocessed
    have hmarked := (h.runs _).marked _ (task?_spec htask).1 hprocessed
    rw [(task?_spec htask).2] at hmarked
    exact List.mem_append_left _ hmarked
  | finished htask hgoes hstage =>
    apply h.setRun_same
    apply (h.runs _).setTask htask (content_finish _)
    intro hprocessed
    rcases processedAt_finish _ _ _ hprocessed with hbefore | hpublished
    · have hmarked := (h.runs _).marked _ (task?_spec htask).1 hbefore
      rw [(task?_spec htask).2] at hmarked
      exact List.mem_append_left _ hmarked
    · exact List.mem_append_right _ hpublished
  | saved hphase hdone =>
    apply h.setRun_same
    exact (h.runs _).goesOn (live_of_publishing hphase) _
  | committed hphase =>
    rename_i w
    refine h.setRun ?_ ?_ ?_ ?_ ?_
    · rfl
    · exact h.keyed.saveAll
    · exact fun _ _ hne hlock => s.release_of_ne hlock hne
    · intro v id row hne hlock hrow
      rw [← hrow]
      apply Table.saveAll_of_notMem
      intro message hmessage hid
      obtain ⟨task, htask, rfl⟩ := List.mem_map.mp hmessage
      have hheld := (h.runs w).held (live_of_saved hphase) task htask
      rw [hid, hlock] at hheld
      exact hne (Option.some.inj hheld)
    · exact (h.runs w).ended (by simp [Run.Live])
  | rolledBack hphase => exact h.ended _ (by simp [Run.Live])
  | crashed hphase => exact h.ended _ (by simp [Run.Live])

theorem Finished.not_orphaned (h : Finished config s)
    (hconcurrent : config.concurrencyEnable = true) {w id : Nat} {task : Task J}
    (htask : (s.runs w).task? id = some task)
    (hstage : task.stage = .waiting ∨ task.stage = .publishing) :
    (s.runs w).phase ≠ .orphaned := by
  intro horphaned
  rcases h hconcurrent w horphaned task (task?_spec htask).1 with hdone | hescaped
  · simp [hdone] at hstage
  · simp [hescaped] at hstage

theorem Consistent.row_pending (h : Consistent out s) (hfinished : Finished config s) {w id : Nat}
    {task : Task J} (htask : (s.runs w).task? id = some task) (hgoes : (s.runs w).GoesOn config)
    (hstage : task.stage = .waiting ∨ task.stage = .publishing) :
    ∃ row, s.table id = some row ∧ row.status = .pending := by
  obtain ⟨hmem, hid⟩ := task?_spec htask
  have hlive : (s.runs w).Live := by
    rcases hgoes with hpublishing | ⟨hconcurrent, hfailing | horphaned⟩
    · exact live_of_publishing hpublishing
    · exact live_of_failing hfailing
    · exact absurd horphaned (hfinished.not_orphaned hconcurrent htask hstage)
  obtain ⟨row, hrow, hpending, -⟩ := (h.runs w).pending hlive task hmem
  exact ⟨row, hid ▸ hrow, hpending⟩

theorem Consistent.effect_pending (h : Consistent out s) (hfinished : Finished config s)
    (hacts : Acts config retryPolicy deserializeEvent s event s' more) {effect : Effect E}
    (heffect : effect ∈ more) : ∃ row, s.table effect.id = some row ∧ row.status = .pending := by
  cases hacts with
  | locked hphase hlimit hfree hrow hdeliverable =>
    rw [List.mem_singleton.mp heffect]
    exact ⟨_, hrow, hdeliverable.pending⟩
  | started htask hstart =>
    rw [Option.mem_toList, Option.map_eq_some_iff] at heffect
    obtain ⟨event, -, rfl⟩ := heffect
    exact h.row_pending hfinished htask hstart.1 (.inl hstart.2.1)
  | @finished w id outcome now task htask hgoes hstage =>
    have hid : effect.id = id := by
      cases outcome <;> simp [Outcome.effects] at heffect
      rw [heffect]
      rfl
    rw [hid]
    exact h.row_pending hfinished htask hgoes (.inr hstage)
  | _ => cases heffect

theorem acts_kept (hacts : Acts config retryPolicy deserializeEvent s event s' more) {id : Nat}
    {row : OutboxMessage J} (hrow : s.table id = some row) :
    ∃ row', s'.table id = some row' ∧ row'.content = row.content := by
  cases hacts with
  | inserted hfresh => exact ⟨row, s.insert_of_some hfresh hrow, rfl⟩
  | committed hphase => exact Table.saveAll_content hrow
  | _ => exact ⟨row, hrow, rfl⟩

theorem Consistent.acts_settled (h : Consistent out s)
    (hacts : Acts config retryPolicy deserializeEvent s event s' more) {id : Nat}
    (hsettled : Settled s id) : Settled s' id := by
  obtain ⟨row, hrow, hstatus⟩ := hsettled
  refine ⟨row, ?_, hstatus⟩
  cases hacts with
  | inserted hfresh => exact s.insert_of_some hfresh hrow
  | @committed w hphase =>
    refine Eq.trans (Table.saveAll_of_notMem ?_) hrow
    intro message hmessage hid
    obtain ⟨task, htask, rfl⟩ := List.mem_map.mp hmessage
    obtain ⟨row', hrow', hpending, -⟩ := (h.runs w).pending (live_of_saved hphase) task htask
    rw [hid, hrow] at hrow'
    rw [Option.some.inj hrow'] at hstatus
    exact hstatus hpending
  | _ => exact hrow

theorem Consistent.acts_processed (h : Consistent out s)
    (hacts : Acts config retryPolicy deserializeEvent s event s' more) {id : Nat}
    {row : OutboxMessage J} (hrow : s'.table id = some row) (hprocessed : row.processedAt ≠ none)
    (hchanged : s.table id ≠ some row) :
    event = .insert row ∨ ∃ w, event = .commit w ∧ .published w id ∈ out := by
  cases hacts with
  | @inserted new hfresh =>
    left
    by_cases hid : id = new.id
    · rw [hid, s.insert_self] at hrow
      rw [Option.some.inj hrow]
    · rw [s.insert_of_ne _ hid] at hrow
      exact absurd hrow hchanged
  | @committed w hphase =>
    right
    obtain ⟨message, hmessage, rfl, hsame⟩ := Table.saveAll_processedAt hrow hchanged
    obtain ⟨task, htask, rfl⟩ := List.mem_map.mp hmessage
    exact ⟨w, rfl, (h.runs w).marked task htask (hsame ▸ hprocessed)⟩
  | _ => exact absurd hrow hchanged

theorem orphaned_of_setTask {run : Run J} {id : Nat} {next : Task J}
    (h : (run.setTask id next).phase = .orphaned) : run.phase = .orphaned := by
  simp only [Run.setTask] at h
  split at h
  case isTrue => cases h
  case isFalse => exact h

theorem Finished.setRun {t : State J} (h : Finished config s) (hruns : t.runs = s.runs) {w : Nat}
    {run : Run J} (hrun : config.concurrencyEnable = true → run.phase = .orphaned →
      ∀ task ∈ run.tasks, task.stage = .done ∨ task.stage = .escaped) :
    Finished config (t.setRun w run) := by
  intro hconcurrent v
  by_cases hv : v = w
  · rw [hv, State.setRun_self]
    exact hrun hconcurrent
  · rw [State.setRun_of_ne _ hv, hruns]
    exact h hconcurrent v

theorem Finished.notOrphaned {t : State J} (h : Finished config s) (hruns : t.runs = s.runs)
    {w : Nat} {run : Run J} (hphase : run.phase ≠ .orphaned) : Finished config (t.setRun w run) :=
  h.setRun hruns fun _ horphaned => absurd horphaned hphase

theorem Finished.setTask (h : Finished config s) {w id : Nat} {task next : Task J}
    (htask : (s.runs w).task? id = some task)
    (hstage : task.stage = .waiting ∨ task.stage = .publishing) :
    Finished config (s.setRun w ((s.runs w).setTask id next)) := by
  apply h.setRun rfl
  intro hconcurrent horphaned
  exact absurd (orphaned_of_setTask horphaned) (h.not_orphaned hconcurrent htask hstage)

theorem Finished.step (h : Finished config s)
    (hacts : Acts config retryPolicy deserializeEvent s event s' more)
    (hleaves : LeavesNoTask config s event) : Finished config s' := by
  cases hacts with
  | idle => exact h
  | inserted => exact h
  | begun => exact h.notOrphaned rfl (by simp)
  | locked hphase => exact h.notOrphaned rfl (by simp [hphase])
  | foundNone => exact h.notOrphaned rfl (by simp)
  | foundSome => exact h.notOrphaned rfl (by simp)
  | started htask hstart => exact h.setTask htask (.inl hstart.2.1)
  | finished htask _ hstage => exact h.setTask htask (.inr hstage)
  | saved => exact h.notOrphaned rfl (by simp)
  | committed => exact h.notOrphaned rfl (by simp)
  | rolledBack hphase => exact h.setRun rfl fun hconcurrent _ => hleaves hconcurrent hphase
  | crashed => exact h.notOrphaned rfl (by simp)

end process

section runs
variable {config : OutboxConfig} {retryPolicy : RetryPolicy}
  {deserializeEvent : String → J → Except String E} {events past between : List (Event J)}

/-- Every run is consistent throughout, whatever tasks it leaves behind. -/
theorem consistent_after (events : List (Event J)) :
    Consistent ((machine config retryPolicy deserializeEvent).emitted .init events)
      ((machine config retryPolicy deserializeEvent).after .init events) := by
  induction events using List.reverseRecOn with
  | nil =>
    refine ⟨fun id row hrow => (by cases hrow), fun w => ⟨?_, ?_, ?_⟩⟩
    · intro _ task htask
      cases htask
    · intro _ task htask
      cases htask
    · intro task htask
      cases htask
  | append_singleton past event ih =>
    rw [Machine.emitted_concat, Machine.after_concat]
    exact ih.step (step_acts config retryPolicy deserializeEvent _ event)

theorem finished_after
    (h : (machine config retryPolicy deserializeEvent).Guarded
      (fun _ s event => LeavesNoTask config s event) events) :
    Finished config ((machine config retryPolicy deserializeEvent).after .init events) := by
  apply h.invariant (I := fun _ _ s => Finished config s)
  · intro _ w horphaned
    cases horphaned
  · intro past out s event hleaves hfinished
    exact hfinished.step (step_acts config retryPolicy deserializeEvent s event) hleaves

theorem after_kept {s : State J} {id : Nat} {row : OutboxMessage J} (hrow : s.table id = some row) :
    ∃ row', ((machine config retryPolicy deserializeEvent).after s events).table id = some row' ∧
      row'.content = row.content := by
  induction events generalizing s row with
  | nil => exact ⟨row, hrow, rfl⟩
  | cons event events ih =>
    obtain ⟨next, hnext, hsame⟩ :=
      acts_kept (step_acts config retryPolicy deserializeEvent s event) hrow
    obtain ⟨last, hlast, hsame'⟩ := ih hnext
    exact ⟨last, hlast, hsame'.trans hsame⟩

theorem after_settled {id : Nat}
    (hsettled : Settled ((machine config retryPolicy deserializeEvent).after .init past) id) :
    Settled ((machine config retryPolicy deserializeEvent).after .init (past ++ between)) id := by
  induction between using List.reverseRecOn with
  | nil => rwa [List.append_nil]
  | append_singleton between event ih =>
    rw [← List.append_assoc, Machine.after_concat]
    exact (consistent_after _).acts_settled
      (step_acts config retryPolicy deserializeEvent _ event) ih

/-- In every run of any number of workers that leaves no task behind, delivery is safe. -/
theorem delivery_safe
    (h : (machine config retryPolicy deserializeEvent).Guarded
      (fun _ s event => LeavesNoTask config s event) events) :
    DeliverySafe (machine config retryPolicy deserializeEvent) events := by
  constructor
  · rintro past rest rfl v w hv hw a ha b hb hid
    obtain ⟨task, htask, rfl⟩ := List.mem_map.mp ha
    obtain ⟨other, hother, rfl⟩ := List.mem_map.mp hb
    have hheld := ((consistent_after past).runs v).held hv task htask
    rw [hid, ((consistent_after past).runs w).held hw other hother] at hheld
    exact (Option.some.inj hheld).symm
  · rintro past event rest rfl id row hrow hprocessed hchanged
    rw [Machine.after_concat] at hrow
    exact (consistent_after past).acts_processed
      (step_acts config retryPolicy deserializeEvent _ event) hrow hprocessed hchanged
  · rintro past between event rest rfl id hsettled effect heffect hid
    have hacts := step_acts config retryPolicy deserializeEvent
      ((machine config retryPolicy deserializeEvent).after .init (past ++ between)) event
    obtain ⟨row, hrow, hpending⟩ :=
      (consistent_after (past ++ between)).effect_pending (finished_after h.past) hacts heffect
    obtain ⟨row', hrow', hstatus⟩ := after_settled hsettled
    rw [hid] at hrow
    have hsame : row' = row := Option.some.inj (hrow'.symm.trans hrow)
    exact hstatus (hsame ▸ hpending)
  · rintro past rest rfl id row hrow
    rw [Machine.after_append]
    exact after_kept hrow

end runs

section witness

def ordered (id : Nat) : OutboxMessage String where
  id := id
  type := "OrderPlaced"
  occurredOn := 0
  payload := "order"
  metadata := ""
  availableAt := 0

def orderWorkers (config : OutboxConfig) :
    Machine (State String) (Event String) (Effect String) :=
  machine config exponentialRetryPolicy fun _ payload => .ok payload

def redelivery : List (Event String) :=
  [.insert (ordered 1), .begin 1 0, .lock 1 1, .acquired 1, .start 1 1 0, .finish 1 1 .published 1,
    .crash 1, .begin 2 2, .lock 2 1, .acquired 2, .start 2 1 2, .finish 2 1 .published 3,
    .saveAll 2, .commit 2]

theorem leavesNoTask_of_ne {config : OutboxConfig} {s : State J} {event : Event J}
    (h : ∀ w, event ≠ .rollback w) : LeavesNoTask config s event := by
  cases event with
  | rollback w => exact absurd rfl (h w)
  | _ => trivial

theorem delivery_safe_redelivery : DeliverySafe (orderWorkers {}) redelivery := by
  apply delivery_safe
  intro past event rest hsplit
  apply leavesNoTask_of_ne
  rintro w rfl
  have hmem : Event.rollback w ∈ redelivery := by simp [hsplit]
  simp [redelivery] at hmem

/-- Three messages go out one at a time in parallel mode. The publisher is cancelled on the
first; while the second is on its way the batch is rolled back and delivered by another
worker, which commits. -/
def overtaken : List (Event String) :=
  [.insert (ordered 1), .insert (ordered 2), .insert (ordered 3), .begin 1 0, .lock 1 1,
    .lock 1 2, .lock 1 3, .acquired 1, .start 1 1 0, .finish 1 1 .interrupted 1, .start 1 2 1,
    .rollback 1, .begin 2 2, .lock 2 1, .lock 2 2, .lock 2 3, .acquired 2,
    .start 2 1 2, .finish 2 1 .published 3, .start 2 2 3, .finish 2 2 .published 4,
    .start 2 3 4, .finish 2 3 .published 5, .saveAll 2, .commit 2, .finish 1 2 .published 6]

/-- The first worker's task for the third message then publishes what has been committed as
processed. -/
theorem overtaken_not_safe :
    ¬DeliverySafe (orderWorkers { concurrencyEnable := true, maxConcurrency := 1 })
      (overtaken ++ [.start 1 3 6]) := by
  intro hsafe
  have hstatus : (((orderWorkers { concurrencyEnable := true, maxConcurrency := 1 }).after .init
      overtaken).table 3).map OutboxMessage.status = some .processed := by
    decide +kernel
  have heffect : ((orderWorkers { concurrencyEnable := true, maxConcurrency := 1 }).step
      ((orderWorkers { concurrencyEnable := true, maxConcurrency := 1 }).after .init overtaken)
      (.start 1 3 6)).2 = [.publish 1 3 "order"] := by
    decide +kernel
  obtain ⟨row, hrow, hprocessed⟩ := Option.map_eq_some_iff.mp hstatus
  have hsettled : Settled ((orderWorkers { concurrencyEnable := true, maxConcurrency := 1 }).after
      .init overtaken) 3 := ⟨row, hrow, by simp [hprocessed]⟩
  apply hsafe.settledForGood overtaken [] (.start 1 3 6) [] (by simp) 3 hsettled
    (.publish 1 3 "order") _ rfl
  rw [List.append_nil]
  exact heffect ▸ List.mem_singleton.mpr rfl

end witness
end DddFramework.Outbox
