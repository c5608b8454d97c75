import DddFramework.Outbox.Delivery
import Mathlib.Data.List.Nodup

/-! Messages in the hands of runs, under the default retry policy. A live run holds copies of
its rows, each still as acquired or marked once, so that a commit moves a row by one marking
and leaves it lawful. -/
namespace DddFramework.Outbox

variable {J E : Type}

namespace Event

def time : Event J → Option Int
  | .begin _ now | .start _ _ now | .finish _ _ _ now => some now
  | _ => none

end Event

/-- A message as it is collected, before any delivery. -/
def OutboxMessage.Unsent (message : OutboxMessage J) : Prop :=
  message.attempts = 0 ∧ message.processedAt = none ∧ message.failedAt = none

instance (message : OutboxMessage J) : Decidable message.Unsent :=
  inferInstanceAs (Decidable (_ ∧ _ ∧ _))

def Run.FailedOn (run : Run J) (id : Nat) : Prop :=
  ∃ task ∈ run.tasks, task.message.id = id ∧ task.stage = .done ∧ task.message.processedAt = none

instance (run : Run J) (id : Nat) : Decidable (run.FailedOn id) :=
  inferInstanceAs (Decidable (∃ task ∈ run.tasks, _ ∧ _ ∧ _))

section messages
variable {config : OutboxConfig} {row : OutboxMessage J} {error : String} {delay now : Int}

theorem saveOver_markProcessed : (row.markProcessed now).saveOver row = row.markProcessed now := rfl

theorem saveOver_markFailed (maxAttempts : Nat) :
    (row.markFailed error delay maxAttempts now).saveOver row =
      row.markFailed error delay maxAttempts now := by
  simp only [OutboxMessage.markFailed]
  split <;> rfl

@[simp] theorem attempts_markFailed (maxAttempts : Nat) :
    (row.markFailed error delay maxAttempts now).attempts = row.attempts + 1 := by
  simp only [OutboxMessage.markFailed]
  split <;> rfl

theorem failedAt_markFailed (maxAttempts : Nat) (hpending : row.failedAt = none) :
    (row.markFailed error delay maxAttempts now).failedAt ≠ none ↔
      maxAttempts ≤ row.attempts + 1 := by
  simp only [OutboxMessage.markFailed]
  split
  case isTrue h => exact ⟨fun _ => h, fun _ => Option.some_ne_none now⟩
  case isFalse h => exact ⟨fun hfailed => absurd hpending hfailed, fun hle => absurd hle h⟩

theorem availableAt_markFailed {maxAttempts : Nat} (h : row.attempts + 1 < maxAttempts) :
    (row.markFailed error delay maxAttempts now).availableAt = now + delay := by
  simp only [OutboxMessage.markFailed]
  rw [if_neg (by omega)]

/-- What the delivery state of a row says after so many committed failures. -/
structure Lawful (config : OutboxConfig) (count : Nat) (row : OutboxMessage J) : Prop where
  attempts : row.attempts = count
  bound : row.attempts ≤ config.maxAttempts
  failed : row.failedAt ≠ none ↔ row.attempts = config.maxAttempts
  exclusive : ¬(row.processedAt ≠ none ∧ row.failedAt ≠ none)
  cleared : row.processedAt ≠ none → row.lastError = none

theorem Lawful.unsent (h : row.Unsent) : Lawful config 0 row := by
  have hmax := config.maxAttempts_range.1
  obtain ⟨hattempts, hprocessed, hfailed⟩ := h
  constructor
  · exact hattempts
  · omega
  · exact ⟨fun h => absurd hfailed h, fun h => by omega⟩
  · exact fun h => h.1 hprocessed
  · exact fun h => absurd hprocessed h

theorem Lawful.markProcessed {count : Nat} (h : Lawful config count row)
    (hpending : row.failedAt = none) : Lawful config count (row.markProcessed now) where
  attempts := h.attempts
  bound := h.bound
  failed := h.failed
  exclusive := fun hboth => hboth.2 hpending
  cleared _ := rfl

theorem Lawful.markFailed {count : Nat} (h : Lawful config count row)
    (hprocessed : row.processedAt = none) (hpending : row.failedAt = none) :
    Lawful config (count + 1) (row.markFailed error delay config.maxAttempts now) := by
  have hbound := h.bound
  have hlast : row.attempts ≠ config.maxAttempts := fun heq => h.failed.mpr heq hpending
  constructor
  · rw [attempts_markFailed, h.attempts]
  · rw [attempts_markFailed]
    omega
  · rw [failedAt_markFailed _ hpending, attempts_markFailed]
    omega
  · rw [OutboxMessage.processedAt_markFailed]
    exact fun hboth => hboth.1 hprocessed
  · rw [OutboxMessage.processedAt_markFailed]
    exact fun hnot => absurd hprocessed hnot

end messages

section tasks
variable {config : OutboxConfig} {run : Run J} {id : Nat} {task next : Task J}

theorem task?_setTask_self (htask : run.task? id = some task) (hid : next.message.id = id) :
    (run.setTask id next).task? id = some next := by
  simp only [Run.task?, Run.setTask] at htask ⊢
  generalize run.tasks = tasks at htask ⊢
  induction tasks with
  | nil => cases htask
  | cons first tasks ih =>
    by_cases hfirst : first.message.id = id
    · simp [hfirst, hid]
    · simp only [List.find?_cons, hfirst, decide_false, List.map_cons, if_false] at htask ⊢
      exact ih htask

theorem task?_setTask_of_ne {other : Nat} (hne : other ≠ id) (hid : next.message.id = id) :
    (run.setTask id next).task? other = run.task? other := by
  simp only [Run.task?, Run.setTask]
  induction run.tasks with
  | nil => rfl
  | cons first tasks ih =>
    by_cases hfirst : first.message.id = id
    · simpa [hfirst, hid, hne.symm] using ih
    · by_cases hother : first.message.id = other
      · simp [hother, hne]
      · simpa [hfirst, hother] using ih

theorem ids_setTask (hid : next.message.id = id) :
    (run.setTask id next).tasks.map (·.message.id) = run.tasks.map (·.message.id) := by
  rw [Run.setTask, List.map_map]
  apply List.map_congr_left
  intro task _
  simp only [Function.comp]
  split
  case isTrue h => rw [hid, h]
  case isFalse => rfl

/-- How a run's copy stands to its row: as acquired, or marked once. -/
def Copies (config : OutboxConfig) (startedAt : Int) (row : OutboxMessage J) (task : Task J) :
    Prop :=
  task.stage ≠ .done ∧ task.message = row ∨
    ∃ now, startedAt ≤ now ∧ task.stage = .done ∧
      (task.message = row.markProcessed now ∨ ∃ error, task.message =
        row.markFailed error (min (5 * 2 ^ row.attempts) 300 * 1000000) config.maxAttempts now)

theorem fail_default (error : String) (now : Int) :
    task.fail config exponentialRetryPolicy error now =
      ⟨task.message.markFailed error (min (5 * 2 ^ task.message.attempts) 300 * 1000000)
        config.maxAttempts now, .done⟩ := by
  unfold Task.fail
  rw [exponentialRetryPolicy_succ]

theorem Copies.fail {startedAt now : Int} {row : OutboxMessage J}
    (h : Copies config startedAt row task) (hstage : task.stage ≠ .done) (hnow : startedAt ≤ now)
    (error : String) :
    Copies config startedAt row (task.fail config exponentialRetryPolicy error now) := by
  obtain ⟨-, hmessage⟩ | ⟨-, -, hdone, -⟩ := h
  · rw [fail_default, hmessage]
    exact .inr ⟨now, hnow, rfl, .inr ⟨error, rfl⟩⟩
  · exact absurd hdone hstage

theorem Copies.start {deserializeEvent : String → J → Except String E} {startedAt now : Int}
    {row : OutboxMessage J} (h : Copies config startedAt row task) (hstage : task.stage ≠ .done)
    (hnow : startedAt ≤ now) :
    Copies config startedAt row
      (task.start config exponentialRetryPolicy deserializeEvent now).1 := by
  unfold Task.start
  split
  · obtain ⟨-, hmessage⟩ | ⟨-, -, hdone, -⟩ := h
    · exact .inl ⟨by simp, hmessage⟩
    · exact absurd hdone hstage
  · exact h.fail hstage hnow _

theorem Copies.finish {startedAt now : Int} {row : OutboxMessage J}
    (h : Copies config startedAt row task) (hstage : task.stage ≠ .done) (hnow : startedAt ≤ now)
    (outcome : Outcome) :
    Copies config startedAt row (task.finish config exponentialRetryPolicy outcome now) := by
  cases outcome with
  | raised error => exact h.fail hstage hnow error
  | published =>
    obtain ⟨-, hmessage⟩ | ⟨-, -, hdone, -⟩ := h
    · exact .inr ⟨now, hnow, rfl, .inl (congrArg (·.markProcessed now) hmessage)⟩
    · exact absurd hdone hstage
  | interrupted =>
    obtain ⟨-, hmessage⟩ | ⟨-, -, hdone, -⟩ := h
    · exact .inl ⟨by simp [Task.finish], hmessage⟩
    · exact absurd hdone hstage

end tasks

theorem Table.saveAll_of_mem {table : Table J} {messages : List (OutboxMessage J)}
    {message row : OutboxMessage J} (hids : (messages.map OutboxMessage.id).Nodup)
    (hmem : message ∈ messages) (hrow : table message.id = some row) :
    table.saveAll messages message.id = some (message.saveOver row) := by
  induction messages generalizing table with
  | nil => cases hmem
  | cons first messages ih =>
    rw [List.map_cons, List.nodup_cons] at hids
    rw [Table.saveAll, List.foldl_cons]
    rcases List.mem_cons.mp hmem with rfl | hlater
    · have hothers : ∀ other ∈ messages, other.id ≠ message.id := fun other hother heq =>
        hids.1 (heq ▸ List.mem_map_of_mem hother)
      refine (Table.saveAll_of_notMem hothers).trans ?_
      rw [Table.save, Function.update_self, hrow, Option.elim_some]
    · have hne : first.id ≠ message.id := fun heq =>
        hids.1 (heq ▸ List.mem_map_of_mem hlater)
      exact ih hids.2 hlater ((Table.save_of_ne hne).trans hrow)

/-- What holds of one run: its copies stand to its rows as they should, and it began at one of
the clock's readings. -/
structure RunLived (config : OutboxConfig) (table : Table J) (times : List Int) (run : Run J) :
    Prop where
  clock : run.phase ≠ .unstarted → run.startedAt ∈ times
  empty : run.phase = .unstarted → run.tasks = []
  ids : (run.tasks.map (·.message.id)).Nodup
  unmarked : ∀ task ∈ run.tasks, task.stage ≠ .done → task.message.processedAt = none
  complete : run.phase = .saved → ∀ task ∈ run.tasks, task.stage = .done
  copied : run.Live → ∀ task ∈ run.tasks, ∃ row, table task.message.id = some row ∧
    row.Deliverable run.startedAt ∧ Copies config run.startedAt row task

structure Lived (config : OutboxConfig) (count : Nat → Nat) (times : List Int) (s : State J) :
    Prop where
  rows : ∀ id row, s.table id = some row → Lawful config (count id) row
  absent : ∀ id, s.table id = none → count id = 0
  runs : ∀ w, RunLived config s.table times (s.runs w)

section preservation
variable {config : OutboxConfig} {count : Nat → Nat} {times more : List Int} {s : State J}
  {w : Nat} {run : Run J} {table table' : Table J}

theorem RunLived.transfer (h : RunLived config table times run)
    (htable : ∀ task ∈ run.tasks, run.Live → ∀ row, table task.message.id = some row →
      table' task.message.id = some row) :
    RunLived config table' (times ++ more) run where
  clock hphase := List.mem_append_left _ (h.clock hphase)
  empty := h.empty
  ids := h.ids
  unmarked := h.unmarked
  complete := h.complete
  copied hlive task htask := by
    obtain ⟨row, hrow, hcopy⟩ := h.copied hlive task htask
    exact ⟨row, htable task htask hlive row hrow, hcopy⟩

theorem RunLived.started (h : RunLived config table times run) {task : Task J}
    (htask : task ∈ run.tasks) : run.phase ≠ .unstarted := by
  intro hunstarted
  rw [h.empty hunstarted] at htask
  cases htask

theorem RunLived.startedAt_mem (h : RunLived config table times run) {task : Task J}
    (htask : task ∈ run.tasks) : run.startedAt ∈ times :=
  h.clock (h.started htask)

theorem RunLived.goesOn (h : RunLived config table times run) (hstarted : run.phase ≠ .unstarted)
    {phase : Phase} (hphase : phase ≠ .unstarted)
    (hsaved : phase = .saved → ∀ task ∈ run.tasks, task.stage = .done)
    (hlive : ({ run with phase := phase } : Run J).Live → run.Live ∧ table' = table) :
    RunLived config table' (times ++ more) { run with phase := phase } where
  clock _ := List.mem_append_left _ (h.clock hstarted)
  empty hunstarted := absurd hunstarted hphase
  ids := h.ids
  unmarked := h.unmarked
  complete := hsaved
  copied hnow := by
    obtain ⟨hbefore, rfl⟩ := hlive hnow
    exact h.copied hbefore

theorem RunLived.lock (h : RunLived config table times run) {row : OutboxMessage J}
    (hphase : run.phase = .acquiring) (hkeyed : table row.id = some row)
    (hfree : ∀ task ∈ run.tasks, task.message.id ≠ row.id)
    (hdeliverable : row.Deliverable run.startedAt) :
    RunLived config table (times ++ more)
      { run with tasks := run.tasks ++ [⟨row, .waiting⟩] } where
  clock hstarted := List.mem_append_left _ (h.clock hstarted)
  empty hunstarted := by
    rw [hphase] at hunstarted
    cases hunstarted
  ids := by
    rw [List.map_append, List.nodup_append]
    refine ⟨h.ids, by simp, ?_⟩
    intro id hid other hother heq
    obtain ⟨task, htask, rfl⟩ := List.mem_map.mp hid
    simp only [List.map_cons, List.map_nil, List.mem_singleton] at hother
    exact hfree task htask (heq.trans hother)
  unmarked task htask hstage := by
    rcases List.mem_append.mp htask with hold | hnew
    · exact h.unmarked task hold hstage
    · rw [List.mem_singleton.mp hnew]
      exact hdeliverable.1
  complete hsaved := by
    rw [hphase] at hsaved
    cases hsaved
  copied _ task htask := by
    rcases List.mem_append.mp htask with hold | hnew
    · exact h.copied (live_of_acquiring hphase) task hold
    · rw [List.mem_singleton.mp hnew]
      exact ⟨row, hkeyed, hdeliverable, .inl ⟨by simp, rfl⟩⟩

theorem RunLived.setTask (h : RunLived config table times run) {id : Nat} {task next : Task J}
    (htask : run.task? id = some task) (hstage : task.stage ≠ .done)
    (hid : next.message.id = task.message.id)
    (hunmarked : next.stage ≠ .done → next.message.processedAt = task.message.processedAt)
    (hcopy : ∀ row, Copies config run.startedAt row task → Copies config run.startedAt row next) :
    RunLived config table (times ++ more) (run.setTask id next) := by
  obtain ⟨hmem, hown⟩ := task?_spec htask
  constructor
  · exact fun _ => List.mem_append_left _ (h.startedAt_mem hmem)
  · intro hunstarted
    have hbefore : run.phase = .unstarted := by
      simp only [Run.setTask] at hunstarted
      split at hunstarted
      · cases hunstarted
      · exact hunstarted
    exact absurd hbefore (h.started hmem)
  · rw [ids_setTask (hid.trans hown)]
    exact h.ids
  · intro other hother hnot
    rcases mem_setTask hother with rfl | hold
    · rw [hunmarked hnot]
      exact h.unmarked task hmem hstage
    · exact h.unmarked other hold hnot
  · intro hsaved
    have hbefore : run.phase = .saved := by
      simp only [Run.setTask] at hsaved
      split at hsaved
      · cases hsaved
      · exact hsaved
    exact absurd (h.complete hbefore task hmem) hstage
  · intro hlive other hother
    rcases mem_setTask hother with rfl | hold
    · obtain ⟨row, hrow, hdeliverable, hcopied⟩ := h.copied (live_of_setTask hlive) task hmem
      exact ⟨row, hid ▸ hrow, hdeliverable, hcopy row hcopied⟩
    · exact h.copied (live_of_setTask hlive) other hold

theorem Lived.setRun (h : Lived config count times s) {t : State J} (htable : t.table = s.table)
    (hruns : t.runs = s.runs) (hrun : RunLived config s.table (times ++ more) run) :
    Lived config count (times ++ more) (t.setRun w run) where
  rows id row hrow := h.rows id row (htable ▸ hrow)
  absent id hrow := h.absent id (htable ▸ hrow)
  runs v := by
    rw [State.setRun_table, htable]
    by_cases hv : v = w
    · rw [hv, State.setRun_self]
      exact hrun
    · rw [State.setRun_of_ne _ hv, hruns]
      exact (h.runs v).transfer fun _ _ _ _ hrow => hrow

theorem RunLived.saved (h : RunLived config table times run) (hphase : run.phase = .saved)
    {task : Task J} (htask : task ∈ run.tasks) :
    ∃ row, table task.message.id = some row ∧ row.Deliverable run.startedAt ∧
      Copies config run.startedAt row task ∧
      table.saveAll run.batch task.message.id = some task.message := by
  obtain ⟨row, hrow, hdeliverable, hcopy⟩ := h.copied (live_of_saved hphase) task htask
  refine ⟨row, hrow, hdeliverable, hcopy, ?_⟩
  have hids : (run.batch.map OutboxMessage.id).Nodup := by
    rw [Run.batch, List.map_map]
    exact h.ids
  rw [Table.saveAll_of_mem hids (List.mem_map_of_mem htask) hrow]
  obtain ⟨hnot, -⟩ | ⟨now, -, -, hmessage | ⟨error, hmessage⟩⟩ := hcopy
  · exact absurd (h.complete hphase task htask) hnot
  · rw [hmessage, saveOver_markProcessed]
  · rw [hmessage, saveOver_markFailed]

theorem RunLived.failedOn (h : RunLived config table times run) (hphase : run.phase = .saved)
    {task : Task J} (htask : task ∈ run.tasks) :
    run.FailedOn task.message.id ↔ task.message.processedAt = none := by
  constructor
  · rintro ⟨other, hother, hid, -, hprocessed⟩
    rwa [List.inj_on_of_nodup_map h.ids hother htask hid] at hprocessed
  · exact fun hprocessed => ⟨task, htask, rfl, h.complete hphase task htask, hprocessed⟩

theorem Copies.lawful {startedAt : Int} {row : OutboxMessage J} {task : Task J} {n : Nat}
    (hcopy : Copies config startedAt row task) (hdone : task.stage = .done)
    (hdeliverable : row.Deliverable startedAt) (h : Lawful config n row) :
    Lawful config (n + if task.message.processedAt = none then 1 else 0) task.message := by
  obtain ⟨hnot, -⟩ | ⟨now, -, -, hmessage | ⟨error, hmessage⟩⟩ := hcopy
  · exact absurd hdone hnot
  · rw [hmessage, if_neg (by simp [OutboxMessage.markProcessed])]
    exact h.markProcessed hdeliverable.2.1
  · rw [hmessage, OutboxMessage.processedAt_markFailed, if_pos hdeliverable.1]
    exact h.markFailed hdeliverable.1 hdeliverable.2.1

theorem Copies.availableAt_le {startedAt : Int} {row : OutboxMessage J} {task : Task J}
    (hcopy : Copies config startedAt row task) (hdeliverable : row.Deliverable startedAt) :
    row.availableAt ≤ task.message.availableAt := by
  obtain ⟨-, hmessage⟩ | ⟨now, hnow, -, hmessage | ⟨error, hmessage⟩⟩ := hcopy
  · rw [hmessage]
  · rw [hmessage]
    exact le_refl row.availableAt
  · have hstart := hdeliverable.2.2
    have hpow : (0 : Int) < 2 ^ row.attempts := Int.pow_pos (by decide)
    have hdelay : (0 : Int) ≤ min (5 * 2 ^ row.attempts) 300 * 1000000 := by omega
    rw [hmessage]
    simp only [OutboxMessage.markFailed]
    split
    · exact le_refl row.availableAt
    · change row.availableAt ≤ now + min (5 * 2 ^ row.attempts) 300 * 1000000
      omega

theorem saveAll_batch_of_ne {run : Run J} {id : Nat}
    (hnone : ∀ task ∈ run.tasks, task.message.id ≠ id) :
    s.table.saveAll run.batch id = s.table id := by
  apply Table.saveAll_of_notMem
  intro message hmessage
  obtain ⟨task, htask, rfl⟩ := List.mem_map.mp hmessage
  exact hnone task htask

theorem Lived.commit (h : Lived config count times s) {out : List (Effect E)}
    (hconsistent : Consistent out s) (hphase : (s.runs w).phase = .saved) :
    Lived config (fun id => count id + if (s.runs w).FailedOn id then 1 else 0) (times ++ more)
      (((s.release w).save (s.runs w).batch).setRun w { s.runs w with phase := .committed }) where
  rows id row hrow := by
    change s.table.saveAll (s.runs w).batch id = some row at hrow
    by_cases hmem : ∃ task ∈ (s.runs w).tasks, task.message.id = id
    · obtain ⟨task, htask, rfl⟩ := hmem
      obtain ⟨old, hold, hdeliverable, hcopy, hsaved⟩ := (h.runs w).saved hphase htask
      have hsame : task.message = row := Option.some.inj (hsaved.symm.trans hrow)
      have hlawful := hcopy.lawful ((h.runs w).complete hphase task htask) hdeliverable
        (h.rows _ old hold)
      simp only [(h.runs w).failedOn hphase htask]
      exact hsame ▸ hlawful
    · have hnone : ∀ task ∈ (s.runs w).tasks, task.message.id ≠ id := fun task htask hid =>
        hmem ⟨task, htask, hid⟩
      have hnot : ¬(s.runs w).FailedOn id := fun hfailed =>
        hmem (hfailed.imp fun _ hin => ⟨hin.1, hin.2.1⟩)
      rw [if_neg hnot]
      exact h.rows id row ((saveAll_batch_of_ne hnone).symm.trans hrow)
  absent id hrow := by
    change s.table.saveAll (s.runs w).batch id = none at hrow
    have hnone : ∀ task ∈ (s.runs w).tasks, task.message.id ≠ id := by
      rintro task htask rfl
      obtain ⟨_, _, _, _, hsaved⟩ := (h.runs w).saved hphase htask
      rw [hsaved] at hrow
      cases hrow
    have hnot : ¬(s.runs w).FailedOn id := fun ⟨task, htask, hid, _⟩ => hnone task htask hid
    rw [if_neg hnot]
    exact h.absent id ((saveAll_batch_of_ne hnone).symm.trans hrow)
  runs v := by
    rw [State.setRun_table]
    by_cases hv : v = w
    · rw [hv, State.setRun_self]
      apply (h.runs w).goesOn (by simp [hphase]) (by simp) (by simp)
      simp [Run.Live]
    · rw [State.setRun_of_ne _ hv]
      refine (h.runs v).transfer ?_
      intro task htask hlive row hrow
      refine (saveAll_batch_of_ne ?_).trans hrow
      -- both runs would hold the lock
      intro other hother hid
      have hlock := (hconsistent.runs w).held (live_of_saved hphase) other hother
      rw [hid, (hconsistent.runs v).held hlive task htask] at hlock
      exact hv (Option.some.inj hlock)

end preservation

section process
variable {config : OutboxConfig} {deserializeEvent : String → J → Except String E}
  {count : Nat → Nat} {times : List Int} {s s' : State J} {event : Event J}
  {out more : List (Effect E)}

theorem not_done_of_start {run : Run J} {id : Nat} {task : Task J}
    (h : run.MayStart config id task) : task.stage ≠ .done := by
  rw [h.2.1]
  decide

theorem not_done_of_publishing {task : Task J} (h : task.stage = .publishing) :
    task.stage ≠ .done := by
  rw [h]
  decide

theorem processedAt_finish_of_not_done {task : Task J} (outcome : Outcome) {now : Int}
    (h : (task.finish config exponentialRetryPolicy outcome now).stage ≠ .done) :
    (task.finish config exponentialRetryPolicy outcome now).message.processedAt =
      task.message.processedAt := by
  cases outcome with
  | published => exact absurd rfl h
  | raised error => exact absurd rfl h
  | interrupted => rfl

theorem Lived.idle (h : Lived config count times s) (more : List Int) :
    Lived config count (times ++ more) s :=
  ⟨h.rows, h.absent, fun w => (h.runs w).transfer fun _ _ _ _ hrow => hrow⟩

theorem Lived.insert (h : Lived config count times s) {row : OutboxMessage J}
    (hfresh : s.table row.id = none) (hunsent : row.Unsent) (more : List Int) :
    Lived config count (times ++ more) (s.insert row) where
  rows id old hold := by
    by_cases hid : id = row.id
    · rw [hid, s.insert_self] at hold
      rw [hid, h.absent _ hfresh, ← Option.some.inj hold]
      exact .unsent hunsent
    · rw [s.insert_of_ne _ hid] at hold
      exact h.rows id old hold
  absent id hnone := by
    by_cases hid : id = row.id
    · rw [hid, s.insert_self] at hnone
      cases hnone
    · rw [s.insert_of_ne _ hid] at hnone
      exact h.absent id hnone
  runs w := (h.runs w).transfer fun _ _ _ _ hrow => s.insert_of_some hfresh hrow

theorem Lived.phase (h : Lived config count times s) {t : State J} (htable : t.table = s.table)
    (hruns : t.runs = s.runs) {w : Nat} {phase : Phase} (hstarted : (s.runs w).phase ≠ .unstarted)
    (hphase : phase ≠ .unstarted)
    (hsaved : phase = .saved → ∀ task ∈ (s.runs w).tasks, task.stage = .done)
    (hlive : ({ s.runs w with phase := phase } : Run J).Live → (s.runs w).Live)
    (more : List Int) :
    Lived config count (times ++ more) (t.setRun w { s.runs w with phase := phase }) :=
  h.setRun htable hruns <| (h.runs w).goesOn hstarted hphase hsaved fun hnow => ⟨hlive hnow, rfl⟩

theorem Lived.other (h : Lived config count times s) (hconsistent : Consistent out s)
    (hacts : Acts config exponentialRetryPolicy deserializeEvent s event s' more)
    (hcommit : ∀ w, event = .commit w → (s.runs w).phase ≠ .saved)
    (hinsert : ∀ row, event = .insert row → row.Unsent)
    (hclock : ∀ now, event.time = some now → ∀ before ∈ times, before ≤ now) :
    Lived config count (times ++ event.time.toList) s' := by
  cases hacts with
  | idle => exact h.idle _
  | inserted hfresh => exact h.insert hfresh (hinsert _ rfl) _
  | begun hphase =>
    apply h.setRun rfl rfl
    constructor
    · exact fun _ => List.mem_append_right _ (List.mem_singleton.mpr rfl)
    · exact fun _ => rfl
    · exact List.nodup_nil
    · simp
    · simp
    · simp
  | @locked w id row hphase hlimit hfree hrow hdeliverable =>
    have hid : row.id = id := hconsistent.keyed id row hrow
    apply h.setRun (t := s.lock w id) rfl rfl
    apply (h.runs w).lock hphase (hid ▸ hrow)
    · intro task htask heq
      have hheld := (hconsistent.runs w).held (live_of_acquiring hphase) task htask
      rw [heq, hid, hfree] at hheld
      cases hheld
    · exact hdeliverable
  | foundNone hphase =>
    apply h.phase (t := s.release _) rfl rfl (by simp [hphase]) (by simp) (by simp)
    simp [Run.Live]
  | foundSome hphase =>
    apply h.phase rfl rfl (by simp [hphase]) (by simp) (by simp)
    exact fun _ => live_of_acquiring hphase
  | @started w id now task htask hstart =>
    apply h.setRun rfl rfl
    have hstage : task.stage ≠ .done := not_done_of_start hstart
    have hnow : (s.runs w).startedAt ≤ now :=
      hclock now rfl _ ((h.runs w).startedAt_mem (task?_spec htask).1)
    apply (h.runs w).setTask htask hstage
    · exact OutboxMessage.id_of_content content_start
    · exact fun _ => processedAt_start
    · exact fun row hcopy => hcopy.start hstage hnow
  | @finished w id outcome now task htask hgoes hpublishing =>
    apply h.setRun rfl rfl
    have hstage : task.stage ≠ .done := not_done_of_publishing hpublishing
    have hnow : (s.runs w).startedAt ≤ now :=
      hclock now rfl _ ((h.runs w).startedAt_mem (task?_spec htask).1)
    apply (h.runs w).setTask htask hstage
    · exact OutboxMessage.id_of_content (content_finish outcome)
    · exact fun hnot => processedAt_finish_of_not_done outcome hnot
    · exact fun row hcopy => hcopy.finish hstage hnow outcome
  | saved hphase hdone =>
    apply h.phase rfl rfl (by simp [hphase]) (by simp) (fun _ => hdone)
    exact fun _ => live_of_publishing hphase
  | committed hphase => exact absurd hphase (hcommit _ rfl)
  | rolledBack hphase =>
    apply h.phase (t := s.release _) rfl rfl (by simp [hphase]) (by simp) (by simp)
    simp [Run.Live]
  | crashed hphase =>
    refine h.phase (t := s.release _) rfl rfl ?_ (by simp) (by simp) ?_ _
    · rintro hunstarted
      simp [Run.Live, hunstarted] at hphase
    · simp [Run.Live]

end process
end DddFramework.Outbox
