import DddFramework.Outbox.Copies

/-! The life of a message under the default retry policy: its attempts are its committed
failures, and its time of availability never decreases. -/
namespace DddFramework.Outbox
open Library

variable {J E : Type}

/-- Messages are inserted unsent, and the clock never goes back. -/
def Orderly (events : List (Event J)) : Prop :=
  (∀ row, .insert row ∈ events → row.Unsent) ∧ (events.filterMap Event.time).Pairwise (· ≤ ·)

def commitsFailure (id : Nat) (x : State J × Event J) : Bool :=
  match x.2 with
  | .commit w => (x.1.runs w).phase = .saved ∧ (x.1.runs w).FailedOn id
  | _ => false

section process
variable (config : OutboxConfig) (deserializeEvent : String → J → Except String E)

abbrev defaultMachine : Machine (State J) (Event J) (Effect E) :=
  machine config exponentialRetryPolicy deserializeEvent

abbrev reached (events : List (Event J)) : State J :=
  (defaultMachine config deserializeEvent).after .init events

def failures (events : List (Event J)) (id : Nat) : Nat :=
  ((defaultMachine config deserializeEvent).steps .init events).countP (commitsFailure id)

/-- A step in which the delivery of a message in a run fails. -/
def Fails (s : State J) (event : Event J) (w id : Nat) (now : Int) : Prop :=
  ∃ task, (s.runs w).task? id = some task ∧
    ((event = .start w id now ∧ (s.runs w).MayStart config id task ∧
      ∃ error, deserializeEvent task.message.type task.message.payload = .error error) ∨
    ((s.runs w).GoesOn config ∧ task.stage = .publishing ∧
      ∃ error, event = .finish w id (.raised error) now))

/-- What every message keeps to in the state a run reaches, and on the way there. -/
structure Lifecycle (events : List (Event J)) : Prop where
  attempts : ∀ id row, (reached config deserializeEvent events).table id = some row →
    row.attempts = failures config deserializeEvent events id ∧ row.attempts ≤ config.maxAttempts
  failed : ∀ id row, (reached config deserializeEvent events).table id = some row →
    (row.failedAt ≠ none ↔ row.attempts = config.maxAttempts)
  exclusive : ∀ id row, (reached config deserializeEvent events).table id = some row →
    ¬(row.processedAt ≠ none ∧ row.failedAt ≠ none)
  cleared : ∀ id row, (reached config deserializeEvent events).table id = some row →
    row.processedAt ≠ none → row.lastError = none
  told : ∀ w id, ((reached config deserializeEvent events).runs w).FailedOn id ↔
    ∃ x ∈ (defaultMachine config deserializeEvent).steps .init events, ∃ now,
      Fails config deserializeEvent x.1 x.2 w id now
  delayed : ∀ before failing between w middle v id rest now,
    events = before ++ failing :: between ++ .commit w :: middle ++ .lock v id :: rest →
    Fails config deserializeEvent (reached config deserializeEvent before) failing w id now →
    ((reached config deserializeEvent (before ++ failing :: between)).runs w).phase = .saved →
    ∀ k, failures config deserializeEvent (before ++ failing :: between ++ [.commit w]) id = k →
    k < config.maxAttempts →
    ∀ s, reached config deserializeEvent (before ++ failing :: between ++ .commit w :: middle) = s →
    .acquired v id ∈ (step config exponentialRetryPolicy deserializeEvent s (.lock v id)).2 →
    now + min (5 * 2 ^ (k - 1)) 300 * 1000000 ≤ (s.runs v).startedAt

end process

section process
variable {config : OutboxConfig} {deserializeEvent : String → J → Except String E}
  {count : Nat → Nat} {times : List Int} {s s' : State J} {event : Event J}
  {more : List (Effect E)}

theorem acts_done (hacts : Acts config exponentialRetryPolicy deserializeEvent s event s' more)
    (h : Lived config count times s) {w id : Nat} {task : Task J}
    (htask : (s.runs w).task? id = some task) (hdone : task.stage = .done) :
    (s'.runs w).task? id = some task := by
  have hkept : ∀ (t : State J) (v : Nat) (run : Run J), t.runs = s.runs →
      (v = w → run.task? id = some task) → ((t.setRun v run).runs w).task? id = some task := by
    intro t v run hruns hrun
    by_cases hv : w = v
    · rw [hv, State.setRun_self]
      exact hrun hv.symm
    · rw [State.setRun_of_ne _ hv, hruns]
      exact htask
  have hmoved : ∀ (v other : Nat) (old next : Task J), (s.runs v).task? other = some old →
      old.stage ≠ .done → next.message.id = old.message.id → v = w →
      ((s.runs v).setTask other next).task? id = some task := by
    rintro v other old next hold hstage hid rfl
    have hne : id ≠ other := by
      rintro rfl
      rw [Option.some.inj (hold.symm.trans htask)] at hstage
      exact hstage hdone
    rw [task?_setTask_of_ne hne (hid.trans (task?_spec hold).2)]
    exact htask
  cases hacts with
  | idle => exact htask
  | inserted => exact htask
  | begun hphase =>
    apply hkept _ _ _ rfl
    rintro rfl
    exact absurd hphase ((h.runs _).started (task?_spec htask).1)
  | @locked v other row =>
    apply hkept (s.lock v other) _ _ rfl
    rintro rfl
    rw [Run.task?, List.find?_append, ← Run.task?, htask]
    rfl
  | started hold hstart =>
    apply hkept _ _ _ rfl
    exact hmoved _ _ _ _ hold (not_done_of_start hstart) (OutboxMessage.id_of_content content_start)
  | finished hold _ hpublishing =>
    apply hkept _ _ _ rfl
    exact hmoved _ _ _ _ hold (not_done_of_publishing hpublishing)
      (OutboxMessage.id_of_content (content_finish _))
  | foundSome => exact hkept s _ _ rfl fun heq => heq ▸ htask
  | saved => exact hkept s _ _ rfl fun heq => heq ▸ htask
  | committed => exact hkept ((s.release _).save _) _ _ rfl fun heq => heq ▸ htask
  | foundNone => exact hkept (s.release _) _ _ rfl fun heq => heq ▸ htask
  | rolledBack => exact hkept (s.release _) _ _ rfl fun heq => heq ▸ htask
  | crashed => exact hkept (s.release _) _ _ rfl fun heq => heq ▸ htask

theorem acts_availableAt
    (hacts : Acts config exponentialRetryPolicy deserializeEvent s event s' more)
    (h : Lived config count times s) {id : Nat} {row : OutboxMessage J}
    (hrow : s.table id = some row) :
    ∃ row', s'.table id = some row' ∧ row.availableAt ≤ row'.availableAt := by
  cases hacts with
  | inserted hfresh => exact ⟨row, s.insert_of_some hfresh hrow, le_rfl⟩
  | @committed w hphase =>
    by_cases hmem : ∃ task ∈ (s.runs w).tasks, task.message.id = id
    · obtain ⟨task, htask, rfl⟩ := hmem
      obtain ⟨old, hold, hdeliverable, hcopy, hsaved⟩ := (h.runs w).saved hphase htask
      rw [Option.some.inj (hrow.symm.trans hold)]
      exact ⟨task.message, hsaved, hcopy.availableAt_le hdeliverable⟩
    · refine ⟨row, (Table.saveAll_of_notMem ?_).trans hrow, le_rfl⟩
      intro message hmessage hid
      obtain ⟨task, htask, rfl⟩ := List.mem_map.mp hmessage
      exact hmem ⟨task, htask, hid⟩
  | _ => exact ⟨row, hrow, le_rfl⟩

theorem Fails.step {w id : Nat} {now : Int} (h : Fails config deserializeEvent s event w id now) :
    ∃ task error, (s.runs w).task? id = some task ∧ task.stage ≠ .done ∧
      ((step config exponentialRetryPolicy deserializeEvent s event).1.runs w).task? id =
        some (task.fail config exponentialRetryPolicy error now) := by
  obtain ⟨task, htask, ⟨rfl, hstart, error, herror⟩ | ⟨hgoes, hstage, error, rfl⟩⟩ := h
  · have hid : (task.fail config exponentialRetryPolicy error now).message.id = id :=
      (OutboxMessage.id_of_content content_fail).trans (task?_spec htask).2
    refine ⟨task, error, htask, not_done_of_start hstart, ?_⟩
    simp only [step, startTask, htask, if_pos hstart, Task.start, herror, State.setRun_self]
    exact task?_setTask_self htask hid
  · have hid : (task.fail config exponentialRetryPolicy error now).message.id = id :=
      (OutboxMessage.id_of_content content_fail).trans (task?_spec htask).2
    refine ⟨task, error, htask, not_done_of_publishing hstage, ?_⟩
    simp only [step, finishTask, htask, if_pos (And.intro hgoes hstage), Task.finish,
      State.setRun_self]
    exact task?_setTask_self htask hid

end process

section runs
variable {config : OutboxConfig} {deserializeEvent : String → J → Except String E}
  {events past between : List (Event J)}

theorem Orderly.before {rest : List (Event J)} (h : Orderly (past ++ rest)) : Orderly past := by
  refine ⟨fun row hrow => h.1 row (List.mem_append_left _ hrow), ?_⟩
  have hordered := h.2
  rw [List.filterMap_append, List.pairwise_append] at hordered
  exact hordered.1

theorem Orderly.last {event : Event J} (h : Orderly (past ++ [event])) :
    (∀ row, event = .insert row → row.Unsent) ∧
      ∀ now, event.time = some now → ∀ before ∈ past.filterMap Event.time, before ≤ now := by
  refine ⟨fun row heq => h.1 row (by simp [heq]), fun now htime before hbefore => ?_⟩
  have hordered := h.2
  rw [List.filterMap_append, List.pairwise_append] at hordered
  exact hordered.2.2 before hbefore now (by simp [htime])

theorem reached_concat (event : Event J) :
    reached config deserializeEvent (past ++ [event]) =
      (step config exponentialRetryPolicy deserializeEvent
        (reached config deserializeEvent past) event).1 :=
  Machine.after_concat ..

theorem failures_concat (event : Event J) (id : Nat) :
    failures config deserializeEvent (past ++ [event]) id =
      failures config deserializeEvent past id +
        if commitsFailure id (reached config deserializeEvent past, event) then 1 else 0 := by
  rw [failures, Machine.steps_concat, List.countP_append, List.countP_singleton]
  rfl

theorem Lived.step {count : Nat → Nat} {times : List Int} {s : State J} {event : Event J}
    {out : List (Effect E)} (h : Lived config count times s) (hconsistent : Consistent out s)
    (hinsert : ∀ row, event = .insert row → row.Unsent)
    (hclock : ∀ now, event.time = some now → ∀ before ∈ times, before ≤ now) :
    Lived config (fun id => count id + if commitsFailure id (s, event) then 1 else 0)
      (times ++ event.time.toList)
      (step config exponentialRetryPolicy deserializeEvent s event).1 := by
  by_cases hcommit : ∃ w, event = .commit w ∧ (s.runs w).phase = .saved
  · obtain ⟨w, rfl, hphase⟩ := hcommit
    have hcommitted : Lived config _ (times ++ (Event.commit (J := J) w).time.toList) _ :=
      h.commit hconsistent hphase
    simpa [commitsFailure, Outbox.step, hphase] using hcommitted
  · have hnone : ∀ id, commitsFailure id (s, event) = false := by
      intro id
      cases event with
      | commit w =>
        have hphase : (s.runs w).phase ≠ .saved := fun hphase => hcommit ⟨w, rfl, hphase⟩
        simp [commitsFailure, hphase]
      | _ => rfl
    have hsame := h.other hconsistent
      (step_acts config exponentialRetryPolicy deserializeEvent s event)
      (fun w heq hphase => hcommit ⟨w, heq, hphase⟩) hinsert hclock
    simpa [hnone] using hsame

theorem lived_after (h : Orderly events) :
    Lived config (failures config deserializeEvent events) (events.filterMap Event.time)
      (reached config deserializeEvent events) := by
  induction events using List.reverseRecOn with
  | nil =>
    constructor
    · exact fun id row hrow => by cases hrow
    · exact fun _ _ => rfl
    · intro w
      exact ⟨fun hstarted => absurd rfl hstarted, fun _ => rfl, List.nodup_nil, by simp [State.init,
        Run.init], fun _ => by simp [State.init, Run.init], fun _ => by simp [State.init, Run.init]⟩
  | append_singleton past event ih =>
    have hconsistent : Consistent _ (reached config deserializeEvent past) := consistent_after past
    have hstep : Lived config _ _ (step config exponentialRetryPolicy deserializeEvent _ event).1 :=
      (ih h.before).step hconsistent h.last.1 h.last.2
    have htimes : [event].filterMap Event.time = event.time.toList := by
      cases htime : event.time <;> simp [htime]
    rw [funext (failures_concat event), reached_concat, List.filterMap_append, htimes]
    exact hstep

theorem fails_kept {before : List (Event J)} {failing : Event J} {w id : Nat} {now : Int}
    (horderly : Orderly (before ++ failing :: between))
    (h : Fails config deserializeEvent (reached config deserializeEvent before) failing w id now) :
    ∃ (task : Task J) (error : String), task.stage ≠ .done ∧ task.message.processedAt = none ∧
      ((reached config deserializeEvent (before ++ failing :: between)).runs w).task? id =
        some (task.fail config exponentialRetryPolicy error now) := by
  induction between using List.reverseRecOn with
  | nil =>
    obtain ⟨task, error, htask, hstage, hnext⟩ := h.step
    have hunmarked :=
      ((lived_after horderly.before).runs w).unmarked task (task?_spec htask).1 hstage
    rw [reached_concat]
    exact ⟨task, error, hstage, hunmarked, hnext⟩
  | append_singleton between event ih =>
    rw [← List.cons_append, ← List.append_assoc] at horderly ⊢
    obtain ⟨task, error, hstage, hunmarked, hkept⟩ := ih horderly.before
    refine ⟨task, error, hstage, hunmarked, ?_⟩
    rw [reached_concat]
    exact acts_done (step_acts config exponentialRetryPolicy deserializeEvent _ event)
      (lived_after horderly.before) hkept rfl

theorem failedOn_of_fail {run : Run J} {id : Nat} {task : Task J} {error : String} {now : Int}
    (hunmarked : task.message.processedAt = none)
    (h : run.task? id = some (task.fail config exponentialRetryPolicy error now)) :
    run.FailedOn id :=
  ⟨_, (task?_spec h).1, (task?_spec h).2, rfl, processedAt_fail.trans hunmarked⟩

/-- A step after which a delivery has failed that had not failed before is the failing one. -/
theorem fails_of_acts {s s' : State J} {event : Event J} {more : List (Effect E)} {w id : Nat}
    (hacts : Acts config exponentialRetryPolicy deserializeEvent s event s' more)
    (hafter : (s'.runs w).FailedOn id) (hbefore : ¬(s.runs w).FailedOn id) :
    ∃ now, Fails config deserializeEvent s event w id now := by
  have hother : ∀ (t : State J) (v : Nat) (run : Run J), s' = t.setRun v run → t.runs = s.runs →
      v = w ∧ run.FailedOn id := by
    rintro t v run rfl hruns
    by_cases hv : w = v
    · subst hv
      rw [State.setRun_self] at hafter
      exact ⟨rfl, hafter⟩
    · rw [State.setRun_of_ne _ hv, hruns] at hafter
      exact absurd hafter hbefore
  have hmoved : ∀ (t : State J) (v : Nat) (run : Run J), s' = t.setRun v run → t.runs = s.runs →
      run.tasks = (s.runs v).tasks → False := by
    intro t v run hstate hruns htasks
    obtain ⟨rfl, hfailed⟩ := hother t v run hstate hruns
    unfold Run.FailedOn at hfailed hbefore
    exact hbefore (htasks ▸ hfailed)
  cases hacts with
  | idle => exact absurd hafter hbefore
  | inserted => exact absurd hafter hbefore
  | begun =>
    obtain ⟨-, task, htask, -⟩ := hother _ _ _ rfl rfl
    cases htask
  | @locked v other row =>
    obtain ⟨rfl, task, htask, hid, hdone, hprocessed⟩ := hother (s.lock v other) _ _ rfl rfl
    rcases List.mem_append.mp htask with hold | hnew
    · exact absurd ⟨task, hold, hid, hdone, hprocessed⟩ hbefore
    · rw [List.mem_singleton.mp hnew] at hdone
      cases hdone
  | @started v other now old hold hstart =>
    obtain ⟨rfl, task, htask, hid, hdone, hprocessed⟩ := hother _ _ _ rfl rfl
    rcases mem_setTask htask with rfl | hmem
    · have hsame : other = id := by
        rw [← hid, OutboxMessage.id_of_content content_start]
        exact (task?_spec hold).2.symm
      subst hsame
      refine ⟨now, old, hold, .inl ⟨rfl, hstart, ?_⟩⟩
      cases hevent : deserializeEvent old.message.type old.message.payload with
      | error error => exact ⟨error, rfl⟩
      | ok event =>
        simp only [Task.start, hevent] at hdone
        cases hdone
    · exact absurd ⟨task, hmem, hid, hdone, hprocessed⟩ hbefore
  | @finished v other outcome now old hold hgoes hstage =>
    obtain ⟨rfl, task, htask, hid, hdone, hprocessed⟩ := hother _ _ _ rfl rfl
    rcases mem_setTask htask with rfl | hmem
    · have hsame : other = id := by
        rw [← hid, OutboxMessage.id_of_content (content_finish outcome)]
        exact (task?_spec hold).2.symm
      subst hsame
      cases outcome with
      | published => cases hprocessed
      | interrupted => cases hdone
      | raised error => exact ⟨now, old, hold, .inr ⟨hgoes, hstage, error, rfl⟩⟩
    · exact absurd ⟨task, hmem, hid, hdone, hprocessed⟩ hbefore
  | foundNone => exact (hmoved (s.release _) _ _ rfl rfl rfl).elim
  | foundSome => exact (hmoved s _ _ rfl rfl rfl).elim
  | saved => exact (hmoved s _ _ rfl rfl rfl).elim
  | committed => exact (hmoved ((s.release _).save _) _ _ rfl rfl rfl).elim
  | rolledBack => exact (hmoved (s.release _) _ _ rfl rfl rfl).elim
  | crashed => exact (hmoved (s.release _) _ _ rfl rfl rfl).elim

theorem failedOn_iff (h : Orderly events) (w id : Nat) :
    ((reached config deserializeEvent events).runs w).FailedOn id ↔
      ∃ x ∈ (defaultMachine config deserializeEvent).steps .init events, ∃ now,
        Fails config deserializeEvent x.1 x.2 w id now := by
  constructor
  · intro hfailed
    induction events using List.reverseRecOn with
    | nil =>
      obtain ⟨task, htask, -⟩ := hfailed
      cases htask
    | append_singleton past event ih =>
      rw [Machine.steps_concat]
      by_cases hbefore : ((reached config deserializeEvent past).runs w).FailedOn id
      · obtain ⟨x, hx, hfails⟩ := ih h.before hbefore
        exact ⟨x, List.mem_append_left _ hx, hfails⟩
      · rw [reached_concat] at hfailed
        exact ⟨_, List.mem_append_right _ (List.mem_singleton.mpr rfl),
          fails_of_acts (step_acts config exponentialRetryPolicy deserializeEvent _ event) hfailed
            hbefore⟩
  · rintro ⟨⟨s, failing⟩, hx, now, hfails⟩
    obtain ⟨before, between, rfl, rfl⟩ := (Machine.mem_steps _).mp hx
    obtain ⟨task, error, -, hunmarked, hkept⟩ := fails_kept h hfails
    exact failedOn_of_fail hunmarked hkept

theorem after_availableAt {id : Nat} {row : OutboxMessage J} (h : Orderly (past ++ between))
    (hrow : (reached config deserializeEvent past).table id = some row) :
    ∃ row', (reached config deserializeEvent (past ++ between)).table id = some row' ∧
      row.availableAt ≤ row'.availableAt := by
  induction between using List.reverseRecOn with
  | nil => exact ⟨row, by rwa [List.append_nil], le_rfl⟩
  | append_singleton between event ih =>
    rw [← List.append_assoc] at h ⊢
    obtain ⟨next, hnext, hle⟩ := ih h.before
    obtain ⟨last, hlast, hle'⟩ := acts_availableAt
      (step_acts config exponentialRetryPolicy deserializeEvent _ event)
      (lived_after h.before) hnext
    exact ⟨last, reached_concat event ▸ hlast, hle.trans hle'⟩

theorem deliverable_of_acquired {s : State J} {v id : Nat}
    (h : .acquired v id ∈ (step config exponentialRetryPolicy deserializeEvent s (.lock v id)).2) :
    ∃ row, s.table id = some row ∧ row.Deliverable (s.runs v).startedAt := by
  simp only [step, lockRow] at h
  split at h
  case h_1 => cases h
  case h_2 row hrow =>
    split at h
    case isTrue htaken => exact ⟨row, hrow, htaken.2.2.2⟩
    case isFalse => cases h

theorem committed_failure {before : List (Event J)} {failing : Event J} {w id k : Nat} {now : Int}
    (h : Orderly (before ++ failing :: between ++ [.commit w]))
    (hfails : Fails config deserializeEvent (reached config deserializeEvent before) failing w id
      now)
    (hphase : ((reached config deserializeEvent (before ++ failing :: between)).runs w).phase =
      .saved)
    (hk : failures config deserializeEvent (before ++ failing :: between ++ [.commit w]) id = k)
    (hmax : k < config.maxAttempts) :
    ∃ row, (reached config deserializeEvent
      (before ++ failing :: between ++ [.commit w])).table id = some row ∧
      row.availableAt = now + min (5 * 2 ^ (k - 1)) 300 * 1000000 := by
  obtain ⟨task, error, -, -, hkept⟩ := fails_kept h.before hfails
  obtain ⟨hmem, hid⟩ := task?_spec hkept
  have hlived : Lived config (failures config deserializeEvent _) _ _ := lived_after h.before
  obtain ⟨-, -, -, -, hsaved⟩ := (hlived.runs w).saved hphase hmem
  rw [hid] at hsaved
  have hrow : (reached config deserializeEvent
      (before ++ failing :: between ++ [.commit w])).table id =
      some (task.fail config exponentialRetryPolicy error now).message := by
    rw [reached_concat]
    simp only [step, hphase, if_true]
    exact hsaved
  refine ⟨_, hrow, ?_⟩
  have hattempts := ((lived_after h).rows id _ hrow).attempts
  rw [hk, fail_default, attempts_markFailed] at hattempts
  rw [fail_default, availableAt_markFailed (hattempts ▸ hmax), ← hattempts, Nat.add_sub_cancel]

/-- Under the default policy and a clock that never goes back, every message keeps to its
lifecycle in every run. -/
theorem message_lifecycle (config : OutboxConfig) (deserializeEvent : String → J → Except String E)
    (events : List (Event J)) (h : Orderly events) : Lifecycle config deserializeEvent events := by
  have hlived : Lived config _ _ (reached config deserializeEvent events) := lived_after h
  constructor
  · exact fun id row hrow => ⟨(hlived.rows id row hrow).attempts, (hlived.rows id row hrow).bound⟩
  · exact fun id row hrow => (hlived.rows id row hrow).failed
  · exact fun id row hrow => (hlived.rows id row hrow).exclusive
  · exact fun id row hrow => (hlived.rows id row hrow).cleared
  · exact failedOn_iff h
  · rintro before failing between w middle v id rest now rfl hfails hphase k hk hmax s rfl hacquired
    have hbefore : Orderly (before ++ failing :: between ++ [.commit w] ++ middle) := by
      rw [List.append_assoc _ [_] middle, List.singleton_append]
      exact h.before
    obtain ⟨row, hrow, havailable⟩ := committed_failure hbefore.before hfails hphase hk hmax
    obtain ⟨last, hlast, hle⟩ := after_availableAt hbefore hrow
    rw [List.append_assoc _ [_] middle, List.singleton_append] at hlast
    obtain ⟨taken, htaken, hdeliverable⟩ := deliverable_of_acquired hacquired
    rw [Option.some.inj (htaken.symm.trans hlast)] at hdeliverable
    exact (havailable ▸ hle).trans hdeliverable.2.2

end runs

section witness

def retried : List (Event String) :=
  [.insert (ordered 1), .begin 1 0, .lock 1 1, .acquired 1, .start 1 1 0,
    .finish 1 1 (.raised "broker down") 1, .saveAll 1, .commit 1,
    .begin 2 5000000, .lock 2 1, .acquired 2,
    .begin 3 5000001, .lock 3 1, .acquired 3, .start 3 1 5000001,
    .finish 3 1 .published 5000002, .saveAll 3, .commit 3]

theorem orderly_retried : Orderly retried := by
  refine ⟨?_, by decide⟩
  intro row hrow
  have hsame : row = ordered 1 := by simpa [retried] using hrow
  rw [hsame]
  decide

theorem message_lifecycle_retried :
    Lifecycle (E := String) {} (fun _ payload => .ok payload) retried ∧
      failures (E := String) {} (fun _ payload => .ok payload) retried 1 = 1 :=
  ⟨message_lifecycle {} _ retried orderly_retried, by decide +kernel⟩

end witness
end DddFramework.Outbox
