import DddFramework.Outbox.Copies

/-! One call of `process` from its acquired batch on, among whatever other calls do. Under a
retry policy that never raises no exception leaves a task, and a message is recorded as its
own publication ended, whether the batch is sent in parallel or one by one. -/
namespace DddFramework.Outbox
open Library

variable {J E : Type}

/-- What the publisher does with a message: return, or raise an exception with this text. -/
abbrev Publisher (J : Type) := OutboxMessage J → Option String

def Run.Acquired (run : Run J) (batch : List (OutboxMessage J)) : Prop :=
  run.phase = .publishing ∧ run.tasks = batch.map fun message => ⟨message, .waiting⟩

def Answers (publisher : Publisher J) (batch : List (OutboxMessage J)) (w : Nat)
    (events : List (Event J)) : Prop :=
  ∀ id outcome now, .finish w id outcome now ∈ events → ∀ message ∈ batch, message.id = id →
    outcome = (publisher message).elim .published .raised

def StirredAt (events : List (Event J)) (w id : Nat) (now : Int) : Prop :=
  .start w id now ∈ events ∨ ∃ outcome, .finish w id outcome now ∈ events

def Effect.isCall (w id : Nat) : Effect E → Bool
  | .publish v other _ => v == w && other == id
  | _ => false

def calls (w id : Nat) (out : List (Effect E)) : Nat := out.countP (Effect.isCall w id)

theorem calls_append (w id : Nat) (out more : List (Effect E)) :
    calls w id (out ++ more) = calls w id out + calls w id more :=
  List.countP_append

/-- What is recorded of a delivery: the state of the message, and the delay before the next
attempt where there is to be one. -/
structure Record (J : Type) where
  content : Content J
  attempts : Nat
  status : OutboxStatus
  lastError : Option String
  delay : Option Int
deriving DecidableEq

def OutboxMessage.record (message : OutboxMessage J) (now : Int) : Record J where
  content := message.content
  attempts := message.attempts
  status := message.status
  lastError := message.lastError
  delay := if message.status = .pending then some (message.availableAt - now) else none

section records
variable {message : OutboxMessage J}

theorem record_markProcessed (now now' : Int) :
    (message.markProcessed now).record now = (message.markProcessed now').record now' := by
  simp [OutboxMessage.record, OutboxMessage.status, OutboxMessage.markProcessed,
    OutboxMessage.content]

theorem record_markFailed (error : String) (delay : Int) (maxAttempts : Nat) (now now' : Int) :
    (message.markFailed error delay maxAttempts now).record now =
      (message.markFailed error delay maxAttempts now').record now' := by
  simp only [OutboxMessage.record, OutboxMessage.markFailed]
  split
  · cases message.processedAt <;> simp [OutboxMessage.status, OutboxMessage.content]
  · simp [OutboxMessage.status, OutboxMessage.content]

end records

section process
variable (delay : Nat → Int) (deserializeEvent : String → J → Except String E)
  (publisher : Publisher J)

/-- `_publish_one`, as if the publisher answered at once. -/
def settle (maxAttempts : Nat) (now : Int) (message : OutboxMessage J) : OutboxMessage J :=
  let failure := match deserializeEvent message.type message.payload with
    | .error error => some error
    | .ok _ => publisher message
  match failure with
  | none => message.markProcessed now
  | some error => message.markFailed error (delay (message.attempts + 1)) maxAttempts now

/-- How often a message is to be published: not at all if its event cannot be restored. -/
def publications (message : OutboxMessage J) : Nat :=
  match deserializeEvent message.type message.payload with
  | .error _ => 0
  | .ok _ => 1

variable {delay deserializeEvent publisher}

@[simp] theorem content_settle (maxAttempts : Nat) (now : Int) (message : OutboxMessage J) :
    (settle delay deserializeEvent publisher maxAttempts now message).content =
      message.content := by
  unfold settle
  dsimp only
  split <;> simp

@[simp] theorem id_settle (maxAttempts : Nat) (now : Int) (message : OutboxMessage J) :
    (settle delay deserializeEvent publisher maxAttempts now message).id = message.id :=
  OutboxMessage.id_of_content (content_settle ..)

/-- What is recorded of a message depends on its own publication, not on when it was. -/
theorem record_settle {publisher' : Publisher J} {maxAttempts : Nat} {message : OutboxMessage J}
    (h : publisher message = publisher' message) (now now' : Int) :
    (settle delay deserializeEvent publisher maxAttempts now message).record now =
      (settle delay deserializeEvent publisher' maxAttempts now' message).record now' := by
  unfold settle
  rw [h]
  dsimp only
  split
  · exact record_markProcessed now now'
  · exact record_markFailed _ _ _ now now'

end process

section machine
variable (config : OutboxConfig) (delay : Nat → Int)
  (deserializeEvent : String → J → Except String E) (publisher : Publisher J)

abbrev totalMachine : Machine (State J) (Event J) (Effect E) :=
  machine config (fun attempt => some (delay attempt)) deserializeEvent

inductive Moves (w : Nat) (run : Run J) : Event J → Run J → List (Effect E) → Prop
  | stays {event : Event J} {more : List (Effect E)} (hquiet : ∀ id, calls w id more = 0) :
      Moves w run event run more
  | turns {event : Event J} {more : List (Effect E)} {phase : Phase}
      (hphase : phase = .saved ∧ (∀ task ∈ run.tasks, task.stage = .done) ∨
        phase = .committed ∨ phase = .stopped)
      (hquiet : ∀ id, calls w id more = 0) :
      Moves w run event { run with phase := phase } more
  | starts {id : Nat} {now : Int} {task : Task J} (htask : run.task? id = some task)
      (hstart : run.MayStart config id task) :
      Moves w run (.start w id now)
        (run.setTask id (task.start config (fun attempt => some (delay attempt))
          deserializeEvent now).1)
        ((task.start config (fun attempt => some (delay attempt))
          deserializeEvent now).2.map (.publish w id)).toList
  | finishes {id : Nat} {outcome : Outcome} {now : Int} {task : Task J}
      (htask : run.task? id = some task) (hstage : task.stage = .publishing) :
      Moves w run (.finish w id outcome now)
        (run.setTask id (task.finish config (fun attempt => some (delay attempt)) outcome now))
        (outcome.effects w id)

def Run.Contained (run : Run J) : Prop :=
  run.phase = .publishing ∨ run.phase = .saved ∨ run.phase = .committed ∨ run.phase = .stopped

variable {config delay deserializeEvent publisher}

theorem calls_publish_of_ne {v w : Nat} (hne : v ≠ w) (id other : Nat) (event : Option E) :
    calls w id (event.map (.publish v other)).toList = 0 := by
  cases event <;> simp [calls, Effect.isCall, hne]

theorem calls_effects (w id : Nat) (outcome : Outcome) (v other : Nat) :
    calls w id (outcome.effects (E := E) v other) = 0 := by
  cases outcome <;> simp [calls, Effect.isCall, Outcome.effects]

theorem moves_of_acts {s s' : State J} {event : Event J} {more : List (Effect E)} {w : Nat}
    (hacts : Acts config (fun attempt => some (delay attempt)) deserializeEvent s event s' more)
    (h : (s.runs w).Contained) :
    Moves config delay deserializeEvent w (s.runs w) event (s'.runs w) more := by
  have hother : ∀ (t : State J) (v : Nat) (run : Run J), t.runs = s.runs → v ≠ w →
      (∀ id, calls w id more = 0) → Moves config delay deserializeEvent w (s.runs w) event
        ((t.setRun v run).runs w) more := by
    intro t v run hruns hne hquiet
    rw [State.setRun_of_ne _ hne.symm, hruns]
    exact .stays hquiet
  have hnone : ∀ id, calls w id ([] : List (Effect E)) = 0 := fun _ => rfl
  cases hacts with
  | idle | inserted => exact .stays hnone
  | @begun v now hphase =>
    by_cases hv : v = w
    · subst hv
      simp [Run.Contained, hphase] at h
    · exact hother s v _ rfl hv hnone
  | @locked v id row hphase =>
    by_cases hv : v = w
    · subst hv
      simp [Run.Contained, hphase] at h
    · exact hother (s.lock v id) v _ rfl hv fun _ => rfl
  | @foundNone v hphase =>
    by_cases hv : v = w
    · subst hv
      simp [Run.Contained, hphase] at h
    · exact hother (s.release v) v _ rfl hv hnone
  | @foundSome v hphase =>
    by_cases hv : v = w
    · subst hv
      simp [Run.Contained, hphase] at h
    · exact hother s v _ rfl hv hnone
  | @started v id now task htask hstart =>
    by_cases hv : v = w
    · subst hv
      rw [State.setRun_self]
      exact .starts htask hstart
    · exact hother s v _ rfl hv fun other => calls_publish_of_ne hv other id _
  | @finished v id outcome now task htask hgoes hstage =>
    by_cases hv : v = w
    · subst hv
      rw [State.setRun_self]
      exact .finishes htask hstage
    · exact hother s v _ rfl hv fun other => calls_effects w other outcome v id
  | @saved v hphase hdone =>
    by_cases hv : v = w
    · subst hv
      rw [State.setRun_self]
      exact .turns (.inl ⟨rfl, hdone⟩) hnone
    · exact hother s v _ rfl hv hnone
  | @committed v hphase =>
    by_cases hv : v = w
    · subst hv
      rw [State.setRun_self]
      exact .turns (.inr (.inl rfl)) hnone
    · exact hother ((s.release v).save _) v _ rfl hv hnone
  | @rolledBack v hphase =>
    by_cases hv : v = w
    · subst hv
      simp [Run.Contained, hphase] at h
    · exact hother (s.release v) v _ rfl hv hnone
  | @crashed v hphase =>
    by_cases hv : v = w
    · subst hv
      rw [State.setRun_self]
      exact .turns (.inr (.inr rfl)) hnone
    · exact hother (s.release v) v _ rfl hv hnone

section tasks
variable {batch : List (OutboxMessage J)} {run : Run J} {id : Nat} {task : Task J}

theorem task?_of_mem (hnodup : (run.tasks.map (·.message.id)).Nodup) (hmem : task ∈ run.tasks) :
    run.task? task.message.id = some task := by
  have hsome : (run.task? task.message.id).isSome = true :=
    List.find?_isSome.mpr ⟨task, hmem, by simp⟩
  obtain ⟨found, hfound⟩ := Option.isSome_iff_exists.mp hsome
  have hsame : found = task := List.inj_on_of_nodup_map hnodup
    (List.mem_of_find?_eq_some hfound) hmem (by simpa using List.find?_some hfound)
  exact hsame ▸ hfound

theorem setTask_split (hnodup : (run.tasks.map (·.message.id)).Nodup)
    (htask : run.task? id = some task) (next : Task J) :
    ∃ before after, run.tasks = before ++ task :: after ∧
      (run.setTask id next).tasks = before ++ next :: after := by
  obtain ⟨hid, before, after, htasks, hbefore⟩ := List.find?_eq_some_iff_append.mp htask
  have hid : task.message.id = id := of_decide_eq_true hid
  refine ⟨before, after, htasks, ?_⟩
  rw [htasks, List.map_append, List.map_cons, List.nodup_append, List.nodup_cons, hid] at hnodup
  have hkept : ∀ tasks : List (Task J), (∀ other ∈ tasks, other.message.id ≠ id) →
      (tasks.map fun other => if other.message.id = id then next else other) = tasks := by
    intro tasks hother
    rw [List.map_congr_left fun other hmem => if_neg (hother other hmem), List.map_id']
  have hbehind : ∀ other ∈ after, other.message.id ≠ id := by
    intro other hmem heq
    exact hnodup.2.1.1 (List.mem_map.mpr ⟨other, hmem, heq⟩)
  simp only [Run.setTask, htasks, List.map_append, List.map_cons, if_pos hid, hkept after hbehind]
  rw [hkept before fun other hmem => by simpa using hbefore other hmem]

theorem inFlight_setTask (hnodup : (run.tasks.map (·.message.id)).Nodup)
    (htask : run.task? id = some task) (next : Task J) :
    (run.setTask id next).inFlight + (if task.stage = .publishing then 1 else 0) =
      run.inFlight + if next.stage = .publishing then 1 else 0 := by
  obtain ⟨before, after, htasks, hset⟩ := setTask_split hnodup htask next
  simp only [Run.inFlight, htasks, hset, List.countP_append, List.countP_cons, decide_eq_true_eq]
  omega

theorem ids_eq {R : OutboxMessage J → Task J → Prop} {tasks : List (Task J)}
    (hid : ∀ message other, R message other → other.message.id = message.id)
    (h : List.Forall₂ R batch tasks) : tasks.map (·.message.id) = batch.map (·.id) := by
  induction h with
  | nil => rfl
  | cons hmessage _ ih => rw [List.map_cons, List.map_cons, ih, hid _ _ hmessage]

theorem exists_related {α β : Type} {R : α → β → Prop} {as : List α} {bs : List β}
    (h : List.Forall₂ R as bs) {b : β} (hb : b ∈ bs) : ∃ a ∈ as, R a b := by
  induction h with
  | nil => cases hb
  | cons hfirst _ ih =>
    rcases List.mem_cons.mp hb with rfl | hb
    · exact ⟨_, List.mem_cons_self, hfirst⟩
    · obtain ⟨a, ha, hrelated⟩ := ih hb
      exact ⟨a, List.mem_cons_of_mem _ ha, hrelated⟩

theorem forall₂_setTask {R R' : OutboxMessage J → Task J → Prop}
    (hid : ∀ message other, R message other → other.message.id = message.id)
    (hnodup : (batch.map (·.id)).Nodup) (h : List.Forall₂ R batch run.tasks)
    (htask : run.task? id = some task) {next : Task J}
    (hnext : ∀ message ∈ batch, message.id = id → R message task → R' message next)
    (hrest : ∀ message other, message.id ≠ id → R message other → R' message other) :
    List.Forall₂ R' batch (run.setTask id next).tasks := by
  obtain ⟨hmem, htaskId⟩ := task?_spec htask
  obtain ⟨found, hfound, hrelated⟩ := exists_related h hmem
  have hfoundId : found.id = id := by rw [← hid _ _ hrelated, htaskId]
  rw [Run.setTask, List.forall₂_map_right_iff]
  have hpairs := (List.forall₂_and_left batch run.tasks).mpr ⟨fun message hmessage => hmessage, h⟩
  apply hpairs.imp
  rintro message other ⟨hmessage, hother⟩
  by_cases hmoved : other.message.id = id
  · have hsame : message = found := by
      apply List.inj_on_of_nodup_map hnodup hmessage hfound
      rw [hfoundId, ← hid _ _ hother, hmoved]
    rw [if_pos hmoved, hsame]
    exact hnext found hfound hfoundId hrelated
  · rw [if_neg hmoved]
    exact hrest message other (hid _ _ hother ▸ hmoved) hother

end tasks

section progress
variable (config delay deserializeEvent publisher)

inductive TaskOk (events : List (Event J)) (w : Nat) (out : List (Effect E))
    (message : OutboxMessage J) : Task J → Prop
  | waiting (hcalls : calls w message.id out = 0) : TaskOk events w out message ⟨message, .waiting⟩
  | publishing (hcalls : calls w message.id out = 1)
      (hreadable : publications deserializeEvent message = 1) :
      TaskOk events w out message ⟨message, .publishing⟩
  | done {now : Int} (hstirred : StirredAt events w message.id now)
      (hcalls : calls w message.id out = publications deserializeEvent message) :
      TaskOk events w out message
        ⟨settle delay deserializeEvent publisher config.maxAttempts now message, .done⟩

structure Progress (batch : List (OutboxMessage J)) (w : Nat) (events : List (Event J))
    (out : List (Effect E)) (run : Run J) : Prop where
  contained : run.Contained
  tasks : List.Forall₂ (TaskOk config delay deserializeEvent publisher events w out) batch run.tasks
  finished : run.phase = .saved → ∀ task ∈ run.tasks, task.stage = .done
  bounded : config.concurrencyEnable = true → run.inFlight ≤ config.maxConcurrency

variable {config delay deserializeEvent publisher} {batch : List (OutboxMessage J)}
  {w id : Nat} {events : List (Event J)} {out more : List (Effect E)} {run run' : Run J}
  {message : OutboxMessage J} {task : Task J} {event : Event J}

theorem StirredAt.concat {now : Int} (h : StirredAt events w id now) (event : Event J) :
    StirredAt (events ++ [event]) w id now := by
  rcases h with hstart | ⟨outcome, hfinish⟩
  · exact .inl (List.mem_append_left _ hstart)
  · exact .inr ⟨outcome, List.mem_append_left _ hfinish⟩

theorem TaskOk.id_eq (h : TaskOk config delay deserializeEvent publisher events w out message
    task) : task.message.id = message.id := by
  cases h <;> simp

theorem TaskOk.quiet (h : TaskOk config delay deserializeEvent publisher events w out message task)
    (hquiet : calls w message.id more = 0) (event : Event J) :
    TaskOk config delay deserializeEvent publisher (events ++ [event]) w (out ++ more) message
      task := by
  have hsame : calls w message.id (out ++ more) = calls w message.id out := by
    rw [calls_append, hquiet, Nat.add_zero]
  cases h with
  | waiting hcalls => exact .waiting (hsame.trans hcalls)
  | publishing hcalls hreadable => exact .publishing (hsame.trans hcalls) hreadable
  | done hstirred hcalls => exact .done (hstirred.concat event) (hsame.trans hcalls)

theorem TaskOk.start {now : Int}
    (h : TaskOk config delay deserializeEvent publisher events w out message task)
    (hstage : task.stage = .waiting) :
    TaskOk config delay deserializeEvent publisher (events ++ [.start w message.id now]) w
      (out ++ ((task.start config (fun attempt => some (delay attempt)) deserializeEvent
        now).2.map (.publish w message.id)).toList) message
      (task.start config (fun attempt => some (delay attempt)) deserializeEvent now).1 := by
  cases h with
  | waiting hcalls =>
    simp only [Task.start]
    cases hevent : deserializeEvent message.type message.payload with
    | error error =>
      have hsettled : message.markFailed error (delay (message.attempts + 1)) config.maxAttempts
          now = settle delay deserializeEvent publisher config.maxAttempts now message := by
        simp [settle, hevent]
      simp only [Task.fail, Option.map_none, Option.toList_none, List.append_nil, hsettled]
      exact .done (.inl (by simp)) (by simp [hcalls, publications, hevent])
    | ok event =>
      refine .publishing ?_ (by simp [publications, hevent])
      rw [calls_append, hcalls]
      simp [calls, Effect.isCall]
  | publishing | done => cases hstage

theorem TaskOk.finish {now : Int} {outcome : Outcome}
    (h : TaskOk config delay deserializeEvent publisher events w out message task)
    (hstage : task.stage = .publishing)
    (houtcome : outcome = (publisher message).elim .published .raised) :
    TaskOk config delay deserializeEvent publisher (events ++ [.finish w message.id outcome now]) w
      (out ++ outcome.effects w message.id) message
      (task.finish config (fun attempt => some (delay attempt)) outcome now) := by
  cases h with
  | publishing hcalls hreadable =>
    have hsame : calls w message.id (out ++ outcome.effects w message.id) =
        publications deserializeEvent message := by
      rw [calls_append, calls_effects, Nat.add_zero, hcalls, hreadable]
    have hsettled : Task.finish config (fun attempt => some (delay attempt))
        ⟨message, .publishing⟩ outcome now =
          ⟨settle delay deserializeEvent publisher config.maxAttempts now message, .done⟩ := by
      rw [houtcome]
      cases hevent : deserializeEvent message.type message.payload with
      | error error => simp [publications, hevent] at hreadable
      | ok event => cases hanswer : publisher message <;> simp [Task.finish, Task.fail, settle,
          hevent, hanswer]
    rw [hsettled]
    exact .done (.inr ⟨outcome, by simp⟩) hsame
  | waiting | done => cases hstage

theorem calls_start_of_ne {other : Nat} (hne : other ≠ id) (event : Option E) :
    calls w other (event.map (.publish w id)).toList = 0 := by
  cases event <;> simp [calls, Effect.isCall, hne.symm]

theorem TaskOk.not_escaped
    (h : TaskOk config delay deserializeEvent publisher events w out message task) :
    task.stage ≠ .escaped := by
  cases h <;> simp

theorem phase_setTask {next : Task J} (h : next.stage ≠ .escaped) :
    (run.setTask id next).phase = run.phase :=
  if_neg fun hescaped => h hescaped.1

theorem Progress.nodup
    (h : Progress config delay deserializeEvent publisher batch w events out run)
    (hnodup : (batch.map (·.id)).Nodup) : (run.tasks.map (·.message.id)).Nodup := by
  rw [ids_eq (fun _ _ hok => hok.id_eq) h.tasks]
  exact hnodup

theorem Progress.setTask {next : Task J}
    (h : Progress config delay deserializeEvent publisher batch w events out run)
    (hnodup : (batch.map (·.id)).Nodup) (htask : run.task? id = some task)
    (hstage : task.stage ≠ .done)
    (hnext : ∀ message ∈ batch, message.id = id →
      TaskOk config delay deserializeEvent publisher events w out message task →
      TaskOk config delay deserializeEvent publisher (events ++ [event]) w (out ++ more) message
        next)
    (hquiet : ∀ other, other ≠ id → calls w other more = 0)
    (hbounded : config.concurrencyEnable = true →
      (run.setTask id next).inFlight ≤ config.maxConcurrency) :
    Progress config delay deserializeEvent publisher batch w (events ++ [event]) (out ++ more)
      (run.setTask id next) := by
  have htasks := forall₂_setTask (fun _ _ hok => hok.id_eq) hnodup h.tasks htask hnext
    fun message _ hother hok => hok.quiet (hquiet _ hother) event
  have hphase : (run.setTask id next).phase = run.phase := by
    obtain ⟨before, after, -, hset⟩ := setTask_split (h.nodup hnodup) htask next
    obtain ⟨message, -, hok⟩ := exists_related htasks
      (show next ∈ (run.setTask id next).tasks by simp [hset])
    exact phase_setTask hok.not_escaped
  refine ⟨?_, htasks, fun hsaved => ?_, hbounded⟩
  · rw [Run.Contained, hphase]
    exact h.contained
  · rw [hphase] at hsaved
    exact absurd (h.finished hsaved task (task?_spec htask).1) hstage

theorem Progress.step (h : Progress config delay deserializeEvent publisher batch w events out run)
    (hnodup : (batch.map (·.id)).Nodup) (hanswers : Answers publisher batch w (events ++ [event]))
    (hmoves : Moves config delay deserializeEvent w run event run' more) :
    Progress config delay deserializeEvent publisher batch w (events ++ [event]) (out ++ more)
      run' := by
  cases hmoves with
  | stays hquiet =>
    exact ⟨h.contained, h.tasks.imp fun _ _ hok => hok.quiet (hquiet _) event, h.finished,
      h.bounded⟩
  | turns hphase hquiet =>
    refine ⟨?_, h.tasks.imp fun _ _ hok => hok.quiet (hquiet _) event, ?_, h.bounded⟩
    · rcases hphase with ⟨rfl, -⟩ | rfl | rfl <;> simp [Run.Contained]
    · rintro rfl
      rcases hphase with ⟨-, hdone⟩ | hcommitted | hstopped
      · exact hdone
      · cases hcommitted
      · cases hstopped
  | @starts id now task htask hstart =>
    have hwaiting := hstart.2.1
    apply h.setTask hnodup htask (by simp [hwaiting])
    · rintro message - rfl hok
      exact hok.start hwaiting
    · intro other hother
      exact calls_start_of_ne hother _
    · intro hconcurrent
      have hfree : run.inFlight < config.maxConcurrency := by
        rcases hstart.2.2 with ⟨-, hfree⟩ | ⟨hsequential, -⟩
        · exact hfree
        · rw [hconcurrent] at hsequential
          cases hsequential
      have hcount := inFlight_setTask (h.nodup hnodup) htask (task.start config
        (fun attempt => some (delay attempt)) deserializeEvent now).1
      rw [hwaiting, if_neg (by decide)] at hcount
      split at hcount <;> omega
  | @finishes id outcome now task htask hstage =>
    apply h.setTask hnodup htask (by simp [hstage])
    · rintro message hmessage rfl hok
      exact hok.finish hstage (hanswers _ outcome now (by simp) message hmessage rfl)
    · intro other hother
      exact calls_effects w other outcome w id
    · intro hconcurrent
      have hcount := inFlight_setTask (h.nodup hnodup) htask (task.finish config
        (fun attempt => some (delay attempt)) outcome now)
      have hbounded := h.bounded hconcurrent
      rw [if_pos hstage] at hcount
      split at hcount <;> omega

variable {s : State J}

theorem progress_init (hacquired : (s.runs w).Acquired batch) :
    Progress config delay deserializeEvent publisher batch w [] [] (s.runs w) := by
  obtain ⟨hphase, htasks⟩ := hacquired
  refine ⟨.inl hphase, ?_, by simp [hphase], ?_⟩
  · rw [htasks, List.forall₂_map_right_iff, List.forall₂_same]
    exact fun message _ => .waiting rfl
  · have hnone : (s.runs w).inFlight = 0 := by simp [Run.inFlight, htasks]
    omega

/-- Whatever happens besides, the batch of a run makes progress and nothing else. -/
theorem progress_after (hnodup : (batch.map (·.id)).Nodup)
    (hacquired : (s.runs w).Acquired batch) (hanswers : Answers publisher batch w events) :
    Progress config delay deserializeEvent publisher batch w events
      ((totalMachine config delay deserializeEvent).emitted s events)
      (((totalMachine config delay deserializeEvent).after s events).runs w) := by
  induction events using List.reverseRecOn with
  | nil => exact progress_init hacquired
  | append_singleton past event ih =>
    have hpast := ih fun id outcome now hmem =>
      hanswers id outcome now (List.mem_append_left _ hmem)
    rw [Machine.emitted_concat, Machine.after_concat]
    exact hpast.step hnodup hanswers
      (moves_of_acts (step_acts config _ deserializeEvent _ event) hpast.contained)

/-- While a batch is not done, a call of the publisher is under way or a task may start. -/
theorem Progress.goesOn
    (h : Progress config delay deserializeEvent publisher batch w events out run)
    (hnodup : (batch.map (·.id)).Nodup) (hphase : run.phase = .publishing) :
    (∀ task ∈ run.tasks, task.stage = .done) ∨ (∃ task ∈ run.tasks, task.stage = .publishing) ∨
      ∃ id task, run.task? id = some task ∧ run.MayStart config id task := by
  by_cases hdone : ∀ task ∈ run.tasks, task.stage = .done
  · exact .inl hdone
  by_cases hcalled : ∃ task ∈ run.tasks, task.stage = .publishing
  · exact .inr (.inl hcalled)
  push Not at hdone hcalled
  obtain ⟨task, hmem, hnotDone⟩ := hdone
  have hsome : (run.tasks.find? fun other => other.stage ≠ .done).isSome = true :=
    List.find?_isSome.mpr ⟨task, hmem, by simpa using hnotDone⟩
  obtain ⟨first, hfirst⟩ := Option.isSome_iff_exists.mp hsome
  have hmemFirst := List.mem_of_find?_eq_some hfirst
  have hwaiting : first.stage = .waiting := by
    obtain ⟨message, -, hok⟩ := exists_related h.tasks hmemFirst
    have hnotDone : first.stage ≠ .done := by simpa using List.find?_some hfirst
    have hnotCalled := hcalled first hmemFirst
    cases hok with
    | waiting => rfl
    | publishing => exact absurd rfl hnotCalled
    | done => exact absurd rfl hnotDone
  refine .inr (.inr ⟨first.message.id, first, task?_of_mem (h.nodup hnodup) hmemFirst,
    .inl hphase, hwaiting, ?_⟩)
  cases hmode : config.concurrencyEnable with
  | true =>
    have hnone : run.inFlight = 0 := by
      rw [Run.inFlight, List.countP_eq_zero]
      intro other hother
      simpa using hcalled other hother
    have hmax := config.maxConcurrency_range.1
    exact .inl ⟨rfl, by omega⟩
  | false => exact .inr ⟨rfl, by rw [hfirst]; rfl⟩

variable (config delay deserializeEvent publisher batch w events s)

/-- What a run makes of its batch: each message is published once at the most, no more at a
time than may be, the run never gets stuck, and what it hands to `save_all` are its messages,
each recorded as its own publication ended. -/
structure Settles : Prop where
  contained : (((totalMachine config delay deserializeEvent).after s events).runs w).Contained
  bounded : config.concurrencyEnable = true → ∀ past rest, events = past ++ rest →
    (((totalMachine config delay deserializeEvent).after s past).runs w).inFlight ≤
      config.maxConcurrency
  goesOn : ∀ run, ((totalMachine config delay deserializeEvent).after s events).runs w = run →
    run.phase = .publishing → (∀ task ∈ run.tasks, task.stage = .done) ∨
      (∃ task ∈ run.tasks, task.stage = .publishing) ∨
      ∃ id task, run.task? id = some task ∧ run.MayStart config id task
  published : ∀ message ∈ batch,
    calls w message.id ((totalMachine config delay deserializeEvent).emitted s events) ≤
      publications deserializeEvent message
  handed : ∀ run, ((totalMachine config delay deserializeEvent).after s events).runs w = run →
    run.phase = .saved →
    List.Forall₂ (fun message final =>
      (∃ now, StirredAt events w message.id now ∧
        final = settle delay deserializeEvent publisher config.maxAttempts now message) ∧
      calls w message.id ((totalMachine config delay deserializeEvent).emitted s events) =
        publications deserializeEvent message) batch run.batch

variable {config delay deserializeEvent publisher batch w events s}

theorem TaskOk.calls_le
    (h : TaskOk config delay deserializeEvent publisher events w out message task) :
    calls w message.id out ≤ publications deserializeEvent message := by
  cases h with
  | waiting hcalls => omega
  | publishing hcalls hreadable => omega
  | done _ hcalls => exact hcalls.le

theorem settles (hnodup : (batch.map (·.id)).Nodup) (hacquired : (s.runs w).Acquired batch)
    (hanswers : Answers publisher batch w events) :
    Settles config delay deserializeEvent publisher batch w events s := by
  have hprogress := @progress_after _ _ config delay deserializeEvent publisher batch w events s
    hnodup hacquired hanswers
  constructor
  · exact hprogress.contained
  · rintro hconcurrent past rest rfl
    have hpast := @progress_after _ _ config delay deserializeEvent publisher batch w past s
      hnodup hacquired fun id outcome now hmem =>
        hanswers id outcome now (List.mem_append_left _ hmem)
    exact hpast.bounded hconcurrent
  · rintro _ rfl hphase
    exact hprogress.goesOn hnodup hphase
  · intro message hmessage
    have hflipped : List.Forall₂ (flip (TaskOk config delay deserializeEvent publisher events w _))
      _ batch := hprogress.tasks.flip
    obtain ⟨task, -, hok⟩ := exists_related hflipped hmessage
    exact hok.calls_le
  · rintro _ rfl hsaved
    rw [Run.batch, List.forall₂_map_right_iff]
    have hdone := (List.forall₂_and_left _ _).mpr
      ⟨hprogress.finished hsaved, hprogress.tasks.flip⟩
    apply hdone.flip.imp
    rintro message task ⟨hstage, hok⟩
    cases hok with
    | waiting | publishing => cases hstage
    | done hstirred hcalls => exact ⟨⟨_, hstirred, rfl⟩, hcalls⟩

end progress

section agreement
variable {config config' : OutboxConfig} {delay : Nat → Int}
  {deserializeEvent : String → J → Except String E} {publisher publisher' : Publisher J}
  {batch batch' : List (OutboxMessage J)} {w w' : Nat} {events events' : List (Event J)}
  {s s' : State J}

theorem Settles.exists_final {message : OutboxMessage J}
    (h : Settles config delay deserializeEvent publisher batch w events s)
    (hsaved : (((totalMachine config delay deserializeEvent).after s events).runs w).phase = .saved)
    (hmessage : message ∈ batch) :
    ∃ final ∈ (((totalMachine config delay deserializeEvent).after s events).runs w).batch,
      ∃ now, StirredAt events w message.id now ∧
        final = settle delay deserializeEvent publisher config.maxAttempts now message := by
  have hhanded := h.handed _ rfl hsaved
  have hflipped := (List.forall₂_and_left _ _).mpr ⟨fun _ hmem => hmem, hhanded⟩
  obtain ⟨final, hfinal, -, hsettled, -⟩ := exists_related hflipped.flip hmessage
  exact ⟨final, hfinal, hsettled⟩

/-- Two runs, each in parallel or one by one and with any events around it, record the same of
a message that is in both batches and whose publication ends alike: its attempts, status and
last error, and the delay before its next attempt. -/
theorem modes_agree (hattempts : config.maxAttempts = config'.maxAttempts)
    (hnodup : (batch.map (·.id)).Nodup) (hnodup' : (batch'.map (·.id)).Nodup)
    (hacquired : (s.runs w).Acquired batch) (hacquired' : (s'.runs w').Acquired batch')
    (hanswers : Answers publisher batch w events)
    (hanswers' : Answers publisher' batch' w' events') :
    Settles config delay deserializeEvent publisher batch w events s ∧
      Settles config' delay deserializeEvent publisher' batch' w' events' s' ∧
      ∀ run run', ((totalMachine config delay deserializeEvent).after s events).runs w = run →
        ((totalMachine config' delay deserializeEvent).after s' events').runs w' = run' →
        run.phase = .saved → run'.phase = .saved →
        ∀ message ∈ batch, message ∈ batch' → publisher message = publisher' message →
        ∃ final ∈ run.batch, ∃ final' ∈ run'.batch, ∃ now now',
          StirredAt events w message.id now ∧ StirredAt events' w' message.id now' ∧
          final.id = message.id ∧ final'.id = message.id ∧
          final.record now = final'.record now' := by
  have hfirst : Settles config delay deserializeEvent publisher batch w events s :=
    settles hnodup hacquired hanswers
  have hsecond : Settles config' delay deserializeEvent publisher' batch' w' events' s' :=
    settles hnodup' hacquired' hanswers'
  refine ⟨hfirst, hsecond, ?_⟩
  rintro _ _ rfl rfl hsaved hsaved' message hmessage hmessage' hsame
  obtain ⟨_, hfinal, now, hstirred, rfl⟩ := hfirst.exists_final hsaved hmessage
  obtain ⟨_, hfinal', now', hstirred', rfl⟩ := hsecond.exists_final hsaved' hmessage'
  refine ⟨_, hfinal, _, hfinal', now, now', hstirred, hstirred', id_settle .., id_settle .., ?_⟩
  rw [hattempts]
  exact record_settle hsame now now'

end agreement

section witness

def parallelConfig : OutboxConfig where
  concurrencyEnable := true
  maxConcurrency := 2

def sequentialConfig : OutboxConfig where
  concurrencyEnable := false

def orderEvents (type : String) (_ : Unit) : Except String String :=
  if type = "OrderPlaced" ∨ type = "OrderPaid" then .ok type
  else .error ("Unknown event type: '" ++ type ++ "'. Ensure the event module is imported.")

def placed : OutboxMessage Unit := ⟨1, "OrderPlaced", 0, (), (), 0, 0, none, none, none⟩

def paid : OutboxMessage Unit := ⟨2, "OrderPaid", 0, (), (), 0, 0, none, none, none⟩

def gone : OutboxMessage Unit := ⟨3, "OrderLost", 0, (), (), 0, 0, none, none, none⟩

def broker : Publisher Unit := fun message => if message.id = 2 then some "timed out" else none

def gathered (batch : List (OutboxMessage Unit)) : State Unit :=
  { State.init with runs := fun _ => ⟨.publishing, 0, batch.map (⟨·, .waiting⟩)⟩ }

def overlapping : List (Event Unit) :=
  [.start 0 1 10, .start 0 2 10, .finish 0 2 (.raised "timed out") 20, .finish 0 1 .published 30,
    .saveAll 0]

def oneByOne : List (Event Unit) :=
  [.start 0 1 10, .finish 0 1 .published 20, .start 0 2 20, .finish 0 2 (.raised "timed out") 40,
    .saveAll 0]

theorem broker_answers {events : List (Event Unit)}
    (h : ∀ id outcome now, .finish 0 id outcome now ∈ events →
      id = 1 ∧ outcome = .published ∨ id = 2 ∧ outcome = .raised "timed out") :
    Answers broker [placed, paid] 0 events := by
  intro id outcome now hmem message hmessage hid
  rcases h id outcome now hmem with ⟨rfl, rfl⟩ | ⟨rfl, rfl⟩ <;>
    rcases List.mem_pair.mp hmessage with rfl | rfl
  · rfl
  · cases hid
  · cases hid
  · rfl

theorem modes_agree_overlapping :
    (((totalMachine parallelConfig (fun _ => 5) orderEvents).after (gathered [placed, paid])
        overlapping).runs 0).phase = .saved ∧
      (((totalMachine sequentialConfig (fun _ => 5) orderEvents).after (gathered [placed, paid])
        oneByOne).runs 0).phase = .saved ∧
      Settles parallelConfig (fun _ => 5) orderEvents broker [placed, paid] 0 overlapping
        (gathered [placed, paid]) ∧
      Settles sequentialConfig (fun _ => 5) orderEvents broker [placed, paid] 0 oneByOne
        (gathered [placed, paid]) ∧
      ∀ run run',
        ((totalMachine parallelConfig (fun _ => 5) orderEvents).after (gathered [placed, paid])
          overlapping).runs 0 = run →
        ((totalMachine sequentialConfig (fun _ => 5) orderEvents).after (gathered [placed, paid])
          oneByOne).runs 0 = run' →
        run.phase = .saved → run'.phase = .saved →
        ∀ message ∈ [placed, paid], message ∈ [placed, paid] →
        broker message = broker message → ∃ final ∈ run.batch, ∃ final' ∈ run'.batch,
          ∃ now now', StirredAt overlapping 0 message.id now ∧
            StirredAt oneByOne 0 message.id now' ∧ final.id = message.id ∧
            final'.id = message.id ∧ final.record now = final'.record now' :=
  ⟨by decide, by decide,
    modes_agree rfl (by decide) (by decide) ⟨rfl, rfl⟩ ⟨rfl, rfl⟩
      (broker_answers (by simp only [overlapping]; grind))
      (broker_answers (by simp only [oneByOne]; grind))⟩

/-- A message whose event is unknown reaches `save_all` without having been published. -/
theorem gone_not_published :
    (gathered [gone]).runs 0 = ⟨.publishing, 0, [⟨gone, .waiting⟩]⟩ ∧
      Answers broker [gone] 0 [.start 0 3 10, .saveAll 0] ∧
      (((totalMachine parallelConfig (fun _ => 5) orderEvents).after (gathered [gone])
        [.start 0 3 10, .saveAll 0]).runs 0).phase = .saved ∧
      ¬∀ message ∈ [gone], calls 0 message.id
        ((totalMachine parallelConfig (fun _ => 5) orderEvents).emitted (gathered [gone])
          [.start 0 3 10, .saveAll 0]) = 1 :=
  ⟨rfl, by simp [Answers], by decide, by decide⟩

end witness

end machine
end DddFramework.Outbox
