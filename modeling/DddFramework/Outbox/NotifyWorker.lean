import DddFramework.Library.Machine

/-! The worker that waits for `NOTIFY`, with the producers, the sessions it listens on and the
callbacks of its notifications around it. No wake-up is lost: the event is cleared only on the
way to another `process`, and the first of these comes after `LISTEN`. -/
namespace DddFramework.Outbox.Notify
open Library

/-- Where the worker is. It is `outside` before it enters the listener and while it sleeps
after an exception, and `leaving` in the listener's `__aexit__`. -/
inductive Phase where
  | outside
  | connecting
  | registering
  | opening
  | processing
  | closing
  | waiting
  | leaving (cancelled : Bool)
  | cancelled
deriving DecidableEq

/-- `process` has taken a snapshot since `LISTEN` and the last wake-up. -/
def Phase.Scanned (phase : Phase) : Prop :=
  phase = .processing ∨ phase = .closing ∨ phase = .waiting

/-- The committed rows, the sessions that listen, those known to be closed, and the
notifications on their way, each with its session; what the listener keeps, and the variable
`processed` of the loop. The last three are what has been: the rows whose callback has run,
and those that were committed at the current `LISTEN` and at the last snapshot. -/
structure State (Row : Type) where
  committed : List Row
  listening : List Nat
  closed : List Nat
  inFlight : List (Nat × Row)
  notification : Bool
  driverConnection : Option Nat
  connects : Nat
  phase : Phase
  processed : Nat
  called : List Row
  listened : List Row
  snapshot : List Row

inductive Event (Row : Type) where
  | commit (row : Row)
  | onNotification (session : Nat) (row : Row)
  | lose (session : Nat) (row : Row)
  | drop (session : Nat)
  | close (session : Nat)
  | connect
  | listen
  | registered
  | snapshot
  | returned (processed : Nat)
  | closed
  | wake
  | timeout
  | raised
  | cancelled
  | exited (raised : Bool)

variable {Row : Type}

namespace State

def init : State Row := ⟨[], [], [], [], false, none, 0, .outside, 0, [], [], []⟩

/-- A commit notifies every session that listens. -/
def commit (s : State Row) (row : Row) : State Row :=
  { s with
    committed := row :: s.committed
    inFlight := s.listening.map (fun session => (session, row)) ++ s.inFlight }

def connect (s : State Row) : State Row :=
  { s with driverConnection := some s.connects, connects := s.connects + 1, phase := .connecting }

def listen (s : State Row) (session : Nat) : State Row :=
  { s with listening := session :: s.listening, listened := s.committed, phase := .registering }

/-- What the loop does after a call of `process`. Where nothing was processed it waits, unless
the listener's connection is closed. -/
def afterProcess (s : State Row) : State Row :=
  if 0 < s.processed then { s with phase := .opening }
  else
    match s.driverConnection with
    | none => { s with phase := .leaving false }
    | some session =>
      if session ∈ s.closed then { s with phase := .leaving false }
      else { s with phase := .waiting }

def raised (s : State Row) : State Row :=
  match s.phase with
  | .connecting | .registering => { s with phase := .outside }
  | .opening | .processing | .closing | .waiting => { s with phase := .leaving false }
  | _ => s

def cancelled (s : State Row) : State Row :=
  match s.phase with
  | .opening | .processing | .closing | .waiting => { s with phase := .leaving true }
  | _ => { s with phase := .cancelled }

/-- The end of `__aexit__`; an exception of it takes the place of a cancellation. -/
def exited (s : State Row) (cancelled raised : Bool) : State Row :=
  if raised then { s with phase := .outside }
  else
    { s with
      listening := s.listening.filter fun session => s.driverConnection ≠ some session
      driverConnection := none
      phase := if cancelled then .cancelled else .outside }

end State

section worker
variable [DecidableEq Row]

/-- What an event does where it can happen; elsewhere it does nothing. -/
def step (s : State Row) : Event Row → State Row
  | .commit row => s.commit row
  | .onNotification session row =>
    if (session, row) ∈ s.inFlight then
      { s with
        inFlight := s.inFlight.erase (session, row)
        called := row :: s.called
        notification := true }
    else s
  | .lose session row =>
    -- its session is gone, or its callback not yet registered
    if session ∉ s.listening ∨ s.phase = .registering ∧ s.driverConnection = some session then
      { s with inFlight := s.inFlight.erase (session, row) }
    else s
  | .drop session => { s with listening := s.listening.filter (· ≠ session) }
  | .close session =>
    { s with listening := s.listening.filter (· ≠ session), closed := session :: s.closed }
  | .connect => if s.phase = .outside then s.connect else s
  | .listen =>
    match s.driverConnection with
    | some session => if s.phase = .connecting then s.listen session else s
    | none => s
  | .registered => if s.phase = .registering then { s with phase := .opening } else s
  | .snapshot =>
    if s.phase = .opening then { s with snapshot := s.committed, phase := .processing } else s
  | .returned processed =>
    if s.phase = .processing then { s with processed := processed, phase := .closing } else s
  | .closed => if s.phase = .closing then s.afterProcess else s
  | .wake =>
    if s.phase = .waiting ∧ s.notification = true then
      { s with notification := false, phase := .opening }
    else s
  | .timeout => if s.phase = .waiting then { s with phase := .opening } else s
  | .raised => s.raised
  | .cancelled => s.cancelled
  | .exited raised =>
    match s.phase with
    | .leaving cancelled => s.exited cancelled raised
    | _ => s

def machine : Machine (State Row) (Event Row) Empty where
  init := .init
  step s event := (step s event, [])

/-- What has been is still committed; and since the last snapshot, unless the event is set, no
callback has run for a row outside of it, and no notification of such a row is lost while its
session listens. -/
structure Kept (s : State Row) : Prop where
  called : ∀ row ∈ s.called, row ∈ s.committed
  inFlight : ∀ x ∈ s.inFlight, x.2 ∈ s.committed
  listened : ∀ row ∈ s.listened, row ∈ s.committed
  idle : s.phase = .waiting → s.processed = 0
  scanned : s.phase.Scanned → ∀ row ∈ s.listened, row ∈ s.snapshot
  heard : s.phase.Scanned → s.notification = false → ∀ row ∈ s.called, row ∈ s.snapshot
  covered : s.phase.Scanned → s.notification = false → ∀ session,
    s.driverConnection = some session → session ∈ s.listening →
    ∀ row ∈ s.committed, row ∈ s.snapshot ∨ (session, row) ∈ s.inFlight

omit [DecidableEq Row] in
theorem Kept.unscanned {s t : State Row} (h : Kept s) (hphase : ¬t.phase.Scanned)
    (hcommitted : t.committed = s.committed) (hcalled : t.called = s.called)
    (hinFlight : t.inFlight = s.inFlight)
    (hlistened : t.listened = s.listened ∨ t.listened = s.committed) : Kept t where
  called := by
    rw [hcalled, hcommitted]
    exact h.called
  inFlight := by
    rw [hinFlight, hcommitted]
    exact h.inFlight
  listened := by
    rw [hcommitted]
    rcases hlistened with hsame | hnow
    · rw [hsame]
      exact h.listened
    · rw [hnow]
      exact fun _ hrow => hrow
  idle hwaiting := absurd (.inr (.inr hwaiting)) hphase
  scanned hscanned := absurd hscanned hphase
  heard hscanned := absurd hscanned hphase
  covered hscanned := absurd hscanned hphase

omit [DecidableEq Row] in
theorem Kept.commit {s : State Row} (h : Kept s) (row : Row) : Kept (s.commit row) where
  called other hother := List.mem_cons_of_mem _ (h.called other hother)
  inFlight x hx := by
    rcases List.mem_append.mp hx with hnew | hold
    · obtain ⟨session, -, rfl⟩ := List.mem_map.mp hnew
      exact List.mem_cons_self
    · exact List.mem_cons_of_mem _ (h.inFlight x hold)
  listened other hother := List.mem_cons_of_mem _ (h.listened other hother)
  idle := h.idle
  scanned := h.scanned
  heard := h.heard
  covered hscanned hunset session hdriver hlistening other hother := by
    rcases List.mem_cons.mp hother with rfl | hold
    · exact .inr (List.mem_append_left _ (List.mem_map_of_mem hlistening))
    · apply (h.covered hscanned hunset session hdriver hlistening other hold).imp_right
      exact fun hflight => List.mem_append_right _ hflight

theorem Kept.onNotification {s : State Row} (h : Kept s) {session : Nat} {row : Row}
    (hflight : (session, row) ∈ s.inFlight) :
    Kept { s with
      inFlight := s.inFlight.erase (session, row)
      called := row :: s.called
      notification := true } where
  called other hother := by
    rcases List.mem_cons.mp hother with rfl | hold
    · exact h.inFlight _ hflight
    · exact h.called other hold
  inFlight x hx := h.inFlight x (List.mem_of_mem_erase hx)
  listened := h.listened
  idle := h.idle
  scanned := h.scanned
  heard _ hunset := by cases hunset
  covered _ hunset := by cases hunset

theorem Kept.lose {s : State Row} (h : Kept s) {session : Nat} {row : Row}
    (hlost : session ∉ s.listening ∨
      s.phase = .registering ∧ s.driverConnection = some session) :
    Kept { s with inFlight := s.inFlight.erase (session, row) } where
  called := h.called
  inFlight x hx := h.inFlight x (List.mem_of_mem_erase hx)
  listened := h.listened
  idle := h.idle
  scanned := h.scanned
  heard := h.heard
  covered hscanned hunset other hdriver hlistening row' hrow' := by
    apply (h.covered hscanned hunset other hdriver hlistening row' hrow').imp_right
    intro hflight
    have hne : (other, row') ≠ (session, row) := by
      rintro heq
      cases heq
      rcases hlost with hgone | ⟨hphase, -⟩
      · exact hgone hlistening
      · simp [Phase.Scanned, hphase] at hscanned
    exact (List.mem_erase_of_ne hne).mpr hflight

omit [DecidableEq Row] in
theorem Kept.sessions {s : State Row} (h : Kept s) {listening closed : List Nat}
    (hsessions : ∀ session ∈ listening, session ∈ s.listening) :
    Kept { s with listening := listening, closed := closed } where
  called := h.called
  inFlight := h.inFlight
  listened := h.listened
  idle := h.idle
  scanned := h.scanned
  heard := h.heard
  covered hscanned hunset session hdriver hlistening :=
    h.covered hscanned hunset session hdriver (hsessions session hlistening)

omit [DecidableEq Row] in
theorem Kept.snapshot {s : State Row} (h : Kept s) :
    Kept { s with snapshot := s.committed, phase := .processing } where
  called := h.called
  inFlight := h.inFlight
  listened := h.listened
  idle hwaiting := by cases hwaiting
  scanned _ := h.listened
  heard _ _ := h.called
  covered _ _ _ _ _ _ hrow := .inl hrow

omit [DecidableEq Row] in
theorem Kept.scanning {s : State Row} (h : Kept s) (hbefore : s.phase.Scanned) {phase : Phase}
    {processed : Nat} (hidle : phase = .waiting → processed = 0) :
    Kept { s with processed := processed, phase := phase } where
  called := h.called
  inFlight := h.inFlight
  listened := h.listened
  idle := hidle
  scanned _ := h.scanned hbefore
  heard _ := h.heard hbefore
  covered _ := h.covered hbefore

omit [DecidableEq Row] in
theorem Kept.afterProcess {s : State Row} (h : Kept s) (hphase : s.phase = .closing) :
    Kept s.afterProcess := by
  unfold State.afterProcess
  split
  case isTrue => exact h.unscanned (by simp [Phase.Scanned]) rfl rfl rfl (.inl rfl)
  case isFalse hnone =>
    split
    case h_1 => exact h.unscanned (by simp [Phase.Scanned]) rfl rfl rfl (.inl rfl)
    case h_2 =>
      split
      case isTrue => exact h.unscanned (by simp [Phase.Scanned]) rfl rfl rfl (.inl rfl)
      case isFalse => exact h.scanning (.inr (.inl hphase)) fun _ => Nat.eq_zero_of_not_pos hnone

theorem Kept.step {s : State Row} (h : Kept s) (event : Event Row) : Kept (step s event) := by
  have hmoved : ∀ {phase : Phase}, ¬phase.Scanned → Kept { s with phase := phase } :=
    fun hphase => h.unscanned hphase rfl rfl rfl (.inl rfl)
  cases event with
  | commit row => exact h.commit row
  | onNotification session row =>
    simp only [Notify.step]
    split
    case isTrue hflight => exact h.onNotification hflight
    case isFalse => exact h
  | lose session row =>
    simp only [Notify.step]
    split
    case isTrue hlost => exact h.lose hlost
    case isFalse => exact h
  | drop session => exact h.sessions fun _ hmem => (List.mem_filter.mp hmem).1
  | close session => exact h.sessions fun _ hmem => (List.mem_filter.mp hmem).1
  | connect =>
    simp only [Notify.step]
    split
    case isTrue =>
      exact h.unscanned (by simp [State.connect, Phase.Scanned]) rfl rfl rfl (.inl rfl)
    case isFalse => exact h
  | listen =>
    simp only [Notify.step]
    split
    case h_1 =>
      split
      case isTrue =>
        exact h.unscanned (by simp [State.listen, Phase.Scanned]) rfl rfl rfl (.inr rfl)
      case isFalse => exact h
    case h_2 => exact h
  | registered =>
    simp only [Notify.step]
    split
    case isTrue => exact hmoved (by simp [Phase.Scanned])
    case isFalse => exact h
  | snapshot =>
    simp only [Notify.step]
    split
    case isTrue => exact h.snapshot
    case isFalse => exact h
  | returned processed =>
    simp only [Notify.step]
    split
    case isTrue hphase => exact h.scanning (.inl hphase) (by simp)
    case isFalse => exact h
  | closed =>
    simp only [Notify.step]
    split
    case isTrue hphase => exact h.afterProcess hphase
    case isFalse => exact h
  | wake =>
    simp only [Notify.step]
    split
    case isTrue => exact h.unscanned (by simp [Phase.Scanned]) rfl rfl rfl (.inl rfl)
    case isFalse => exact h
  | timeout =>
    simp only [Notify.step]
    split
    case isTrue => exact hmoved (by simp [Phase.Scanned])
    case isFalse => exact h
  | raised =>
    simp only [Notify.step, State.raised]
    split
    all_goals first | exact h | exact hmoved (by simp [Phase.Scanned])
  | cancelled =>
    simp only [Notify.step, State.cancelled]
    split
    all_goals exact hmoved (by simp [Phase.Scanned])
  | exited raised =>
    simp only [Notify.step, State.exited]
    split
    case h_1 cancelled _ =>
      split
      case isTrue => exact hmoved (by simp [Phase.Scanned])
      case isFalse =>
        refine h.unscanned ?_ rfl rfl rfl (.inl rfl)
        cases cancelled <;> simp [Phase.Scanned]
    case h_2 => exact h

theorem kept_after (events : List (Event Row)) : Kept (machine.after .init events) := by
  induction events using List.reverseRecOn with
  | nil => constructor <;> simp [State.init, Phase.Scanned]
  | append_singleton past event ih =>
    rw [Machine.after_concat]
    exact ih.step event

/-- Blocked with the event not set, the worker has seen every row that was committed before it
began to listen, or whose callback has run. -/
theorem no_wakeup_lost (events : List (Event Row))
    (hwaiting : (machine.after .init events).phase = .waiting)
    (hunset : (machine.after .init events).notification = false) :
    (machine.after .init events).processed = 0 ∧
      ∀ row, row ∈ (machine.after .init events).listened ∨
        row ∈ (machine.after .init events).called →
        row ∈ (machine.after .init events).snapshot := by
  have hkept : Kept (machine.after .init events) := kept_after events
  have hscanned : (machine.after .init events).phase.Scanned := .inr (.inr hwaiting)
  refine ⟨hkept.idle hwaiting, ?_⟩
  rintro row (hlistened | hcalled)
  · exact hkept.scanned hscanned row hlistened
  · exact hkept.heard hscanned hunset row hcalled

end worker

section witness

/-- A row is there before the worker listens; another one comes while the worker processes,
and its notification while it waits; a third one comes when it waits again. -/
def woken : List (Event Nat) :=
  [.commit 1, .connect, .listen, .registered, .snapshot, .returned 1, .closed, .snapshot,
    .commit 2, .returned 0, .closed, .onNotification 0 2, .wake, .snapshot, .returned 0, .closed,
    .commit 3]

theorem no_wakeup_lost_woken : (machine.after .init woken).processed = 0 ∧
    ∀ row, row ∈ (machine.after .init woken).listened ∨ row ∈ (machine.after .init woken).called →
      row ∈ (machine.after .init woken).snapshot :=
  no_wakeup_lost woken (by decide) (by decide)

end witness
end DddFramework.Outbox.Notify
