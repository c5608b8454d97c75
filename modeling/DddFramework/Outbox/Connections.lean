import DddFramework.Library.Machine
import Mathlib.Data.List.Nodup

/-! The connections of the worker that waits for `NOTIFY`. `__aenter__` takes one, which
`__aexit__` gives back; where an exception leaves either on its way, nothing does. How many are
still taken is the one in use and one for each of these exceptions. -/
namespace DddFramework.Outbox.Connections
open Library

/-- Which call the worker awaits: those of `__aenter__`, with the connection that it has taken,
one in the body of `async with`, those of `__aexit__`, or the sleep after an exception. While it
leaves, `cancelled` is whether a cancellation is on its way. -/
inductive Phase where
  | connecting
  | resolving (connection : Nat)
  | registering
  | inside
  | removing (cancelled : Bool)
  | closing (cancelled : Bool)
  | sleeping
  | ended
deriving DecidableEq

/-- How the call ends: it returns, raises what `except Exception` catches, or is cancelled. A
raw connection is of asyncpg, or it is not. -/
inductive Reply where
  | returned
  | resolved (asyncpg : Bool)
  | raised
  | cancelled
deriving DecidableEq

inductive Event where
  | reply (reply : Reply)
  | drop (connection : Nat)
deriving DecidableEq

inductive Effect where
  | took (connection : Nat)
  | gaveBack (connection : Nat)
deriving DecidableEq

/-- The fields of the listener, the connections that it has taken, in all and not given back,
those on which its callback is registered, and those that the server has closed. -/
structure State where
  connection : Option Nat
  driverConnection : Option Nat
  count : Nat
  taken : List Nat
  callbacks : List Nat
  dropped : List Nat
  phase : Phase
deriving DecidableEq

namespace State

def init : State := ⟨none, none, 0, [], [], [], .connecting⟩

def fail (s : State) (cancelled : Bool) : State :=
  { s with phase := if cancelled then .ended else .sleeping }

def exited (s : State) (cancelled : Bool) : State :=
  { s with connection := none, driverConnection := none }.fail cancelled

/-- `__aexit__` from its second `if` on. -/
def closeConnection (s : State) (cancelled : Bool) : State :=
  match s.connection with
  | some _ => { s with phase := .closing cancelled }
  | none => s.exited cancelled

def leave (s : State) (cancelled : Bool) : State :=
  match s.driverConnection with
  | some driver =>
    if driver ∈ s.dropped then s.closeConnection cancelled
    else { s with phase := .removing cancelled }
  | none => s.closeConnection cancelled

def returned (s : State) : State × List Effect :=
  match s.phase with
  | .connecting =>
    ({ s with
        count := s.count + 1, taken := s.count :: s.taken, phase := .resolving s.count },
      [.took s.count])
  | .registering =>
    ({ s with callbacks := s.driverConnection.toList ++ s.callbacks, phase := .inside }, [])
  | .removing cancelled =>
    ({ s with
        callbacks := s.callbacks.filter fun other => s.driverConnection ≠ some other
        }.closeConnection cancelled, [])
  | .closing cancelled =>
    match s.connection with
    | some connection =>
      ({ s with taken := s.taken.erase connection }.exited cancelled, [.gaveBack connection])
    | none => (s.exited cancelled, [])
  | .sleeping => ({ s with phase := .connecting }, [])
  | _ => (s, [])

def raised (s : State) (cancelled : Bool) : State :=
  match s.phase with
  | .inside => s.leave cancelled
  | .sleeping => if cancelled then { s with phase := .ended } else s
  | .ended => s
  | _ => s.fail cancelled

def resolved (s : State) (asyncpg : Bool) : State :=
  match s.phase with
  | .resolving connection =>
    if asyncpg then
      { s with
        connection := some connection, driverConnection := some connection, phase := .registering }
    else s.fail false
  | _ => s

end State

def step (s : State) : Event → State × List Effect
  | .reply .returned => s.returned
  | .reply (.resolved asyncpg) => (s.resolved asyncpg, [])
  | .reply .raised => (s.raised false, [])
  | .reply .cancelled => (s.raised true, [])
  | .drop connection => ({ s with dropped := connection :: s.dropped }, [])

def worker : Machine State Event Effect where
  init := .init
  step := step

def Phase.Uses : Phase → Prop
  | .resolving _ | .registering | .inside | .removing _ | .closing _ => True
  | _ => False

instance (phase : Phase) : Decidable phase.Uses := by
  cases phase <;> first | exact isTrue trivial | exact isFalse not_false

/-- A step at which an exception leaves `__aenter__` after it has taken a connection, or leaves
`__aexit__` before it has given it back. -/
def Leaks (x : State × Event) : Bool :=
  match x.1.phase, x.2 with
  | .resolving _, .reply (.resolved asyncpg) => !asyncpg
  | .resolving _, .reply .raised | .resolving _, .reply .cancelled => true
  | .registering, .reply .raised | .registering, .reply .cancelled => true
  | .removing _, .reply .raised | .removing _, .reply .cancelled => true
  | .closing _, .reply .raised | .closing _, .reply .cancelled => true
  | _, _ => false

structure Held (s : State) : Prop where
  fresh : ∀ connection ∈ s.taken, connection < s.count
  nodup : s.taken.Nodup
  resolving : ∀ connection, s.phase = .resolving connection → connection ∈ s.taken
  fields : s.phase = .registering ∨ s.phase = .inside ∨
      (∃ cancelled, s.phase = .removing cancelled) ∨ (∃ cancelled, s.phase = .closing cancelled) →
    ∃ connection ∈ s.taken, s.connection = some connection ∧ s.driverConnection = some connection
  listens : s.phase = .inside → ∀ connection, s.driverConnection = some connection →
    connection ∈ s.callbacks

def uses (phase : Phase) : Nat := if phase.Uses then 1 else 0

theorem held_init : Held .init := ⟨nofun, .nil, nofun, by simp [State.init], nofun⟩

structure Moves (s : State) (event : Event) (t : State) (more : List Effect) : Prop where
  held : Held t
  length : t.taken.length + uses s.phase =
    s.taken.length + uses t.phase + (Leaks (s, event)).toNat
  ledger : (more = [] ∧ t.taken = s.taken ∧ t.count = s.count) ∨
    (more = [.took s.count] ∧ t.taken = s.count :: s.taken ∧ t.count = s.count + 1) ∨
    ∃ connection ∈ s.taken, more = [.gaveBack connection] ∧
      t.taken = s.taken.erase connection ∧ t.count = s.count

section moves
variable {s : State} {event : Event}

theorem Held.moves (h : Held s) {t : State} (htaken : t.taken = s.taken)
    (hcount : t.count = s.count)
    (hlength : uses s.phase = uses t.phase + (Leaks (s, event)).toNat)
    (hresolving : ∀ connection, t.phase = .resolving connection → connection ∈ s.taken)
    (hfields : t.phase = .registering ∨ t.phase = .inside ∨
        (∃ cancelled, t.phase = .removing cancelled) ∨ (∃ cancelled, t.phase = .closing cancelled) →
      ∃ connection ∈ s.taken, t.connection = some connection ∧
        t.driverConnection = some connection)
    (hlistens : t.phase = .inside → ∀ connection, t.driverConnection = some connection →
      connection ∈ t.callbacks) : Moves s event t [] where
  held := by
    refine ⟨?_, ?_, ?_, ?_, hlistens⟩
    · rw [htaken, hcount]
      exact h.fresh
    · rw [htaken]
      exact h.nodup
    · rw [htaken]
      exact hresolving
    · rw [htaken]
      exact hfields
  length := by
    rw [htaken]
    omega
  ledger := .inl ⟨rfl, htaken, hcount⟩

theorem Held.stays (h : Held s) (hleaks : Leaks (s, event) = false) : Moves s event s [] := by
  refine h.moves rfl rfl ?_ h.resolving h.fields h.listens
  rw [hleaks]
  rfl

theorem Held.fails (h : Held s) (cancelled : Bool)
    (hlength : uses s.phase = (Leaks (s, event)).toNat) : Moves s event (s.fail cancelled) [] := by
  have hphase : (s.fail cancelled).phase = .ended ∨ (s.fail cancelled).phase = .sleeping := by
    cases cancelled
    · exact .inr rfl
    · exact .inl rfl
  refine h.moves rfl rfl ?_ ?_ ?_ ?_
  · obtain hended | hsleeping := hphase
    · rw [hlength, hended, uses, if_neg (by simp [Phase.Uses]), Nat.zero_add]
    · rw [hlength, hsleeping, uses, if_neg (by simp [Phase.Uses]), Nat.zero_add]
  · obtain hended | hsleeping := hphase <;> simp [*]
  · obtain hended | hsleeping := hphase <;> simp [*]
  · obtain hended | hsleeping := hphase <;> simp [*]

theorem Held.leaves (h : Held s) (hphase : s.phase = .inside) (cancelled : Bool)
    (hleaks : Leaks (s, event) = false) : Moves s event (s.leave cancelled) [] := by
  obtain ⟨connection, htaken, hconnection, hdriver⟩ := h.fields (.inr (.inl hphase))
  have huses : uses s.phase = 1 := by rw [hphase]; rfl
  simp only [State.leave, hdriver]
  by_cases hdropped : connection ∈ s.dropped
  · rw [if_pos hdropped]
    simp only [State.closeConnection, hconnection]
    refine h.moves rfl rfl ?_ nofun (fun _ => ⟨connection, htaken, rfl, hdriver⟩) nofun
    rw [huses, hleaks]
    rfl
  · rw [if_neg hdropped]
    refine h.moves rfl rfl ?_ nofun (fun _ => ⟨connection, htaken, hconnection, rfl⟩) nofun
    rw [huses, hleaks]
    rfl

def exceptional (cancelled : Bool) : Reply := if cancelled then .cancelled else .raised

theorem Held.raised (h : Held s) (cancelled : Bool) :
    Moves s (.reply (exceptional cancelled)) (s.raised cancelled) [] := by
  have hleaks : Leaks (s, .reply (exceptional cancelled)) = match s.phase with
      | .resolving _ | .registering | .removing _ | .closing _ => true
      | _ => false := by
    unfold Leaks
    cases s.phase <;> cases cancelled <;> rfl
  unfold State.raised
  cases hphase : s.phase with
  | inside => exact h.leaves hphase cancelled (by rw [hleaks, hphase])
  | sleeping =>
    cases cancelled with
    | true => exact h.moves rfl rfl (by rw [hleaks, hphase]; rfl) nofun (by simp) nofun
    | false => exact h.stays (by rw [hleaks, hphase])
  | ended => exact h.stays (by rw [hleaks, hphase])
  | _ => exact h.fails cancelled (by rw [hleaks, hphase]; rfl)

theorem Held.resolved (h : Held s) (asyncpg : Bool) :
    Moves s (.reply (.resolved asyncpg)) (s.resolved asyncpg) [] := by
  unfold State.resolved
  split
  case h_1 connection hphase =>
    cases asyncpg with
    | false =>
      apply h.fails
      simp [Leaks, hphase, uses, Phase.Uses]
    | true =>
      refine h.moves rfl rfl ?_ nofun (fun _ => ?_) nofun
      · simp [Leaks, hphase, uses, Phase.Uses]
      · exact ⟨connection, h.resolving connection hphase, rfl, rfl⟩
  case h_2 hphase =>
    apply h.stays
    unfold Leaks
    split <;> simp_all

theorem Held.returned (h : Held s) :
    Moves s (.reply .returned) s.returned.1 s.returned.2 := by
  have hleaks : Leaks (s, .reply .returned) = false := by
    unfold Leaks
    cases s.phase <;> rfl
  unfold State.returned
  cases hphase : s.phase with
  | connecting =>
    refine ⟨⟨?_, ?_, ?_, by simp, nofun⟩, ?_, .inr (.inl ⟨rfl, rfl, rfl⟩)⟩
    · intro connection hconnection
      obtain rfl | hold := List.mem_cons.mp hconnection
      · exact Nat.lt_succ_self _
      · exact Nat.lt_succ_of_lt (h.fresh connection hold)
    · refine List.nodup_cons.mpr ⟨fun hmem => ?_, h.nodup⟩
      exact Nat.lt_irrefl _ (h.fresh s.count hmem)
    · rintro connection ⟨⟩
      exact List.mem_cons_self
    · rw [hleaks, hphase]
      rfl
  | registering =>
    obtain ⟨connection, htaken, hconnection, hdriver⟩ := h.fields (.inl hphase)
    refine h.moves rfl rfl (by rw [hleaks, hphase]; rfl) nofun
      (fun _ => ⟨connection, htaken, hconnection, hdriver⟩) fun _ other hother => ?_
    have hmem : other ∈ s.driverConnection.toList := Option.mem_toList.mpr hother
    exact List.mem_append_left _ hmem
  | removing cancelled =>
    obtain ⟨connection, htaken, hconnection, hdriver⟩ := h.fields (.inr (.inr (.inl ⟨_, hphase⟩)))
    simp only [State.closeConnection, hconnection]
    exact h.moves rfl rfl (by rw [hleaks, hphase]; rfl) nofun
      (fun _ => ⟨connection, htaken, rfl, hdriver⟩) nofun
  | closing cancelled =>
    obtain ⟨connection, htaken, hconnection, hdriver⟩ := h.fields (.inr (.inr (.inr ⟨_, hphase⟩)))
    simp only [hconnection]
    have hlength : (s.taken.erase connection).length + 1 = s.taken.length := by
      rw [List.length_erase_of_mem htaken]
      exact Nat.sub_add_cancel (List.length_pos_of_mem htaken)
    have hfresh : ∀ other ∈ s.taken.erase connection, other < s.count := fun other hother =>
      h.fresh other (List.mem_of_mem_erase hother)
    refine ⟨?_, ?_, .inr (.inr ⟨connection, htaken, rfl, ?_, ?_⟩)⟩
    · cases cancelled <;> exact ⟨hfresh, h.nodup.erase connection, nofun, by simp [State.fail,
        State.exited], nofun⟩
    · rw [hleaks, hphase]
      cases cancelled <;> exact hlength
    · cases cancelled <;> rfl
    · cases cancelled <;> rfl
  | sleeping => exact h.moves rfl rfl (by rw [hleaks, hphase]; rfl) nofun (by simp) nofun
  | _ => exact h.stays hleaks

theorem step_moves (h : Held s) (event : Event) :
    Moves s event (step s event).1 (step s event).2 := by
  cases event with
  | reply reply =>
    cases reply with
    | returned => exact h.returned
    | resolved asyncpg => exact h.resolved asyncpg
    | raised => exact h.raised false
    | cancelled => exact h.raised true
  | drop connection =>
    refine h.moves rfl rfl ?_ h.resolving h.fields h.listens
    have hleaks : Leaks (s, .drop connection) = false := by
      unfold Leaks
      cases s.phase <;> rfl
    rw [hleaks]
    rfl

end moves

theorem held_after (events : List Event) : Held (worker.after .init events) := by
  induction events using List.reverseRecOn with
  | nil => exact held_init
  | append_singleton past event ih =>
    rw [Machine.after_concat]
    exact (step_moves ih event).held

theorem counted_after (events : List Event) : (worker.after .init events).taken.length =
    uses (worker.after .init events).phase + (worker.steps .init events).countP Leaks := by
  induction events using List.reverseRecOn with
  | nil => rfl
  | append_singleton past event ih =>
    have hlength := (step_moves (held_after past) event).length
    rw [Machine.after_concat, Machine.steps_concat, List.countP_append, List.countP_singleton]
    have hstep : worker.step = step := rfl
    rw [hstep]
    cases hleaks : Leaks (worker.after .init past, event) <;> simp [hleaks] at hlength ⊢ <;> omega

section ledger
variable (connection other : Nat)

end ledger

end DddFramework.Outbox.Connections
