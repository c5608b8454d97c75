import DddFramework.Library.Machine
import Mathlib.Order.Lattice

/-! Cells of a store that forgets a value once its clock has passed the deadline
last set for it, and scripts the store runs on one such cell, each at a single
clock reading. Between two calls the store may look at the clock any number of
times and drop the value early in that sense, never before the deadline. -/
namespace DddFramework.Library

variable {T ι V ρ σ : Type*}

/-- What reaches a store at a clock reading: a look at the clock, or a call. -/
inductive Event (T ι : Type*) where
  | tick (now : T)
  | call (now : T) (request : ι)

def Event.now : Event T ι → T
  | .tick now => now
  | .call now _ => now

structure Served (T ι ρ : Type*) where
  now : T
  request : ι
  reply : ρ
deriving DecidableEq

def serving (init : σ) (idle : T → σ → σ) (serve : T → ι → σ → σ × ρ) :
    Machine σ (Event T ι) (Served T ι ρ) where
  init := init
  step
    | state, .tick now => (idle now state, [])
    | state, .call now request =>
        ((serve now request state).1, [⟨now, request, (serve now request state).2⟩])

section
variable {init : σ} {idle : T → σ → σ} {serve : T → ι → σ → σ × ρ}

theorem served_now_sublist (state : σ) (events : List (Event T ι)) :
    (((serving init idle serve).emitted state events).map Served.now).Sublist
      (events.map Event.now) := by
  induction events generalizing state with
  | nil => simp
  | cons event events ih =>
    cases event with
    | tick now =>
      simp only [Machine.emitted, serving, List.nil_append, List.map_cons]
      exact (ih _).cons _
    | call now request =>
      simp only [Machine.emitted, serving, List.cons_append, List.nil_append, List.map_cons]
      exact (ih _).cons_cons _

theorem served_ordered [Preorder T] {state : σ} {events : List (Event T ι)}
    (h : (events.map Event.now).Pairwise (· ≤ ·)) :
    (((serving init idle serve).emitted state events).map Served.now).Pairwise (· ≤ ·) :=
  h.sublist (served_now_sublist state events)

theorem exists_call_of_served {state : σ} {events : List (Event T ι)}
    {earlier later : List (Served T ι ρ)} {x : Served T ι ρ}
    (h : (serving init idle serve).emitted state events = earlier ++ x :: later) :
    ∃ past rest, events = past ++ .call x.now x.request :: rest ∧
      earlier = (serving init idle serve).emitted state past ∧
      x.reply = (serve x.now x.request ((serving init idle serve).after state past)).2 := by
  obtain ⟨past, event, rest, before, behind, hsplit, hstep, hearlier⟩ :=
    Machine.exists_step_of_emitted _ h
  cases event with
  | tick now => simp [serving] at hstep
  | call now request =>
    cases before with
    | nil =>
      simp only [serving, List.nil_append, List.cons.injEq] at hstep
      obtain ⟨rfl, -⟩ := hstep
      exact ⟨past, rest, hsplit, by rw [hearlier, List.append_nil], rfl⟩
    | cons first before => simp [serving] at hstep
end

/-- A stored value with the reading after which it is forgotten. A dropped cell
keeps the value as a ghost, for statements only: `live` no longer shows it. -/
structure Expiring (T V : Type*) where
  value : V
  deadline : T
  dropped : Bool

namespace Expiring
variable [LinearOrder T]

def expired (cell : Expiring T V) (now : T) : Bool :=
  cell.dropped || decide (cell.deadline < now)

def sweep (now : T) (cell : Expiring T V) : Expiring T V :=
  { cell with dropped := cell.expired now }

def live (now : T) : Option (Expiring T V) → Option V
  | none => none
  | some cell => if cell.expired now then none else some cell.value

@[simp] theorem live_none (now : T) : live now (none : Option (Expiring T V)) = none := rfl

theorem live_fresh (value : V) (deadline now : T) :
    live now (some ⟨value, deadline, false⟩) = if deadline < now then none else some value := by
  simp [live, expired]

theorem value_of_live {now : T} {cell : Option (Expiring T V)} {value : V}
    (h : live now cell = some value) :
    ∃ stored, cell = some stored ∧ stored.value = value ∧ stored.expired now = false := by
  cases cell with
  | none => simp at h
  | some stored =>
    simp only [live] at h
    split at h
    · contradiction
    · rename_i hexpired
      exact ⟨stored, rfl, Option.some.inj h, by simpa using hexpired⟩

/-- Looking at the clock in between is not observable while it moves forward. -/
theorem live_sweep {before now : T} (h : before ≤ now) (cell : Option (Expiring T V)) :
    live now (cell.map (sweep before)) = live now cell := by
  cases cell with
  | none => rfl
  | some cell =>
    have hpassed : cell.deadline < before → cell.deadline < now := fun hlt => hlt.trans_le h
    simp only [Option.map_some, live, expired, sweep]
    by_cases hdropped : cell.dropped = true
    · simp [hdropped]
    · by_cases hbefore : cell.deadline < before
      · simp [hbefore, hpassed hbefore]
      · simp [hdropped, hbefore]

end Expiring

structure Write (T V ρ : Type*) where
  value : V
  deadline : T
  reply : ρ

/-- A script sees the clock, the request and the value that is still live. -/
abbrev Script (T ι V ρ : Type*) := T → ι → Option V → Write T V ρ

def Script.machine [LinearOrder T] (script : Script T ι V ρ) :
    Machine (Option (Expiring T V)) (Event T ι) (Served T ι ρ) :=
  serving none (fun now cell => cell.map (Expiring.sweep now)) fun now request cell =>
    let write := script now request (Expiring.live now cell)
    (some ⟨write.value, write.deadline, false⟩, write.reply)

theorem Script.step_tick [LinearOrder T] (script : Script T ι V ρ) (cell : Option (Expiring T V))
    (now : T) : script.machine.step cell (.tick now) = (cell.map (Expiring.sweep now), []) := rfl

theorem Script.step_call [LinearOrder T] (script : Script T ι V ρ) (cell : Option (Expiring T V))
    (now : T) (request : ι) :
    script.machine.step cell (.call now request) =
      (some ⟨(script now request (Expiring.live now cell)).value,
        (script now request (Expiring.live now cell)).deadline, false⟩,
        [⟨now, request, (script now request (Expiring.live now cell)).reply⟩]) := rfl

end DddFramework.Library
