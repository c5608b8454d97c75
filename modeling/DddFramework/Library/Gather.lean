import DddFramework.Library.Machine
import Mathlib.Data.List.Sort

/-! Tasks that are gathered, with a first-in first-out semaphore between them or without one.
The tasks take their first steps in the order in which they were made. A permit that is
released goes to the first task that waits, which has it before it goes on. -/
namespace DddFramework.Library.Gather

inductive End (ε : Type) where
  | returned
  | raised (error : ε)
  | cancelled
deriving DecidableEq

def End.fails {ε : Type} : End ε → Bool
  | .returned => false
  | _ => true

/-- What a task waits for at the semaphore. It is withdrawn where its task is cancelled after
it has been woken. -/
inductive Future where
  | pending
  | woken
  | cancelled
  | withdrawn
deriving DecidableEq

inductive Stage (ε : Type) where
  | created (cancelled : Bool)
  | waiting (future : Future)
  | working
  | ended (how : End ε)
deriving DecidableEq

namespace Stage
variable {ε : Type}

def isCreated : Stage ε → Bool
  | .created _ => true
  | _ => false

def isPending : Stage ε → Bool
  | .waiting .pending => true
  | _ => false

def isDone : Stage ε → Bool
  | .waiting .pending => false
  | .waiting _ => true
  | _ => false

def holds : Stage ε → Bool
  | .working | .waiting .woken | .waiting .withdrawn => true
  | _ => false

def held (stage : Stage ε) : Nat := if stage.holds then 1 else 0

/-- Nobody who comes later may take a permit before it. -/
def queues : Stage ε → Bool
  | .waiting .cancelled => false
  | .waiting _ => true
  | _ => false

def isWorking : Stage ε → Bool
  | .working => true
  | _ => false

def isEnded : Stage ε → Bool
  | .ended _ => true
  | _ => false

def cancel : Stage ε → Stage ε
  | .created _ => .created true
  | .waiting .pending => .waiting .cancelled
  | .waiting .woken => .waiting .withdrawn
  | stage => stage

@[simp] theorem holds_cancel (stage : Stage ε) : stage.cancel.holds = stage.holds := by
  cases stage with
  | waiting future => cases future <;> rfl
  | _ => rfl

@[simp] theorem isEnded_cancel (stage : Stage ε) : stage.cancel.isEnded = stage.isEnded := by
  cases stage with
  | waiting future => cases future <;> rfl
  | _ => rfl

@[simp] theorem isPending_cancel (stage : Stage ε) : stage.cancel.isPending = false := by
  cases stage with
  | waiting future => cases future <;> rfl
  | _ => rfl

@[simp] theorem isCreated_cancel (stage : Stage ε) :
    stage.cancel.isCreated = stage.isCreated := by
  cases stage with
  | waiting future => cases future <;> rfl
  | _ => rfl

theorem queues_cancel {stage : Stage ε} (h : stage.queues = false) :
    stage.cancel.queues = false := by
  cases stage with
  | waiting future => cases future <;> first | rfl | cases h
  | _ => rfl

theorem cancel_ne_woken (stage : Stage ε) : stage.cancel ≠ .waiting .woken := by
  cases stage with
  | waiting future => cases future <;> nofun
  | _ => nofun

end Stage

/-- The tasks by their numbers, the free permits where there is a semaphore, the ends that the
caller has not heard of and the number of those it has, what it has been told, and whether a
cancellation of it has reached the tasks, or has come when all of them had ended. -/
structure State (ε : Type) where
  stages : List (Stage ε)
  permits : Option Nat
  reports : List (End ε)
  heard : Nat
  result : Option (End ε)
  cancelRequested : Bool
  mustCancel : Bool

/-- A task takes its first step, or goes on from the semaphore; the work of a task ends; the
caller hears of an end, or is cancelled. -/
inductive Event (ε : Type) where
  | start
  | resume
  | finish (task : Nat) (how : End ε)
  | hear
  | cancel

inductive Effect (ε : Type) where
  | called (task : Nat)
  | settled (task : Nat) (how : End ε)
  | told (how : End ε)
deriving DecidableEq

section step
variable {ε : Type}

namespace State

def setStage (s : State ε) (i : Nat) (stage : Stage ε) : State ε :=
  { s with stages := s.stages.set i stage }

def wake (s : State ε) : State ε :=
  match s.stages.findIdx? Stage.isPending, s.permits with
  | some i, some (free + 1) => { s.setStage i (.waiting .woken) with permits := some free }
  | _, _ => s

def wakeMany : Nat → State ε → State ε
  | 0, s => s
  | count + 1, s => wakeMany count s.wake

def wakeAll (s : State ε) : State ε := s.wakeMany (s.permits.getD 0)

def giveBack (s : State ε) : State ε := { s with permits := s.permits.map (· + 1) }

/-- A permit can be had at once: there is no semaphore, or nobody waits and one is free. -/
def admits (s : State ε) : Bool :=
  s.permits.all fun free => 0 < free && s.stages.all fun stage => !stage.queues

def take (s : State ε) : State ε := { s with permits := s.permits.map (· - 1) }

def settle (s : State ε) (i : Nat) (how : End ε) : State ε :=
  { s.setStage i (.ended how) with reports := s.reports ++ [how] }

/-- The caller hears of an end: it is told of the first failure, or else that all have ended.
If it must be cancelled, it is, whatever it would have been told. -/
def hear (s : State ε) (how : End ε) (rest : List (End ε)) : State ε × List (Effect ε) :=
  let told : Option (End ε) :=
    if s.result.isSome then none
    else if how.fails then some (if s.mustCancel then .cancelled else how)
    else if s.heard + 1 = s.stages.length then
      some (if s.cancelRequested || s.mustCancel then .cancelled else .returned)
    else none
  ({ s with reports := rest, heard := s.heard + 1, result := s.result.or told },
    told.toList.map .told)

end State

def step (s : State ε) : Event ε → State ε × List (Effect ε)
  | .start =>
    match s.stages.findIdx? Stage.isCreated with
    | none => (s, [])
    | some i =>
      match s.stages[i]? with
      | some (.created true) => (s.settle i .cancelled, [.settled i .cancelled])
      | _ =>
        if s.admits then (s.take.setStage i .working, [.called i])
        else (s.setStage i (.waiting .pending), [])
  | .resume =>
    match s.stages.findIdx? Stage.isDone with
    | none => (s, [])
    | some i =>
      match s.stages[i]? with
      | some (.waiting .woken) => ((s.setStage i .working).wakeAll, [.called i])
      | some (.waiting .withdrawn) =>
        ((s.settle i .cancelled).giveBack.wakeAll, [.settled i .cancelled])
      | _ => ((s.settle i .cancelled).wakeAll, [.settled i .cancelled])
  | .finish i how =>
    match s.stages[i]? with
    | some .working => ((s.settle i how).giveBack.wake, [.settled i how])
    | _ => (s, [])
  | .hear =>
    match s.reports with
    | [] => (s, [])
    | how :: rest => s.hear how rest
  | .cancel =>
    if s.result.isSome then (s, [])
    else if s.stages.all Stage.isEnded then ({ s with mustCancel := true }, [])
    else ({ s with stages := s.stages.map Stage.cancel, cancelRequested := true }, [])

def gather (limit : Option Nat) (count : Nat) : Machine (State ε) (Event ε) (Effect ε) where
  init :=
    { stages := .replicate count (.created false)
      permits := limit
      reports := []
      heard := 0
      result := if count = 0 then some .returned else none
      cancelRequested := false
      mustCancel := false }
  step := step

end step

section logs
variable {ε : Type}

def calls (log : List (Effect ε)) : List Nat :=
  log.filterMap fun
    | .called task => some task
    | _ => none

def ends (log : List (Effect ε)) : List (End ε) :=
  log.filterMap fun
    | .settled _ how => some how
    | _ => none

def tolds (log : List (Effect ε)) : List (End ε) :=
  log.filterMap fun
    | .told how => some how
    | _ => none

@[simp] theorem calls_append (log more : List (Effect ε)) :
    calls (log ++ more) = calls log ++ calls more := List.filterMap_append

@[simp] theorem ends_append (log more : List (Effect ε)) :
    ends (log ++ more) = ends log ++ ends more := List.filterMap_append

@[simp] theorem tolds_append (log more : List (Effect ε)) :
    tolds (log ++ more) = tolds log ++ tolds more := List.filterMap_append

@[simp] theorem calls_called (task : Nat) : calls [(.called task : Effect ε)] = [task] := rfl

@[simp] theorem calls_settled (task : Nat) (how : End ε) : calls [.settled task how] = [] := rfl

@[simp] theorem ends_called (task : Nat) : ends [(.called task : Effect ε)] = [] := rfl

@[simp] theorem ends_settled (task : Nat) (how : End ε) : ends [.settled task how] = [how] := rfl

end logs

/-! The tasks stand in a line: those that have got past the semaphore or were woken or cancelled
at it, those that wait, and those that have not begun. -/

structure Line (ε : Type) where
  front : List (Stage ε)
  pending : Nat
  created : Nat
  cancelled : Bool

variable {ε : Type}

def Line.stages (line : Line ε) : List (Stage ε) :=
  line.front ++ (List.replicate line.pending (.waiting .pending) ++
    List.replicate line.created (.created line.cancelled))

/-- What every step keeps. The tasks that have been called are in front, before those that will
be. -/
structure Kept (limit : Option Nat) (count : Nat) (log : List (Effect ε)) (s : State ε)
    (line : Line ε) : Prop where
  stages : s.stages = line.stages
  front : ∀ x ∈ line.front, x.isPending = false ∧ x.isCreated = false
  withdrawn : line.cancelled = true → line.pending = 0
  length : line.stages.length = count
  limited : ∀ free, s.permits = some free →
    limit = some (free + line.front.countP Stage.holds)
  unlimited : s.permits = none → limit = none ∧ line.pending = 0 ∧ ∀ x ∈ line.front,
    x.queues = false
  sorted : (calls log).Pairwise (· < ·)
  called : ∀ i ∈ calls log, i < line.front.length ∧
    ∀ j, line.front[j]? = some (.waiting .woken) → i < j
  ended : line.front.countP Stage.isEnded = (ends log).length
  uncancelled : s.cancelRequested = false → line.cancelled = false ∧
    ∀ i x, line.front[i]? = some x → x = .waiting .woken ∨ i ∈ calls log

/-- A free permit is on its way to a task that waits. -/
def Awake (s : State ε) (line : Line ε) : Prop :=
  ∀ free, s.permits = some (free + 1) → 0 < line.pending → ∃ x ∈ line.front, x.isDone = true

section line
variable {line : Line ε}

theorem findIdx?_pending (hfront : ∀ x ∈ line.front, x.isPending = false ∧ x.isCreated = false) :
    line.stages.findIdx? Stage.isPending =
      if 0 < line.pending then some line.front.length else none := by
  have hnone : line.front.findIdx? Stage.isPending = none :=
    List.findIdx?_eq_none_iff.mpr fun x hx => (hfront x hx).1
  have hcreated : Stage.isPending (.created line.cancelled : Stage ε) = false := rfl
  have hpending : Stage.isPending (.waiting .pending : Stage ε) = true := rfl
  rw [Line.stages, List.findIdx?_append, List.findIdx?_append, hnone, List.findIdx?_replicate,
    List.findIdx?_replicate, hcreated, hpending]
  by_cases h : 0 < line.pending <;> simp [h]

theorem findIdx?_created (hfront : ∀ x ∈ line.front, x.isPending = false ∧ x.isCreated = false) :
    line.stages.findIdx? Stage.isCreated =
      if 0 < line.created then some (line.front.length + line.pending) else none := by
  have hnone : line.front.findIdx? Stage.isCreated = none :=
    List.findIdx?_eq_none_iff.mpr fun x hx => (hfront x hx).2
  have hcreated : Stage.isCreated (.created line.cancelled : Stage ε) = true := rfl
  have hpending : Stage.isCreated (.waiting .pending : Stage ε) = false := rfl
  rw [Line.stages, List.findIdx?_append, List.findIdx?_append, hnone, List.findIdx?_replicate,
    List.findIdx?_replicate, hcreated, hpending]
  by_cases h : 0 < line.created <;> simp [h, Nat.add_comm]

theorem findIdx?_done : line.stages.findIdx? Stage.isDone = line.front.findIdx? Stage.isDone := by
  have hcreated : Stage.isDone (.created line.cancelled : Stage ε) = false := rfl
  have hpending : Stage.isDone (.waiting .pending : Stage ε) = false := rfl
  rw [Line.stages, List.findIdx?_append, List.findIdx?_append, List.findIdx?_replicate,
    List.findIdx?_replicate, hcreated, hpending]
  simp

end line
section moves
variable {limit : Option Nat} {count : Nat} {log more : List (Effect ε)}
  {s t : State ε} {line : Line ε} {i : Nat} {x y : Stage ε}

def Line.push (line : Line ε) (x : Stage ε) (pending created : Nat) : Line ε :=
  { line with front := line.front ++ [x], pending := pending, created := created }

def Line.setFront (line : Line ε) (i : Nat) (x : Stage ε) : Line ε :=
  { line with front := line.front.set i x }

theorem stages_wake {pending : Nat} (h : line.pending = pending + 1) :
    line.stages.set line.front.length x = (line.push x pending line.created).stages := by
  rw [Line.stages, Line.stages, h, List.set_append_right _ _ (Nat.le_refl _), Nat.sub_self]
  simp [Line.push, List.replicate_succ]

theorem stages_start {created : Nat} (hpending : line.pending = 0)
    (h : line.created = created + 1) :
    line.stages.set (line.front.length + line.pending) x = (line.push x 0 created).stages := by
  rw [Line.stages, Line.stages, h, hpending, List.set_append_right _ _ (by omega)]
  simp [Line.push, List.replicate_succ]

theorem stages_wait {created : Nat} (h : line.created = created + 1) :
    line.stages.set (line.front.length + line.pending) (.waiting .pending) =
      ({ line with pending := line.pending + 1, created := created } : Line ε).stages := by
  rw [Line.stages, Line.stages, h, List.set_append_right _ _ (by omega),
    List.set_append_right _ _ (by simp), List.replicate_succ, List.replicate_succ']
  simp

theorem stages_setFront (h : i < line.front.length) :
    line.stages.set i x = (line.setFront i x).stages := by
  rw [Line.stages, List.set_append_left _ _ h]
  rfl

theorem getElem?_push (h : (line.front ++ [x])[i]? = some y) :
    line.front[i]? = some y ∨ i = line.front.length ∧ x = y := by
  rw [List.getElem?_append] at h
  split at h
  · exact .inl h
  · rename_i hlt
    have hlast : i - line.front.length = 0 := by
      by_contra hne
      rw [List.getElem?_eq_none (by simp; omega)] at h
      cases h
    rw [hlast] at h
    exact .inr ⟨by omega, Option.some.inj h⟩

namespace Kept

theorem wake (h : Kept limit count log s line) {free : Nat} (hfree : s.permits = some (free + 1))
    {pending : Nat} (hpending : line.pending = pending + 1) :
    Kept limit count log s.wake (line.push (.waiting .woken) pending line.created) ∧
      s.wake.permits = some free := by
  have hfirst := findIdx?_pending h.front
  rw [if_pos (by omega), ← h.stages] at hfirst
  have hwake : s.wake =
      { s.setStage line.front.length (.waiting .woken) with permits := some free } := by
    simp only [State.wake, hfirst, hfree]
  rw [hwake]
  refine ⟨?_, rfl⟩
  have hlength := congrArg List.length (stages_wake (x := .waiting .woken) hpending)
  rw [List.length_set] at hlength
  constructor
  · rw [← stages_wake hpending, ← h.stages]
    rfl
  · intro y hy
    rcases List.mem_append.mp hy with hy | hy
    · exact h.front y hy
    · rw [List.mem_singleton.mp hy]
      exact ⟨rfl, rfl⟩
  · intro hcancelled
    have := h.withdrawn hcancelled
    omega
  · rw [← hlength]
    exact h.length
  · intro left hleft
    rw [h.limited _ hfree, ← Option.some.inj hleft]
    simp [Line.push, Stage.holds]
    omega
  · exact fun hnone => absurd hnone (by simp)
  · exact h.sorted
  · intro i hi
    obtain ⟨hlt, hbefore⟩ := h.called i hi
    refine ⟨by simp [Line.push]; omega, fun j hj => ?_⟩
    rcases getElem?_push hj with hj | ⟨rfl, -⟩
    · exact hbefore j hj
    · exact hlt
  · simpa [Line.push, Stage.isEnded] using h.ended
  · intro hrequested
    obtain ⟨hcancelled, hcalled⟩ := h.uncancelled hrequested
    refine ⟨hcancelled, fun i y hy => ?_⟩
    rcases getElem?_push hy with hy | ⟨-, rfl⟩
    · exact hcalled i y hy
    · exact .inl rfl

theorem wake_idle (h : Kept limit count log s line) (hpending : line.pending = 0) :
    s.wake = s := by
  have hfirst := findIdx?_pending h.front
  rw [if_neg (by omega), ← h.stages] at hfirst
  simp only [State.wake, hfirst]

theorem wakeFirst (h : Kept limit count log s line) :
    ∃ next, Kept limit count log s.wake next ∧ Awake s.wake next := by
  cases hpending : line.pending with
  | zero =>
    rw [h.wake_idle hpending]
    exact ⟨line, h, fun _ _ hmore => by omega⟩
  | succ pending =>
    by_cases hfree : ∃ free, s.permits = some (free + 1)
    · obtain ⟨free, hfree⟩ := hfree
      refine ⟨_, (h.wake hfree hpending).1, fun _ _ _ => ⟨.waiting .woken, ?_, rfl⟩⟩
      exact List.mem_append_right _ (List.mem_singleton.mpr rfl)
    · have hidle : s.wake = s := by
        unfold State.wake
        split
        · rename_i free _ hsome
          exact absurd ⟨free, hsome⟩ hfree
        · rfl
      rw [hidle]
      exact ⟨line, h, fun free hsome => absurd ⟨free, hsome⟩ hfree⟩

theorem wakeMany (h : Kept limit count log s line) {free : Nat} (hfree : s.permits = some free) :
    ∃ next, Kept limit count log (s.wakeMany free) next ∧ Awake (s.wakeMany free) next := by
  induction free generalizing s line with
  | zero => exact ⟨line, h, fun left hleft => by rw [State.wakeMany, hfree] at hleft; cases hleft⟩
  | succ free ih =>
    cases hpending : line.pending with
    | zero =>
      -- nobody waits any more
      have hidle := h.wake_idle hpending
      have hsame : ∀ n, s.wakeMany n = s := by
        intro n
        induction n with
        | zero => rfl
        | succ n ih => rw [State.wakeMany, hidle, ih]
      rw [hsame]
      exact ⟨line, h, fun _ _ hmore => by omega⟩
    | succ pending =>
      obtain ⟨hnext, hless⟩ := h.wake hfree hpending
      exact ih hnext hless

theorem wakeAll (h : Kept limit count log s line) :
    ∃ next, Kept limit count log s.wakeAll next ∧ Awake s.wakeAll next := by
  unfold State.wakeAll
  cases hfree : s.permits with
  | none =>
    refine ⟨line, h, fun left hleft => ?_⟩
    rw [Option.getD_none, State.wakeMany, hfree] at hleft
    cases hleft
  | some free => exact h.wakeMany hfree

theorem setFront (h : Kept limit count log s line) (hi : line.front[i]? = some x)
    (ht : t.stages = s.stages.set i y) (hrequested : t.cancelRequested = s.cancelRequested)
    (hfree : t.permits = s.permits.map (· + (x.held - y.held))) (hheld : y.held ≤ x.held)
    (hmoves : (x = .waiting .woken ∧ y = .working ∧ more = [.called i] ∧
        ∀ j, line.front[j]? = some (.waiting .woken) → i ≤ j) ∨
      (x ≠ .waiting .woken ∧ x.isEnded = false ∧ ∃ how, y = .ended how ∧
        more = [.settled i how])) :
    Kept limit count (log ++ more) t (line.setFront i y) := by
  obtain ⟨hlt, hx⟩ := List.getElem?_eq_some_iff.mp hi
  have hother : ∀ j z, (line.front.set i y)[j]? = some z →
      (j = i ∧ z = y) ∨ (j ≠ i ∧ line.front[j]? = some z) := by
    intro j z hj
    by_cases hji : j = i
    · rw [hji, List.getElem?_set_self hlt] at hj
      exact .inl ⟨hji, (Option.some.inj hj).symm⟩
    · rw [List.getElem?_set_ne (Ne.symm hji)] at hj
      exact .inr ⟨hji, hj⟩
  have hy : y.isPending = false ∧ y.isCreated = false ∧ y.queues = false ∧ y ≠ .waiting .woken := by
    obtain ⟨-, rfl, -⟩ | ⟨-, -, how, rfl, -⟩ := hmoves <;> exact ⟨rfl, rfl, rfl, nofun⟩
  constructor
  · rw [ht, h.stages, stages_setFront hlt]
  · intro z hz
    rcases List.mem_or_eq_of_mem_set hz with hz | rfl
    · exact h.front z hz
    · exact ⟨hy.1, hy.2.1⟩
  · exact h.withdrawn
  · rw [← stages_setFront hlt, List.length_set]
    exact h.length
  · intro free hsome
    rw [hfree, Option.map_eq_some_iff] at hsome
    obtain ⟨old, hold, rfl⟩ := hsome
    rw [h.limited old hold]
    have hcount := List.boole_getElem_le_countP (p := Stage.holds) hlt
    have hset := List.countP_set (p := Stage.holds) (a := y) hlt
    rw [hx] at hcount hset
    simp only [Stage.held] at hheld hcount hset ⊢
    simp only [Line.setFront, hset, Option.some.injEq]
    omega
  · intro hnone
    rw [hfree, Option.map_eq_none_iff] at hnone
    obtain ⟨hlimit, hpending, hqueues⟩ := h.unlimited hnone
    refine ⟨hlimit, hpending, fun z hz => ?_⟩
    rcases List.mem_or_eq_of_mem_set hz with hz | rfl
    · exact hqueues z hz
    · exact hy.2.2.1
  · rw [calls_append]
    obtain ⟨rfl, -, rfl, -⟩ | ⟨-, -, how, -, rfl⟩ := hmoves
    · apply List.pairwise_append.mpr
      refine ⟨h.sorted, List.pairwise_singleton .., fun c hc j hj => ?_⟩
      rw [List.mem_singleton.mp hj]
      exact (h.called c hc).2 i hi
    · simpa using h.sorted
  · intro c hc
    rw [calls_append, List.mem_append] at hc
    have hlength : (line.setFront i y).front.length = line.front.length := List.length_set
    have hwoken : ∀ j, (line.setFront i y).front[j]? = some (.waiting .woken) →
        j ≠ i ∧ line.front[j]? = some (.waiting .woken) := fun j hj =>
      (hother j _ hj).resolve_left fun hsame => hy.2.2.2 hsame.2.symm
    rw [hlength]
    rcases hc with hc | hc
    · obtain ⟨hbound, hbefore⟩ := h.called c hc
      exact ⟨hbound, fun j hj => hbefore j (hwoken j hj).2⟩
    · obtain ⟨-, -, rfl, hfirst⟩ | ⟨-, -, how, -, rfl⟩ := hmoves
      · rw [List.mem_singleton.mp hc]
        refine ⟨hlt, fun j hj => ?_⟩
        obtain ⟨hne, hj⟩ := hwoken j hj
        exact Nat.lt_of_le_of_ne (hfirst j hj) hne.symm
      · cases hc
  · have hset := List.countP_set (p := Stage.isEnded) (a := y) hlt
    rw [hx] at hset
    have hended := h.ended
    simp only [Line.setFront, hset, ends_append, List.length_append]
    obtain ⟨rfl, rfl, rfl, -⟩ | ⟨-, hopen, how, rfl, rfl⟩ := hmoves
    · simpa [Stage.isEnded] using hended
    · have hlast : Stage.isEnded (.ended how : Stage ε) = true := rfl
      rw [hopen, hlast, if_neg Bool.false_ne_true, if_pos rfl, Nat.sub_zero, hended]
      rfl
  · intro hunrequested
    rw [hrequested] at hunrequested
    obtain ⟨hcancelled, hcalled⟩ := h.uncancelled hunrequested
    refine ⟨hcancelled, fun j z hz => ?_⟩
    rw [calls_append, List.mem_append]
    rcases hother j z hz with ⟨rfl, rfl⟩ | ⟨-, hz⟩
    · right
      obtain ⟨-, -, rfl, -⟩ | ⟨hne, -, how, -, rfl⟩ := hmoves
      · exact .inr (List.mem_singleton.mpr rfl)
      · exact .inl ((hcalled j x hi).resolve_left hne)
    · exact (hcalled j z hz).imp_right .inl

theorem push (h : Kept limit count log s line) (hpending : line.pending = 0) {created : Nat}
    (hcreated : line.created = created + 1)
    (ht : t.stages = s.stages.set line.front.length y)
    (hrequested : t.cancelRequested = s.cancelRequested)
    (hfree : t.permits = s.permits.map (· - y.held))
    (hmoves : (y = .working ∧ more = [.called line.front.length] ∧
        (∀ x ∈ line.front, x.queues = false) ∧ ∀ free, s.permits = some free → 0 < free) ∨
      (s.cancelRequested = true ∧ ∃ how, y = .ended how ∧
        more = [.settled line.front.length how])) :
    Kept limit count (log ++ more) t (line.push y 0 created) := by
  have hstages := stages_start (x := y) hpending hcreated
  rw [hpending, Nat.add_zero] at hstages
  have hy : y.isPending = false ∧ y.isCreated = false ∧ y.queues = false ∧ y ≠ .waiting .woken := by
    obtain ⟨rfl, -⟩ | ⟨-, how, rfl, -⟩ := hmoves <;> exact ⟨rfl, rfl, rfl, nofun⟩
  have hwoken : ∀ j, (line.front ++ [y])[j]? = some (Stage.waiting .woken) →
      line.front[j]? = some (Stage.waiting .woken) := fun j hj =>
    (getElem?_push hj).resolve_right fun hlast => hy.2.2.2 hlast.2
  constructor
  · rw [ht, h.stages, hstages]
  · intro z hz
    rcases List.mem_append.mp hz with hz | hz
    · exact h.front z hz
    · rw [List.mem_singleton.mp hz]
      exact ⟨hy.1, hy.2.1⟩
  · exact fun _ => rfl
  · rw [← hstages, List.length_set]
    exact h.length
  · intro free hsome
    rw [hfree, Option.map_eq_some_iff] at hsome
    obtain ⟨old, hold, rfl⟩ := hsome
    rw [h.limited old hold]
    obtain ⟨rfl, -, -, hpos⟩ | ⟨-, how, rfl, -⟩ := hmoves
    · have := hpos old hold
      simp [Line.push, Stage.holds, Stage.held]
      omega
    · simp [Line.push, Stage.holds, Stage.held]
  · intro hnone
    rw [hfree, Option.map_eq_none_iff] at hnone
    obtain ⟨hlimit, -, hqueues⟩ := h.unlimited hnone
    refine ⟨hlimit, rfl, fun z hz => ?_⟩
    rcases List.mem_append.mp hz with hz | hz
    · exact hqueues z hz
    · rw [List.mem_singleton.mp hz]
      exact hy.2.2.1
  · rw [calls_append]
    obtain ⟨-, rfl, -⟩ | ⟨-, how, -, rfl⟩ := hmoves
    · apply List.pairwise_append.mpr
      refine ⟨h.sorted, List.pairwise_singleton .., fun c hc j hj => ?_⟩
      rw [List.mem_singleton.mp hj]
      exact (h.called c hc).1
    · simpa using h.sorted
  · intro c hc
    rw [calls_append, List.mem_append] at hc
    have hlength : (line.push y 0 created).front.length = line.front.length + 1 := by
      simp [Line.push]
    rw [hlength]
    rcases hc with hc | hc
    · obtain ⟨hbound, hbefore⟩ := h.called c hc
      exact ⟨Nat.lt_succ_of_lt hbound, fun j hj => hbefore j (hwoken j hj)⟩
    · obtain ⟨-, rfl, hqueues, -⟩ | ⟨-, how, -, rfl⟩ := hmoves
      · rw [List.mem_singleton.mp hc]
        refine ⟨Nat.lt_succ_self _, fun j hj => ?_⟩
        -- nobody queues, so that nobody has been woken
        cases hqueues _ (List.mem_of_getElem? (hwoken j hj))
      · cases hc
  · have hended := h.ended
    simp only [Line.push, List.countP_append, ends_append, List.length_append]
    obtain ⟨rfl, rfl, -⟩ | ⟨-, how, rfl, rfl⟩ := hmoves
    · simpa [Stage.isEnded] using hended
    · simpa [Stage.isEnded] using hended
  · intro hunrequested
    rw [hrequested] at hunrequested
    obtain ⟨hcancelled, hcalled⟩ := h.uncancelled hunrequested
    refine ⟨hcancelled, fun j z hz => ?_⟩
    rw [calls_append, List.mem_append]
    rcases getElem?_push hz with hz | ⟨rfl, rfl⟩
    · exact (hcalled j z hz).imp_right .inl
    · right
      obtain ⟨-, rfl, -⟩ | ⟨hwas, -⟩ := hmoves
      · exact .inr (List.mem_singleton.mpr rfl)
      · rw [hunrequested] at hwas
        cases hwas

theorem wait (h : Kept limit count log s line) (hcancelled : line.cancelled = false)
    {created : Nat} (hcreated : line.created = created + 1) (hlimited : s.permits ≠ none) :
    Kept limit count log (s.setStage (line.front.length + line.pending) (.waiting .pending))
      { line with pending := line.pending + 1, created := created } where
  stages := by rw [← stages_wait hcreated, ← h.stages]; rfl
  front := h.front
  withdrawn hwas := by rw [hcancelled] at hwas; cases hwas
  length := by rw [← stages_wait hcreated, List.length_set]; exact h.length
  limited := h.limited
  unlimited hnone := absurd hnone hlimited
  sorted := h.sorted
  called := h.called
  ended := h.ended
  uncancelled := h.uncancelled

theorem cancel (h : Kept limit count log s line) :
    Kept limit count log { s with stages := s.stages.map Stage.cancel, cancelRequested := true }
      ⟨line.front.map Stage.cancel ++ List.replicate line.pending (.waiting .cancelled), 0,
        line.created, true⟩ := by
  constructor
  · simp [h.stages, Line.stages, Stage.cancel]
  · intro x hx
    rcases List.mem_append.mp hx with hx | hx
    · obtain ⟨z, hz, rfl⟩ := List.mem_map.mp hx
      exact ⟨z.isPending_cancel, z.isCreated_cancel.trans (h.front z hz).2⟩
    · rw [List.eq_of_mem_replicate hx]
      exact ⟨rfl, rfl⟩
  · exact fun _ => rfl
  · rw [← h.length]
    simp [Line.stages]
  · intro free hsome
    have hnone : Stage.holds (.waiting .cancelled : Stage ε) = false := rfl
    rw [h.limited free hsome, List.countP_append, List.countP_map, List.countP_replicate, hnone]
    simp [Function.comp_def]
  · intro hnone
    obtain ⟨hlimit, hpending, hqueues⟩ := h.unlimited hnone
    refine ⟨hlimit, rfl, fun x hx => ?_⟩
    rcases List.mem_append.mp hx with hx | hx
    · obtain ⟨z, hz, rfl⟩ := List.mem_map.mp hx
      exact Stage.queues_cancel (hqueues z hz)
    · rw [List.eq_of_mem_replicate hx]
      rfl
  · exact h.sorted
  · intro c hc
    refine ⟨?_, fun j hj => ?_⟩
    · have := (h.called c hc).1
      simp only [List.length_append, List.length_map]
      omega
    · rcases List.mem_append.mp (List.mem_of_getElem? hj) with hx | hx
      · obtain ⟨z, -, hz⟩ := List.mem_map.mp hx
        cases Stage.cancel_ne_woken z hz
      · cases List.eq_of_mem_replicate hx
  · have hnone : Stage.isEnded (.waiting .cancelled : Stage ε) = false := rfl
    rw [List.countP_append, List.countP_map, List.countP_replicate, hnone, ← h.ended]
    simp [Function.comp_def]
  · exact nofun

end Kept
def Sound (limit : Option Nat) (count : Nat) (log : List (Effect ε)) (s : State ε) : Prop :=
  ∃ line, Kept limit count log s line ∧ Awake s line

namespace Sound

theorem getElem?_created (h : Kept limit count log s line) (hcreated : 0 < line.created) :
    s.stages[line.front.length + line.pending]? = some (.created line.cancelled) := by
  rw [h.stages, Line.stages, List.getElem?_append_right (by omega),
    List.getElem?_append_right (by simp)]
  simp [hcreated]

theorem getElem?_front (h : Kept limit count log s line) (hi : s.stages[i]? = some x)
    (hpending : x.isPending = false) (hcreated : x.isCreated = false) :
    line.front[i]? = some x := by
  rw [h.stages, Line.stages] at hi
  by_cases hlt : i < line.front.length
  · rwa [List.getElem?_append_left hlt] at hi
  · rw [List.getElem?_append_right (Nat.not_lt.mp hlt)] at hi
    rcases List.mem_append.mp (List.mem_of_getElem? hi) with hx | hx
    · rw [List.eq_of_mem_replicate hx] at hpending
      cases hpending
    · rw [List.eq_of_mem_replicate hx] at hcreated
      cases hcreated

theorem of_admits (h : Kept limit count log s line) (hadmits : s.admits = true) :
    line.pending = 0 ∧ (∀ x ∈ line.front, x.queues = false) ∧
      ∀ free, s.permits = some free → 0 < free := by
  unfold State.admits at hadmits
  cases hfree : s.permits with
  | none =>
    obtain ⟨-, hpending, hqueues⟩ := h.unlimited hfree
    exact ⟨hpending, hqueues, nofun⟩
  | some free =>
    rw [hfree, Option.all_some, Bool.and_eq_true, List.all_eq_true, h.stages] at hadmits
    have hnone : ∀ x ∈ line.stages, x.queues = false := fun x hx => by simpa using hadmits.2 x hx
    refine ⟨?_, fun x hx => hnone x (List.mem_append_left _ hx), fun left hleft => ?_⟩
    · by_contra hpending
      have hmem : .waiting .pending ∈ line.stages := by
        simp [Line.stages, hpending]
      cases hnone _ hmem
    · rw [← Option.some.inj hleft]
      simpa using hadmits.1

theorem of_not_admits (hadmits : ¬s.admits = true) :
    s.permits ≠ none ∧ ∀ free, s.permits = some (free + 1) → ∃ x ∈ s.stages, x.queues = true := by
  unfold State.admits at hadmits
  constructor
  · intro hnone
    simp [hnone] at hadmits
  · intro free hfree
    simpa [hfree] using hadmits

theorem start (h : Kept limit count log s line) (hawake : Awake s line) :
    Sound limit count (log ++ (step s .start).2) (step s .start).1 := by
  have hfind := findIdx?_created h.front
  rw [← h.stages] at hfind
  cases hcreated : line.created with
  | zero =>
    rw [if_neg (by omega)] at hfind
    simp only [step, hfind, List.append_nil]
    exact ⟨line, h, hawake⟩
  | succ created =>
    rw [if_pos (by omega)] at hfind
    have hstage := getElem?_created h (by omega)
    cases hcancelled : line.cancelled with
    | true =>
      have hpending := h.withdrawn hcancelled
      have hrequested : s.cancelRequested = true := by
        by_contra hnot
        have := (h.uncancelled (Bool.eq_false_iff.mpr hnot)).1
        rw [hcancelled] at this
        cases this
      rw [hcancelled] at hstage
      simp only [step, hfind, hstage]
      rw [hpending, Nat.add_zero]
      refine ⟨_, h.push hpending hcreated rfl rfl ?_ (.inr ⟨hrequested, _, rfl, rfl⟩), ?_⟩
      · exact Option.map_id'.symm
      · exact fun _ _ hmore => absurd hmore (Nat.lt_irrefl 0)
    | false =>
      rw [hcancelled] at hstage
      simp only [step, hfind, hstage]
      by_cases hadmits : s.admits = true
      · obtain ⟨hpending, hqueues, hpos⟩ := of_admits h hadmits
        rw [if_pos hadmits, hpending, Nat.add_zero]
        refine ⟨_, h.push hpending hcreated rfl rfl rfl (.inl ⟨rfl, rfl, hqueues, hpos⟩), ?_⟩
        exact fun _ _ hmore => absurd hmore (Nat.lt_irrefl 0)
      · obtain ⟨hlimited, hsome⟩ := of_not_admits hadmits
        rw [if_neg hadmits, List.append_nil]
        refine ⟨_, h.wait hcancelled hcreated hlimited, fun free hfree _ => ?_⟩
        -- whoever queues has been woken, or waits and then another one has
        obtain ⟨x, hx, hqueues⟩ := hsome free hfree
        rw [h.stages, Line.stages] at hx
        rcases List.mem_append.mp hx with hx | hx
        · refine ⟨x, hx, ?_⟩
          have := (h.front x hx).1
          cases x with
          | waiting future => cases future <;> first | rfl | cases this
          | _ => cases hqueues
        · rcases List.mem_append.mp hx with hx | hx
          · exact hawake free hfree (Nat.pos_of_ne_zero fun hzero => by simp [hzero] at hx)
          · rw [List.eq_of_mem_replicate hx] at hqueues
            cases hqueues

theorem first_done (hfind : line.front.findIdx? Stage.isDone = some i) :
    ∃ x, line.front[i]? = some x ∧ x.isDone = true ∧
      ∀ j, line.front[j]? = some (.waiting .woken) → i ≤ j := by
  obtain ⟨hlt, hdone, hfirst⟩ := List.findIdx?_eq_some_iff_getElem.mp hfind
  refine ⟨_, List.getElem?_eq_getElem hlt, hdone, fun j hj => ?_⟩
  by_contra hji
  obtain ⟨hbound, hwoken⟩ := List.getElem?_eq_some_iff.mp hj
  have hnot := hfirst j (Nat.not_le.mp hji)
  rw [hwoken] at hnot
  exact hnot rfl

theorem resume (h : Kept limit count log s line) (hawake : Awake s line) :
    Sound limit count (log ++ (step s .resume).2) (step s .resume).1 := by
  have hfind : s.stages.findIdx? Stage.isDone = line.front.findIdx? Stage.isDone := by
    rw [h.stages, findIdx?_done]
  cases hfirst : line.front.findIdx? Stage.isDone with
  | none =>
    rw [hfirst] at hfind
    simp only [step, hfind, List.append_nil]
    exact ⟨line, h, hawake⟩
  | some i =>
    rw [hfirst] at hfind
    obtain ⟨x, hi, hdone, hbefore⟩ := first_done hfirst
    have hstage : s.stages[i]? = some x := by
      rw [h.stages, Line.stages, List.getElem?_append_left (List.getElem?_eq_some_iff.mp hi).1, hi]
    cases x with
    | waiting future =>
      cases future with
      | pending => cases hdone
      | woken =>
        simp only [step, hfind, hstage]
        have hmoved : Kept limit count (log ++ [.called i]) (s.setStage i .working)
            (line.setFront i .working) :=
          h.setFront hi rfl rfl Option.map_id'.symm (Nat.le_refl _)
            (.inl ⟨rfl, rfl, rfl, hbefore⟩)
        exact hmoved.wakeAll
      | cancelled =>
        simp only [step, hfind, hstage]
        have hmoved : Kept limit count (log ++ [.settled i .cancelled]) (s.settle i .cancelled)
            (line.setFront i (.ended .cancelled)) :=
          h.setFront hi rfl rfl Option.map_id'.symm (Nat.le_refl _)
            (.inr ⟨nofun, rfl, _, rfl, rfl⟩)
        exact hmoved.wakeAll
      | withdrawn =>
        simp only [step, hfind, hstage]
        have hmoved : Kept limit count (log ++ [.settled i .cancelled])
            (s.settle i .cancelled).giveBack (line.setFront i (.ended .cancelled)) :=
          h.setFront hi rfl rfl rfl (Nat.zero_le _) (.inr ⟨nofun, rfl, _, rfl, rfl⟩)
        exact hmoved.wakeAll
    | _ => cases hdone

theorem finish (h : Kept limit count log s line) (hawake : Awake s line) (i : Nat) (how : End ε) :
    Sound limit count (log ++ (step s (.finish i how)).2) (step s (.finish i how)).1 := by
  by_cases hstage : s.stages[i]? = some .working
  · have hi := getElem?_front h hstage rfl rfl
    simp only [step, hstage]
    have hgiven : Kept limit count (log ++ [.settled i how]) (s.settle i how).giveBack
        (line.setFront i (.ended how)) :=
      h.setFront hi rfl rfl rfl (Nat.zero_le 1) (.inr ⟨nofun, rfl, _, rfl, rfl⟩)
    exact hgiven.wakeFirst
  · -- a task that does not work cannot end its work
    have hidle : step s (.finish i how) = (s, []) := by simp only [step]
    rw [hidle, List.append_nil]
    exact ⟨line, h, hawake⟩

theorem hear (h : Kept limit count log s line) (hawake : Awake s line) :
    Sound limit count (log ++ (step s .hear).2) (step s .hear).1 := by
  cases hreports : s.reports with
  | nil =>
    simp only [step, hreports, List.append_nil]
    exact ⟨line, h, hawake⟩
  | cons how rest =>
    simp only [step, hreports]
    have hquiet : ∀ told : Option (End ε), calls (told.toList.map Effect.told) = [] ∧
        ends (told.toList.map Effect.told) = [] := by
      intro told
      cases told <;> exact ⟨rfl, rfl⟩
    refine ⟨line, { h with sorted := ?_, called := ?_, ended := ?_, uncancelled := ?_ }, hawake⟩
    all_goals
      simp only [State.hear, calls_append, ends_append, hquiet, List.append_nil]
    · exact h.sorted
    · exact h.called
    · exact h.ended
    · exact h.uncancelled

theorem cancel (h : Kept limit count log s line) (hawake : Awake s line) :
    Sound limit count (log ++ (step s .cancel).2) (step s .cancel).1 := by
  simp only [step]
  split
  · rw [List.append_nil]
    exact ⟨line, h, hawake⟩
  · split
    · rw [List.append_nil]
      exact ⟨line, { h with }, hawake⟩
    · rw [List.append_nil]
      exact ⟨_, h.cancel, fun _ _ hmore => absurd hmore (Nat.lt_irrefl 0)⟩

theorem step (h : Sound limit count log s) (event : Event ε) :
    Sound limit count (log ++ (step s event).2) (step s event).1 := by
  obtain ⟨line, hkept, hawake⟩ := h
  cases event with
  | start => exact start hkept hawake
  | resume => exact resume hkept hawake
  | finish i how => exact finish hkept hawake i how
  | hear => exact hear hkept hawake
  | cancel => exact cancel hkept hawake

theorem init (limit : Option Nat) (count : Nat) :
    Sound limit count [] (gather (ε := ε) limit count).init := by
  refine ⟨⟨[], 0, count, false⟩, ?_, fun _ _ hmore => absurd hmore (Nat.lt_irrefl 0)⟩
  constructor
  · rfl
  · exact nofun
  · exact nofun
  · simp [Line.stages]
  · exact fun free hfree => hfree.trans (congrArg some (Nat.add_zero free).symm)
  · exact fun hnone => ⟨hnone, rfl, nofun⟩
  · exact .nil
  · exact nofun
  · rfl
  · exact fun _ => ⟨rfl, nofun⟩

theorem after (limit : Option Nat) (count : Nat) (events : List (Event ε)) :
    Sound limit count ((gather limit count).emitted (gather limit count).init events)
      ((gather limit count).after (gather limit count).init events) := by
  induction events using List.reverseRecOn with
  | nil => exact init limit count
  | append_singleton past event ih =>
    rw [Machine.after_concat, Machine.emitted_concat]
    exact ih.step event

end Sound
end moves

/-! What the caller is told. -/

/-- The first failure among the ends that have been heard of, or else that there are no more.
A caller that must be cancelled hears of nothing else. -/
def verdict (count : Nat) (cancelRequested mustCancel : Bool) (heard : List (End ε)) :
    Option (End ε) :=
  ((heard.find? End.fails).or
    (if heard.length = count then some (if cancelRequested then .cancelled else .returned)
    else none)).map fun how => if mustCancel then .cancelled else how

theorem verdict_eq_none {count : Nat} {cancelRequested mustCancel : Bool} {heard : List (End ε)} :
    verdict count cancelRequested mustCancel heard = none ↔
      heard.find? End.fails = none ∧ heard.length ≠ count := by
  rw [verdict, Option.map_eq_none_iff, Option.or_eq_none_iff]
  simp

/-- The caller has heard of a beginning of the ends, and of no other has it been told. -/
def Told (count : Nat) (log : List (Effect ε)) (s : State ε) : Prop :=
  ∃ heard, ends log = heard ++ s.reports ∧ heard.length = s.heard ∧
    s.result = verdict count s.cancelRequested s.mustCancel heard ∧
      tolds log = if count = 0 then [] else s.result.toList

section told
variable {limit : Option Nat} {count : Nat} {log : List (Effect ε)} {s : State ε}

def Silent (s t : State ε) (effects : List (Effect ε)) : Prop :=
  t.reports = s.reports ++ ends effects ∧ t.heard = s.heard ∧ t.result = s.result ∧
    t.cancelRequested = s.cancelRequested ∧ t.mustCancel = s.mustCancel ∧ tolds effects = []

theorem Told.silent (h : Told count log s) {t : State ε} {effects : List (Effect ε)}
    (hstep : Silent s t effects) : Told count (log ++ effects) t := by
  obtain ⟨heard, hends, hlength, hresult, htolds⟩ := h
  obtain ⟨hreports, hheard, hsame, hrequested, hmust, hnone⟩ := hstep
  refine ⟨heard, ?_, hlength.trans hheard.symm, ?_, ?_⟩
  · rw [ends_append, hends, hreports, List.append_assoc]
  · rw [hsame, hrequested, hmust, hresult]
  · rw [tolds_append, hnone, List.append_nil, hsame, htolds]

theorem Silent.trans {t u : State ε} {effects : List (Effect ε)} (h : Silent s t effects)
    (hnext : Silent t u []) : Silent s u effects := by
  obtain ⟨hreports, hheard, hresult, hrequested, hmust, hnone⟩ := h
  obtain ⟨hreports', hheard', hresult', hrequested', hmust', -⟩ := hnext
  refine ⟨?_, hheard'.trans hheard, hresult'.trans hresult, hrequested'.trans hrequested,
    hmust'.trans hmust, hnone⟩
  rw [hreports', hreports]
  exact List.append_nil _

theorem Silent.refl (s : State ε) : Silent s s [] :=
  ⟨(List.append_nil _).symm, rfl, rfl, rfl, rfl, rfl⟩

theorem silent_wake (s : State ε) : Silent s s.wake [] := by
  unfold State.wake
  split
  · exact ⟨(List.append_nil _).symm, rfl, rfl, rfl, rfl, rfl⟩
  · exact .refl s

theorem silent_wakeMany (free : Nat) (s : State ε) : Silent s (s.wakeMany free) [] := by
  induction free generalizing s with
  | zero => exact .refl s
  | succ free ih => exact (silent_wake s).trans (ih s.wake)

theorem silent_giveBack (s : State ε) : Silent s s.giveBack [] := .refl s

theorem silent_settle (s : State ε) (i : Nat) (how : End ε) :
    Silent s (s.settle i how) [.settled i how] := ⟨rfl, rfl, rfl, rfl, rfl, rfl⟩

theorem silent_setStage (s : State ε) (i : Nat) (stage : Stage ε) :
    Silent s (s.setStage i stage) [] := .refl s

theorem silent_called (s : State ε) (i : Nat) :
    Silent s (s.setStage i .working) [.called i] := .refl s

theorem silent_start (s : State ε) : Silent s (step s .start).1 (step s .start).2 := by
  simp only [step]
  split
  · exact .refl s
  · split
    · exact silent_settle ..
    · split
      · exact (Silent.refl s)
      · exact silent_setStage ..

theorem silent_resume (s : State ε) : Silent s (step s .resume).1 (step s .resume).2 := by
  simp only [step]
  split
  · exact .refl s
  · split
    · exact (silent_called ..).trans (silent_wakeMany ..)
    · exact ((silent_settle ..).trans (silent_giveBack _)).trans (silent_wakeMany ..)
    · exact (silent_settle ..).trans (silent_wakeMany ..)

theorem silent_finish (s : State ε) (i : Nat) (how : End ε) :
    Silent s (step s (.finish i how)).1 (step s (.finish i how)).2 := by
  simp only [step]
  split
  · exact ((silent_settle ..).trans (silent_giveBack _)).trans (silent_wake _)
  · exact .refl s

theorem Sound.length_eq (h : Sound limit count log s) : s.stages.length = count := by
  obtain ⟨line, hkept, -⟩ := h
  rw [hkept.stages, hkept.length]

theorem Sound.ends_le (h : Sound limit count log s) : (ends log).length ≤ count := by
  obtain ⟨line, hkept, -⟩ := h
  rw [← hkept.ended, ← hkept.length, Line.stages, List.length_append]
  exact (List.countP_le_length).trans (Nat.le_add_right _ _)

theorem Told.hear (h : Told count log s) (hsound : Sound limit count log s) :
    Told count (log ++ (step s .hear).2) (step s .hear).1 := by
  obtain ⟨heard, hends, hlength, hresult, htolds⟩ := h
  cases hreports : s.reports with
  | nil =>
    simp only [step, hreports, List.append_nil]
    exact ⟨heard, hends, hlength, hresult, htolds⟩
  | cons how rest =>
    rw [hreports] at hends
    have hmore := hsound.ends_le
    rw [hends, List.length_append, List.length_cons] at hmore
    have hne : heard.length ≠ count := by omega
    have hcount : count ≠ 0 := by omega
    rw [verdict, if_neg hne, Option.or_none] at hresult
    rw [if_neg hcount] at htolds
    simp only [step, hreports, State.hear, hsound.length_eq, ← hlength]
    generalize htold : (if s.result.isSome = true then none
      else if how.fails = true then some (if s.mustCancel = true then End.cancelled else how)
      else if heard.length + 1 = count then
        some (if (s.cancelRequested || s.mustCancel) = true then End.cancelled else End.returned)
      else none : Option (End ε)) = told
    have hquiet : ends (told.toList.map Effect.told) = [] ∧
        tolds (told.toList.map Effect.told) = told.toList := by
      cases told <;> exact ⟨rfl, rfl⟩
    refine ⟨heard ++ [how], ?_, by simp, ?_, ?_⟩
    · rw [ends_append, hquiet.1, hends]
      simp
    · rw [verdict, List.find?_append, Option.or_assoc, Option.map_or, ← hresult, ← htold,
        List.length_append, List.length_singleton]
      cases s.result with
      | some first => rfl
      | none =>
        cases hfails : how.fails with
        | true => simp [hfails]
        | false => cases s.mustCancel <;> simp [hfails]
    · rw [tolds_append, hquiet.2, htolds, if_neg hcount, ← htold]
      cases s.result <;> rfl

theorem Told.cancel (h : Told count log s) :
    Told count (log ++ (step s .cancel).2) (step s .cancel).1 := by
  obtain ⟨heard, hends, hlength, hresult, htolds⟩ := h
  simp only [step]
  split
  · rw [List.append_nil]
    exact ⟨heard, hends, hlength, hresult, htolds⟩
  · rename_i hrunning
    have hnone : s.result = none := by simpa using hrunning
    rw [hnone] at hresult
    have hmore := verdict_eq_none.mp hresult.symm
    split
    · rw [List.append_nil]
      exact ⟨heard, hends, hlength, hnone.trans (verdict_eq_none.mpr hmore).symm, htolds⟩
    · rw [List.append_nil]
      exact ⟨heard, hends, hlength, hnone.trans (verdict_eq_none.mpr hmore).symm, htolds⟩

theorem Told.step (h : Told count log s) (hsound : Sound limit count log s) (event : Event ε) :
    Told count (log ++ (step s event).2) (step s event).1 := by
  cases event with
  | start => exact h.silent (silent_start s)
  | resume => exact h.silent (silent_resume s)
  | finish i how => exact h.silent (silent_finish s i how)
  | hear => exact h.hear hsound
  | cancel => exact h.cancel

theorem told_after (limit : Option Nat) (count : Nat) (events : List (Event ε)) :
    Told count ((gather limit count).emitted (gather limit count).init events)
      ((gather limit count).after (gather limit count).init events) := by
  induction events using List.reverseRecOn with
  | nil =>
    refine ⟨[], rfl, rfl, ?_, ?_⟩
    · by_cases hcount : count = 0
      · simp [gather, verdict, hcount]
      · simp [gather, verdict, hcount, Ne.symm hcount]
    · by_cases hcount : count = 0 <;> simp [gather, tolds, hcount]
  | append_singleton past event ih =>
    rw [Machine.after_concat, Machine.emitted_concat]
    exact ih.step (Sound.after limit count past) event

end told

/-- A run of gathered tasks under a semaphore, at any moment. No more tasks work than the
semaphore admits. They are called in order, each once, and all of them if no cancellation of the
caller has reached them and they have all ended, however they did. The caller is told once: of
the first failure that it hears of, or else at the end of all. And as long as a task has not ended,
one can begin, go on or end its work. -/
structure Gathers (limit : Option Nat) (count : Nat) (s : State ε) (log : List (Effect ε)) :
    Prop where
  bounded : ∀ most, limit = some most → s.stages.countP Stage.isWorking ≤ most
  inOrder : (calls log).Pairwise (· < ·) ∧ ∀ i ∈ calls log, i < count
  complete : s.cancelRequested = false → s.stages.all Stage.isEnded = true →
    calls log = List.range count
  told : 0 < count → ∃ heard, ends log = heard ++ s.reports ∧
    tolds log = (verdict count s.cancelRequested s.mustCancel heard).toList
  alive : limit ≠ some 0 → s.stages.all Stage.isEnded = false →
    ∃ x ∈ s.stages, x.isCreated = true ∨ x.isDone = true ∨ x.isWorking = true

section gathers
variable {limit : Option Nat} {count : Nat} {log : List (Effect ε)} {s : State ε} {line : Line ε}

theorem Kept.all_ended (h : Kept limit count log s line) :
    s.stages.all Stage.isEnded = true ↔
      line.pending = 0 ∧ line.created = 0 ∧ ∀ x ∈ line.front, x.isEnded = true := by
  rw [h.stages, Line.stages, List.all_append, List.all_append, List.all_replicate,
    List.all_replicate]
  by_cases hpending : line.pending = 0 <;> by_cases hcreated : line.created = 0 <;>
    simp [hpending, hcreated, Stage.isEnded]

theorem Kept.bounded (h : Kept limit count log s line) {most : Nat} (hmost : limit = some most) :
    s.stages.countP Stage.isWorking ≤ most := by
  have hfront : s.stages.countP Stage.isWorking ≤ line.front.countP Stage.holds := by
    have hcreated : Stage.isWorking (.created line.cancelled : Stage ε) = false := rfl
    have hpending : Stage.isWorking (.waiting .pending : Stage ε) = false := rfl
    rw [h.stages, Line.stages, List.countP_append, List.countP_append, List.countP_replicate,
      List.countP_replicate, hcreated, hpending]
    apply List.countP_mono_left
    intro x _ hworking
    cases x with
    | working => rfl
    | _ => cases hworking
  cases hfree : s.permits with
  | none =>
    rw [(h.unlimited hfree).1] at hmost
    cases hmost
  | some free =>
    have := h.limited free hfree
    rw [hmost, Option.some.injEq] at this
    omega

theorem Kept.complete (h : Kept limit count log s line) (hrequested : s.cancelRequested = false)
    (hended : s.stages.all Stage.isEnded = true) : calls log = List.range count := by
  obtain ⟨hpending, hcreated, hfront⟩ := h.all_ended.mp hended
  have hlength : line.front.length = count := by
    rw [← h.length, Line.stages, hpending, hcreated]
    simp
  apply h.sorted.eq_of_mem_iff List.pairwise_lt_range
  intro i
  rw [List.mem_range]
  constructor
  · intro hi
    rw [← hlength]
    exact (h.called i hi).1
  · intro hi
    rw [← hlength] at hi
    have hstage := List.getElem?_eq_getElem hi
    refine ((h.uncancelled hrequested).2 i _ hstage).resolve_left fun hwoken => ?_
    have hlast := hfront _ (List.getElem_mem hi)
    rw [hwoken] at hlast
    cases hlast

/-- Where none has to begin, to go on or to work, nobody holds a permit, so that nobody waits. -/
theorem Kept.alive (h : Kept limit count log s line) (hawake : Awake s line)
    (hlimit : limit ≠ some 0) (hrunning : s.stages.all Stage.isEnded = false) :
    ∃ x ∈ s.stages, x.isCreated = true ∨ x.isDone = true ∨ x.isWorking = true := by
  by_contra hstuck
  have hnone : ∀ x ∈ line.stages, x.isCreated = false ∧ x.isDone = false ∧ x.isWorking = false := by
    intro x hx
    rw [← h.stages] at hx
    refine ⟨?_, ?_, ?_⟩ <;> refine Bool.eq_false_iff.mpr fun hsome => hstuck ⟨x, hx, ?_⟩
    · exact .inl hsome
    · exact .inr (.inl hsome)
    · exact .inr (.inr hsome)
  have hfront : ∀ x ∈ line.front, x.isEnded = true := by
    intro x hx
    have hhere := hnone x (List.mem_append_left _ hx)
    have hpending := (h.front x hx).1
    cases x with
    | created => cases hhere.1
    | waiting future =>
      cases future with
      | pending => cases hpending
      | _ => cases hhere.2.1
    | working => cases hhere.2.2
    | ended => rfl
  have hcreated : line.created = 0 := by
    by_contra hnew
    have hmem : .created line.cancelled ∈ line.stages := by simp [Line.stages, hnew]
    cases (hnone _ hmem).1
  have hpending : 0 < line.pending := by
    by_contra hnot
    rw [Bool.eq_false_iff] at hrunning
    exact hrunning (h.all_ended.mpr ⟨by omega, hcreated, hfront⟩)
  have hholds : line.front.countP Stage.holds = 0 := by
    rw [List.countP_eq_zero]
    intro x hx hholds
    have hended := hfront x hx
    cases x with
    | ended => cases hholds
    | _ => cases hended
  cases hfree : s.permits with
  | none => have := (h.unlimited hfree).2.1; omega
  | some free =>
    rw [h.limited free hfree, hholds] at hlimit
    cases free with
    | zero => exact hlimit rfl
    | succ free =>
      obtain ⟨x, hx, hdone⟩ := hawake free hfree hpending
      rw [(hnone x (List.mem_append_left _ hx)).2.1] at hdone
      cases hdone

theorem gather_gathers (limit : Option Nat) (count : Nat) (events : List (Event ε)) :
    Gathers limit count ((gather limit count).after (gather limit count).init events)
      ((gather limit count).emitted (gather limit count).init events) := by
  obtain ⟨line, hkept, hawake⟩ := Sound.after limit count events
  obtain ⟨heard, hends, -, hresult, htolds⟩ := told_after limit count events
  refine ⟨fun _ => hkept.bounded, ⟨hkept.sorted, fun i hi => ?_⟩, hkept.complete, fun hcount => ?_,
    hkept.alive hawake⟩
  · have hlength := hkept.length
    rw [Line.stages, List.length_append] at hlength
    have := (hkept.called i hi).1
    omega
  · refine ⟨heard, hends, ?_⟩
    rw [htolds, if_neg hcount.ne', hresult]

end gathers
end DddFramework.Library.Gather
