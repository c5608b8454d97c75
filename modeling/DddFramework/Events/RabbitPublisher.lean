import DddFramework.Library.Gather
import DddFramework.Events.RoutingKeys

/-! The publisher for RabbitMQ, which publishes one event after another or all of them
concurrently, under a limit or without one. The calls of the broker end in any order, with
whatever exceptions, and whoever waits for the publisher may be cancelled. -/
namespace DddFramework.Events.Rabbit
open Library
open Gather (End Effect Stage calls ends tolds verdict)
open Filters (Python)

/-- `run_in_sequence`: how many workers have returned, whether one works, and how it has ended. -/
structure Sequence (ε : Type) where
  returned : Nat
  working : Bool
  result : Option (End ε)

section run
variable {ε : Type}

namespace Sequence

/-- The worker it awaits has ended. A cancellation of the caller reaches that worker. -/
def finish (count : Nat) (s : Sequence ε) (how : End ε) : Sequence ε × List (Effect ε) :=
  if how.fails then
    (⟨s.returned, false, some how⟩, [.settled s.returned how, .told how])
  else if s.returned + 1 = count then
    (⟨s.returned + 1, false, some .returned⟩, [.settled s.returned how, .told .returned])
  else (⟨s.returned + 1, true, none⟩, [.settled s.returned how, .called (s.returned + 1)])

def step (count : Nat) (s : Sequence ε) : Gather.Event ε → Sequence ε × List (Effect ε)
  | .start =>
    if s.result.isNone && !s.working then ({ s with working := true }, [.called s.returned])
    else (s, [])
  | .finish task how => if s.working && task = s.returned then s.finish count how else (s, [])
  | _ => (s, [])

end Sequence

def runInSequence (count : Nat) : Machine (Sequence ε) (Gather.Event ε) (Effect ε) where
  init := ⟨0, false, if count = 0 then some .returned else none⟩
  step := Sequence.step count

/-- The semaphore of `run_in_parallel`, which has none where the limit is falsy. -/
def semaphore : Option Int → Except String (Option Nat)
  | none => .ok none
  | some most =>
    if most = 0 then .ok none
    else if most < 0 then .error "Semaphore initial value must be >= 0"
    else .ok (some most.toNat)

def runInParallel (count : Nat) (maxConcurrent : Option Int) :
    Except String (Machine (Gather.State ε) (Gather.Event ε) (Effect ε)) :=
  (semaphore maxConcurrent).map fun permits => Gather.gather permits count

end run

structure RabbitConfig where
  exchange : String

structure Publication (F : Type) where
  event : Event F
  queue : String
  exchange : String

inductive Action (F ε : Type) where
  | publish (publication : Publication F)
  | ended (how : End ε)
  | left (how : End ε)

/-- The publisher returns for want of events, raises a `ValueError`, or runs its workers. -/
inductive Publisher (ε : Type) where
  | idle
  | refused (message : String)
  | sequence (state : Sequence ε)
  | parallel (state : Gather.State ε)

section publisher
variable {F ε : Type} (py : Python) (config : RabbitConfig)

def publish (event : Event F) : Publication F :=
  ⟨event, getRabbitRoutingKey py event, config.exchange⟩

def action (events : List (Event F)) : Effect ε → Option (Action F ε)
  | .called task => events[task]?.map fun event => .publish (publish py config event)
  | .settled _ how => some (.ended how)
  | .told how => some (.left how)

def Publisher.step (events : List (Event F)) (s : Publisher ε) (event : Gather.Event ε) :
    Publisher ε × List (Action F ε) :=
  match s with
  | .sequence state =>
    (.sequence (Sequence.step events.length state event).1,
      (Sequence.step events.length state event).2.filterMap (action py config events))
  | .parallel state =>
    (.parallel (Gather.step state event).1,
      (Gather.step state event).2.filterMap (action py config events))
  | s => (s, [])

def rabbitPublisher (useConcurrent : Bool) (maxConcurrent : Option Int) (events : List (Event F)) :
    Machine (Publisher ε) (Gather.Event ε) (Action F ε) where
  init :=
    if events.isEmpty then .idle
    else if useConcurrent then
      match runInParallel events.length maxConcurrent with
      | .ok machine => .parallel machine.init
      | .error message => .refused message
    else .sequence (runInSequence events.length).init
  step := Publisher.step py config events

end publisher

section logs
variable {F ε : Type}

def published (log : List (Action F ε)) : List (Publication F) :=
  log.filterMap fun
    | .publish publication => some publication
    | _ => none

def endings (log : List (Action F ε)) : List (End ε) :=
  log.filterMap fun
    | .ended how => some how
    | _ => none

def lefts (log : List (Action F ε)) : List (End ε) :=
  log.filterMap fun
    | .left how => some how
    | _ => none

namespace Publisher

def inFlight : Publisher ε → Nat
  | .sequence state => if state.working then 1 else 0
  | .parallel state => state.stages.countP Stage.isWorking
  | _ => 0

def cancelled : Publisher ε → Bool
  | .parallel state => state.cancelRequested
  | _ => false

def cancelledLate : Publisher ε → Bool
  | .parallel state => state.mustCancel
  | _ => false

def finished : Publisher ε → Bool
  | .idle => true
  | .refused _ => false
  | .sequence state => state.result.isSome
  | .parallel state => state.stages.all Stage.isEnded

end Publisher
end logs

section effects
variable {F ε : Type} {py : Python} {config : RabbitConfig} {events : List (Event F)}

theorem published_action (effects : List (Effect ε)) :
    published (effects.filterMap (action py config events)) =
      (calls effects).filterMap fun task => events[task]?.map (publish py config) := by
  rw [published, calls, List.filterMap_filterMap, List.filterMap_filterMap]
  congr 1
  funext effect
  cases effect with
  | called task => cases hevent : events[task]? <;> simp [action, hevent]
  | _ => rfl

theorem endings_action (effects : List (Effect ε)) :
    endings (effects.filterMap (action py config events)) = ends effects := by
  rw [endings, ends, List.filterMap_filterMap]
  congr 1
  funext effect
  cases effect with
  | called task => cases hevent : events[task]? <;> simp [action, hevent]
  | _ => rfl

theorem lefts_action (effects : List (Effect ε)) :
    lefts (effects.filterMap (action py config events)) = tolds effects := by
  rw [lefts, tolds, List.filterMap_filterMap]
  congr 1
  funext effect
  cases effect with
  | called task => cases hevent : events[task]? <;> simp [action, hevent]
  | _ => rfl

theorem filterMap_range (f : Event F → Publication F) (n : Nat) :
    (List.range n).filterMap (fun task => events[task]?.map f) = (events.take n).map f := by
  induction n with
  | zero => rfl
  | succ n ih =>
    rw [List.range_succ, List.filterMap_append, ih, List.take_add_one, List.map_append]
    cases hevent : events[n]? <;> simp [hevent]

theorem filterMap_sublist (f : Event F → Publication F) {places : List Nat}
    (hsorted : places.Pairwise (· < ·)) (hplaces : ∀ i ∈ places, i < events.length) :
    (places.filterMap fun task => events[task]?.map f).Sublist (events.map f) := by
  have hsub : places.Sublist (List.range events.length) := by
    have hsubset : places ⊆ List.range events.length := fun i hi =>
      List.mem_range.mpr (hplaces i hi)
    have hnodup : places.Nodup := hsorted.imp Nat.ne_of_lt
    exact List.sublist_of_subperm_of_pairwise (List.subperm_of_subset hnodup hsubset) hsorted
      List.pairwise_lt_range
  have hall := @filterMap_range F events f events.length
  rw [List.take_length] at hall
  rw [← hall]
  exact hsub.filterMap _

end effects

/-! One event after another. -/

/-- How far a sequence has come: its state, the workers called, their ends, and its own. -/
inductive Sequenced {ε : Type} (count : Nat) :
    Sequence ε → List Nat → List (End ε) → List (End ε) → Prop
  | ready (h : 0 < count) : Sequenced count ⟨0, false, none⟩ [] [] []
  | working (n : Nat) (h : n < count) :
    Sequenced count ⟨n, true, none⟩ (List.range (n + 1)) (List.replicate n .returned) []
  | returned : Sequenced count ⟨count, false, some .returned⟩ (List.range count)
      (List.replicate count .returned) [.returned]
  | failed (n : Nat) (how : End ε) (h : n < count) (hfails : how.fails = true) :
    Sequenced count ⟨n, false, some how⟩ (List.range (n + 1))
      (List.replicate n .returned ++ [how]) [how]

namespace Sequenced
variable {ε : Type} {count : Nat} {s : Sequence ε} {called : List Nat} {ended told : List (End ε)}

theorem still (h : Sequenced count s called ended told) {step : Sequence ε × List (Effect ε)}
    (hstep : step = (s, [])) :
    Sequenced count step.1 (called ++ calls step.2) (ended ++ ends step.2)
      (told ++ tolds step.2) := by
  have hcalls : calls ([] : List (Effect ε)) = [] := rfl
  have hends : ends ([] : List (Effect ε)) = [] := rfl
  have htolds : tolds ([] : List (Effect ε)) = [] := rfl
  rw [hstep, hcalls, hends, htolds, List.append_nil, List.append_nil, List.append_nil]
  exact h

theorem finish (n : Nat) (hn : n < count) (how : End ε) :
    Sequenced count (Sequence.finish count ⟨n, true, none⟩ how).1
      (List.range (n + 1) ++ calls (Sequence.finish count ⟨n, true, none⟩ how).2)
      (List.replicate n .returned ++ ends (Sequence.finish count ⟨n, true, none⟩ how).2)
      (tolds (Sequence.finish count ⟨n, true, none⟩ how).2) := by
  cases hfails : how.fails with
  | true =>
    simp only [Sequence.finish, hfails, if_true]
    have hcalls : calls [.settled n how, .told how] = [] := rfl
    rw [hcalls, List.append_nil]
    exact .failed n how hn hfails
  | false =>
    have hhow : how = .returned := by
      cases how with
      | returned => rfl
      | _ => cases hfails
    by_cases hlast : n + 1 = count
    · simp only [Sequence.finish, hfails, Bool.false_eq_true, if_false, hlast, if_true]
      have hcalls : calls [.settled n how, .told .returned] = [] := rfl
      have hends : ends [.settled n how, .told .returned] = [how] := rfl
      rw [hcalls, hends, hhow, List.append_nil, ← List.replicate_succ', hlast]
      exact .returned
    · simp only [Sequence.finish, hfails, Bool.false_eq_true, if_false, hlast]
      have hcalls : calls [.settled n how, .called (n + 1)] = [n + 1] := rfl
      have hends : ends [.settled n how, .called (n + 1)] = [how] := rfl
      rw [hcalls, hends, hhow, ← List.replicate_succ', ← List.range_succ]
      exact .working (n + 1) (by omega)

theorem step (h : Sequenced count s called ended told) (event : Gather.Event ε) :
    Sequenced count (Sequence.step count s event).1
      (called ++ calls (Sequence.step count s event).2)
      (ended ++ ends (Sequence.step count s event).2)
      (told ++ tolds (Sequence.step count s event).2) := by
  cases event with
  | start =>
    cases h with
    | ready hcount => exact .working 0 hcount
    | working n hn => exact (Sequenced.working n hn).still rfl
    | returned => exact Sequenced.returned.still rfl
    | failed n how hn hfails => exact (Sequenced.failed n how hn hfails).still rfl
  | finish task how =>
    cases h with
    | ready hcount => exact (Sequenced.ready hcount).still rfl
    | returned => exact Sequenced.returned.still rfl
    | failed n first hn hfails => exact (Sequenced.failed n first hn hfails).still rfl
    | working n hn =>
      by_cases htask : task = n
      · have hstep : Sequence.step count ⟨n, true, none⟩ (.finish task how) =
            Sequence.finish count ⟨n, true, none⟩ how := by simp [Sequence.step, htask]
        rw [hstep]
        exact finish n hn how
      · exact (Sequenced.working n hn).still (by simp [Sequence.step, htask])
  | _ => exact h.still rfl

theorem after (hcount : 0 < count) (inputs : List (Gather.Event ε)) :
    Sequenced count ((runInSequence count).after (runInSequence count).init inputs)
      (calls ((runInSequence count).emitted (runInSequence count).init inputs))
      (ends ((runInSequence count).emitted (runInSequence count).init inputs))
      (tolds ((runInSequence count).emitted (runInSequence count).init inputs)) := by
  induction inputs using List.reverseRecOn with
  | nil =>
    have hinit : (runInSequence count : Machine (Sequence ε) _ _).init = ⟨0, false, none⟩ := by
      simp [runInSequence, hcount.ne']
    rw [Machine.after_nil, Machine.emitted_nil, hinit]
    exact .ready hcount
  | append_singleton past event ih =>
    rw [Machine.after_concat, Machine.emitted_concat, Gather.calls_append, Gather.ends_append,
      Gather.tolds_append]
    exact ih.step event

/-- A beginning of the workers is called, one at a time, each after the one before has returned. -/
theorem called_eq (h : Sequenced count s called ended told) :
    ∃ n ≤ count, called = List.range n ∧ ∀ i, i + 1 < n → ended[i]? = some .returned := by
  cases h with
  | ready => exact ⟨0, Nat.zero_le _, rfl, fun i hi => absurd hi (Nat.not_lt_zero _)⟩
  | working n hn =>
    refine ⟨n + 1, hn, rfl, fun i hi => ?_⟩
    rw [List.getElem?_replicate_of_lt (by omega)]
  | returned =>
    refine ⟨count, Nat.le_refl _, rfl, fun i hi => ?_⟩
    rw [List.getElem?_replicate_of_lt (by omega)]
  | failed n how hn hfails =>
    refine ⟨n + 1, hn, rfl, fun i hi => ?_⟩
    rw [List.getElem?_append_left (by rw [List.length_replicate]; omega),
      List.getElem?_replicate_of_lt (by omega)]

theorem told_eq (h : Sequenced count s called ended told) (hcount : 0 < count) :
    told = (verdict count false false ended).toList := by
  have hnone : ∀ n, (List.replicate n (.returned : End ε)).find? End.fails = none := by
    intro n
    rw [List.find?_eq_none]
    intro how hhow
    rw [List.eq_of_mem_replicate hhow]
    exact Bool.false_ne_true
  cases h with
  | ready => simp [verdict, hcount.ne]
  | working n hn => simp [verdict, hnone, hn.ne]
  | returned => simp [verdict, hnone]
  | failed n how hn hfails => simp [verdict, List.find?_append, hnone, hfails]

end Sequenced

/-! The publisher. -/

/-- What the publisher does with its events, at any moment of a run. The broker is asked to
publish each event once at most, in their order, under its routing key. In sequence an event
goes out when the one before has been published, and none after a failure. Concurrently no more
calls are under way than the limit says, all events go out though some fail, and the workers are
never stuck. The publisher ends with the first failure that it hears of, or else at the end. -/
structure Publishes {F ε : Type} (py : Python) (config : RabbitConfig) (useConcurrent : Bool)
    (maxConcurrent : Option Int) (events : List (Event F)) (s : Publisher ε)
    (log : List (Action F ε)) : Prop where
  inOrder : (published log).Sublist (events.map (publish py config))
  sequential : useConcurrent = false → s.inFlight ≤ 1 ∧
    published log <+: events.map (publish py config) ∧
    ∀ i, i + 1 < (published log).length → (endings log)[i]? = some .returned
  bounded : useConcurrent = true → ∀ most, maxConcurrent = some most → most ≠ 0 →
    s.inFlight ≤ most.toNat
  complete : useConcurrent = true → s.cancelled = false → s.finished = true →
    published log = events.map (publish py config)
  alive : ∀ state, s = .parallel state → state.stages.all Stage.isEnded = false →
    ∃ x ∈ state.stages, x.isCreated = true ∨ x.isDone = true ∨ x.isWorking = true
  refused : (∃ message, s = .refused message) ↔
    events ≠ [] ∧ useConcurrent = true ∧ ∃ most < 0, maxConcurrent = some most
  nothing : ∀ message, s = .refused message → log = []
  left : events ≠ [] → ∃ heard, heard <+: endings log ∧
    (useConcurrent = false → heard = endings log) ∧
    lefts log = (verdict events.length s.cancelled s.cancelledLate heard).toList

section publishes
variable {F ε : Type} {py : Python} {config : RabbitConfig} {useConcurrent : Bool}
  {maxConcurrent : Option Int} {events : List (Event F)}

theorem semaphore_ok {permits : Option Nat} (h : semaphore maxConcurrent = .ok permits) :
    permits ≠ some 0 ∧ (∀ most < 0, maxConcurrent ≠ some most) ∧
      ∀ most, maxConcurrent = some most → most ≠ 0 → permits = some most.toNat := by
  cases maxConcurrent with
  | none =>
    cases h
    exact ⟨nofun, fun _ _ => nofun, fun _ => nofun⟩
  | some limit =>
    simp only [semaphore] at h
    split at h
    · rename_i hzero
      cases h
      refine ⟨nofun, ?_, ?_⟩
      · rintro most hmost ⟨⟩
        omega
      · rintro most ⟨⟩ hmost
        exact absurd hzero hmost
    · split at h
      · cases h
      · rename_i hzero hnegative
        cases h
        refine ⟨?_, ?_, ?_⟩
        · rw [ne_eq, Option.some.injEq]
          omega
        · rintro most hmost ⟨⟩
          exact hnegative hmost
        · rintro most ⟨⟩ -
          rfl

theorem semaphore_error {message : String} (h : semaphore maxConcurrent = .error message) :
    ∃ most < 0, maxConcurrent = some most := by
  cases maxConcurrent with
  | none => cases h
  | some limit =>
    simp only [semaphore] at h
    split at h
    · cases h
    · split at h
      · exact ⟨limit, ‹_›, rfl⟩
      · cases h

theorem sequence_publishes {s : Sequence ε} {effects : List (Effect ε)} (hevents : events ≠ [])
    (h : Sequenced events.length s (calls effects) (ends effects) (tolds effects)) :
    Publishes py config false maxConcurrent events (.sequence s)
      (effects.filterMap (action py config events)) := by
  have hcount : 0 < events.length := List.length_pos_of_ne_nil hevents
  obtain ⟨n, hn, hcalled, hbefore⟩ := h.called_eq
  have htaken : published (effects.filterMap (action py config events)) =
      (events.take n).map (publish py config) := by
    rw [published_action, hcalled, filterMap_range]
  refine
    { inOrder := ?_
      sequential := fun _ => ⟨?_, ?_, fun i hi => ?_⟩
      bounded := nofun
      complete := nofun
      alive := fun _ => nofun
      refused := ⟨?_, ?_⟩
      nothing := fun _ => nofun
      left := fun _ => ⟨_, List.prefix_refl _, fun _ => rfl, ?_⟩ }
  · rw [htaken]
    exact (List.take_sublist n events).map _
  · simp only [Publisher.inFlight]
    split <;> omega
  · rw [htaken]
    exact (List.take_prefix n events).map _
  · rw [htaken, List.length_map, List.length_take] at hi
    rw [endings_action]
    exact hbefore i (by omega)
  · rintro ⟨message, ⟨⟩⟩
  · rintro ⟨-, ⟨⟩, -⟩
  · rw [lefts_action, endings_action]
    exact h.told_eq hcount

theorem parallel_publishes {permits : Option Nat} {s : Gather.State ε}
    {effects : List (Effect ε)} (hevents : events ≠ [])
    (hpermits : semaphore maxConcurrent = .ok permits)
    (h : Gather.Gathers permits events.length s effects) :
    Publishes py config true maxConcurrent events (.parallel s)
      (effects.filterMap (action py config events)) := by
  obtain ⟨hzero, hnegative, hmost⟩ := semaphore_ok hpermits
  refine
    { inOrder := ?_
      sequential := nofun
      bounded := fun _ most hlimit hne => h.bounded _ (hmost most hlimit hne)
      complete := fun _ hcancelled hfinished => ?_
      alive := ?_
      refused := ⟨?_, ?_⟩
      nothing := fun _ => nofun
      left := fun _ => ?_ }
  · rw [published_action]
    exact filterMap_sublist _ h.inOrder.1 h.inOrder.2
  · rw [published_action, h.complete hcancelled hfinished, filterMap_range, List.take_length]
  · rintro state ⟨⟩
    exact h.alive hzero
  · rintro ⟨message, ⟨⟩⟩
  · rintro ⟨-, -, most, hbelow, hlimit⟩
    exact absurd hlimit (hnegative most hbelow)
  · obtain ⟨heard, hends, htold⟩ := h.told (List.length_pos_of_ne_nil hevents)
    refine ⟨heard, ?_, nofun, ?_⟩
    · rw [endings_action, hends]
      exact List.prefix_append _ _
    · rw [lefts_action]
      exact htold

theorem after_idle (inputs : List (Gather.Event ε)) :
    (rabbitPublisher py config useConcurrent maxConcurrent events).after .idle inputs = .idle ∧
      (rabbitPublisher py config useConcurrent maxConcurrent events).emitted .idle inputs = [] := by
  induction inputs with
  | nil => exact ⟨rfl, rfl⟩
  | cons input inputs ih => exact ih

theorem after_refused (message : String) (inputs : List (Gather.Event ε)) :
    (rabbitPublisher py config useConcurrent maxConcurrent events).after (.refused message) inputs =
        .refused message ∧
      (rabbitPublisher py config useConcurrent maxConcurrent events).emitted (.refused message)
        inputs = [] := by
  induction inputs with
  | nil => exact ⟨rfl, rfl⟩
  | cons input inputs ih => exact ih

theorem idle_publishes :
    Publishes py config useConcurrent maxConcurrent ([] : List (Event F)) (.idle : Publisher ε)
      [] where
  inOrder := .slnil
  sequential := fun _ => ⟨Nat.zero_le _, List.prefix_refl _, nofun⟩
  bounded := fun _ _ _ _ => Nat.zero_le _
  complete := fun _ _ _ => rfl
  alive := fun _ => nofun
  refused := by
    constructor
    · rintro ⟨message, ⟨⟩⟩
    · rintro ⟨hne, -⟩
      exact absurd rfl hne
  nothing := fun _ => nofun
  left := fun hne => absurd rfl hne

theorem refused_publishes {message : String} (hevents : events ≠ [])
    (hlimit : ∃ most < 0, maxConcurrent = some most) :
    Publishes py config true maxConcurrent events (.refused message : Publisher ε) [] where
  inOrder := List.nil_sublist _
  sequential := nofun
  bounded := fun _ _ _ _ => Nat.zero_le _
  complete := fun _ _ => nofun
  alive := fun _ => nofun
  refused := ⟨fun _ => ⟨hevents, rfl, hlimit⟩, fun _ => ⟨message, rfl⟩⟩
  nothing := fun _ _ => rfl
  left := by
    intro _
    refine ⟨[], List.nil_prefix, nofun, ?_⟩
    have hlength : 0 ≠ events.length := (List.length_pos_of_ne_nil hevents).ne
    simp [verdict, hlength, lefts]

theorem publisher_publishes (py : Python) (config : RabbitConfig) (useConcurrent : Bool)
    (maxConcurrent : Option Int) (events : List (Event F)) (inputs : List (Gather.Event ε)) :
    Publishes py config useConcurrent maxConcurrent events
      ((rabbitPublisher py config useConcurrent maxConcurrent events).after
        (rabbitPublisher py config useConcurrent maxConcurrent events).init inputs)
      ((rabbitPublisher py config useConcurrent maxConcurrent events).emitted
        (rabbitPublisher py config useConcurrent maxConcurrent events).init inputs) := by
  by_cases hevents : events = []
  · subst hevents
    obtain ⟨hafter, hemitted⟩ := @after_idle F ε py config useConcurrent maxConcurrent [] inputs
    have hinit :
        (rabbitPublisher py config useConcurrent maxConcurrent ([] : List (Event F))).init =
          (.idle : Publisher ε) := rfl
    rw [hinit, hafter, hemitted]
    exact idle_publishes
  · have hsome : events.isEmpty = false := List.isEmpty_eq_false_iff.mpr hevents
    cases useConcurrent with
    | false =>
      have hinit : (rabbitPublisher py config false maxConcurrent events).init =
          (.sequence (runInSequence events.length).init : Publisher ε) := by
        simp [rabbitPublisher, hsome]
      obtain ⟨hafter, hemitted⟩ := @Machine.run_embed _ _ _ _ _ (runInSequence events.length)
        (rabbitPublisher py config false maxConcurrent events) Publisher.sequence
        (action py config events) (fun _ _ => rfl) (runInSequence events.length).init inputs
      rw [hinit, hafter, hemitted]
      exact sequence_publishes hevents (Sequenced.after (List.length_pos_of_ne_nil hevents) inputs)
    | true =>
      cases hpermits : semaphore maxConcurrent with
      | error message =>
        have hinit : (rabbitPublisher py config true maxConcurrent events).init =
            (.refused message : Publisher ε) := by
          simp [rabbitPublisher, hsome, runInParallel, hpermits, Except.map]
        obtain ⟨hafter, hemitted⟩ :=
          @after_refused F ε py config true maxConcurrent events message inputs
        rw [hinit, hafter, hemitted]
        exact refused_publishes hevents (semaphore_error hpermits)
      | ok permits =>
        have hinit : (rabbitPublisher py config true maxConcurrent events).init =
            (.parallel (Gather.gather permits events.length).init : Publisher ε) := by
          simp [rabbitPublisher, hsome, runInParallel, hpermits, Except.map]
        obtain ⟨hafter, hemitted⟩ := @Machine.run_embed _ _ _ _ _
          (Gather.gather permits events.length)
          (rabbitPublisher py config true maxConcurrent events) Publisher.parallel
          (action py config events) (fun _ _ => rfl) (Gather.gather permits events.length).init
          inputs
        rw [hinit, hafter, hemitted]
        exact parallel_publishes hevents hpermits (Gather.gather_gathers permits _ inputs)

end publishes
end DddFramework.Events.Rabbit
