import DddFramework.Library.Limiter

/-! Refusals that leave no trace. A quiet limiter keeps its value when it refuses, so
refused calls can be left out of a run without changing what the others are told, and
a call that waits is answered from the value it was refused with, aged to its return. -/
namespace DddFramework.Library

variable {T ι V H ρ : Type*}

/-- A run in which some events are marked to be left out. -/
abbrev Marked (T ι : Type*) := List (Event T ι × Bool)

namespace Marked

def full (marked : Marked T ι) : List (Event T ι) := marked.map Prod.fst

def kept (marked : Marked T ι) : List (Event T ι) := (marked.filter fun x => !x.2).map Prod.fst

theorem kept_concat (marked : Marked T ι) (event : Event T ι) (leftOut : Bool) :
    kept (marked ++ [(event, leftOut)]) =
      if leftOut then kept marked else kept marked ++ [event] := by
  cases leftOut <;> simp [kept]

theorem kept_sublist (marked : Marked T ι) : (kept marked).Sublist (full marked) :=
  List.filter_sublist.map Prod.fst

def OnlyDenied {σ : Type*} (machine : Machine σ (Event T ι) (Served T ι ρ)) (allowed : ρ → Bool)
    (marked : Marked T ι) : Prop :=
  ∀ past event rest, marked = past ++ (event, true) :: rest →
    ∀ x ∈ (machine.step (machine.after machine.init (full past)) event).2, allowed x.reply = false

theorem OnlyDenied.past {σ : Type*} {machine : Machine σ (Event T ι) (Served T ι ρ)}
    {allowed : ρ → Bool} {past rest : Marked T ι}
    (h : OnlyDenied machine allowed (past ++ rest)) : OnlyDenied machine allowed past := by
  intro before event behind hsplit
  exact h before event (behind ++ rest) (by simp [hsplit])

theorem onlyDenied_concat {σ : Type*} {machine : Machine σ (Event T ι) (Served T ι ρ)}
    {allowed : ρ → Bool} {marked : Marked T ι} {event : Event T ι} {leftOut : Bool}
    (h : OnlyDenied machine allowed marked)
    (hevent : leftOut = true → ∀ x ∈ (machine.step (machine.after machine.init (full marked))
      event).2, allowed x.reply = false) :
    OnlyDenied machine allowed (marked ++ [(event, leftOut)]) := by
  intro past next rest hsplit
  cases rest using List.reverseRecOn with
  | nil =>
    obtain ⟨rfl, hlast⟩ := List.append_inj' hsplit rfl
    obtain ⟨rfl, rfl⟩ := Prod.mk.inj (List.singleton_inj.mp hlast)
    exact hevent rfl
  | append_singleton front last =>
    have hshorter : marked = past ++ (next, true) :: front := by
      rw [← List.cons_append, ← List.append_assoc] at hsplit
      exact (List.append_inj' hsplit rfl).1
    exact h past next front hshorter

/-- Leave out everything that comes late. -/
def cut (past late : List (Event T ι)) : Marked T ι :=
  past.map (fun event => (event, false)) ++ late.map fun event => (event, true)

@[simp] theorem full_cut (past late : List (Event T ι)) : full (cut past late) = past ++ late := by
  simp [full, cut, Function.comp_def]

@[simp] theorem kept_cut (past late : List (Event T ι)) : kept (cut past late) = past := by
  have hall : past.filter (fun _ => true) = past := List.filter_eq_self.mpr fun _ _ => rfl
  have hnone : late.filter (fun _ => false) = [] := List.filter_eq_nil_iff.mpr fun _ _ => by simp
  simp [kept, cut, Function.comp_def, List.filter_map, hall, hnone]

theorem onlyDenied_cut {σ : Type*} {machine : Machine σ (Event T ι) (Served T ι ρ)}
    {allowed : ρ → Bool} {past late : List (Event T ι)}
    (h : ∀ x ∈ machine.emitted (machine.after machine.init past) late, allowed x.reply = false) :
    OnlyDenied machine allowed (cut past late) := by
  induction late using List.reverseRecOn with
  | nil =>
    intro before event rest hsplit
    have hmem : (event, true) ∈ cut past [] := by
      rw [hsplit]
      simp
    simp [cut] at hmem
  | append_singleton late event ih =>
    rw [Machine.emitted_concat] at h
    have hlonger : cut past (late ++ [event]) = cut past late ++ [(event, true)] := by
      simp [cut]
    rw [hlonger]
    refine onlyDenied_concat (ih fun x hx => h x (List.mem_append_left _ hx)) ?_
    intro _ x hx
    rw [full_cut, Machine.after_append] at hx
    exact h x (List.mem_append_right _ hx)

end Marked

variable [LinearOrder T]

def Script.replyAfter (script : Script T ι H ρ) (past : List (Event T ι)) (now : T) (request : ι) :
    ρ :=
  (script now request (Expiring.live now (script.machine.after script.machine.init past))).reply

theorem live_after_ticks (script : Script T ι H ρ) {now : T} {ticks : List (Event T ι)}
    (h : ∀ event ∈ ticks, event = .tick now) (cell : Option (Expiring T H)) :
    Expiring.live now (script.machine.after cell ticks) = Expiring.live now cell := by
  induction ticks generalizing cell with
  | nil => rfl
  | cons event ticks ih =>
    obtain rfl := h event List.mem_cons_self
    have hrest := ih (fun other hother => h other (List.mem_cons_of_mem _ hother))
    exact (hrest _).trans (Expiring.live_sweep (le_refl now) cell)

theorem Script.replyAfter_again {script : Script T ι H ρ}
    (hdeadline : ∀ now request stored, now ≤ (script now request stored).deadline)
    (past : List (Event T ι)) {ticks : List (Event T ι)} {now : T}
    (hticks : ∀ event ∈ ticks, event = .tick now) (first next : ι) :
    ∃ stored, script.replyAfter past now first = (script now first stored).reply ∧
      script.replyAfter (past ++ .call now first :: ticks) now next =
        (script now next (some (script now first stored).value)).reply := by
  refine ⟨_, rfl, ?_⟩
  have hlive := live_after_ticks script hticks
    (script.machine.after script.machine.init (past ++ [.call now first]))
  rw [Machine.after_concat, script.step_call, Expiring.live_fresh,
    if_neg (not_lt.mpr (hdeadline ..))] at hlive
  have hsplit : past ++ .call now first :: ticks = (past ++ [.call now first]) ++ ticks := by
    simp only [List.append_assoc, List.cons_append, List.nil_append]
  rw [Script.replyAfter, hsplit, Machine.after_append, Machine.after_concat, script.step_call,
    hlive]

namespace Limiter
variable {limiter : Limiter T V ι ρ} {allowed : ρ → Bool}

/-- The record is no younger than the reading, and what it holds is valid. -/
def Wrote (limiter : Limiter T V ι ρ) (record : Option (T × V)) (now : T) : Prop :=
  ∀ written v, record = some (written, v) → written ≤ now ∧ limiter.valid v

theorem Wrote.valid {record : Option (T × V)} {now : T} (h : limiter.Wrote record now) :
    limiter.valid (limiter.level record now) := by
  cases record with
  | none => exact limiter.valid_rest
  | some pair =>
    obtain ⟨hle, hvalid⟩ := h pair.1 pair.2 rfl
    exact limiter.valid_age hle hvalid

/-- Reading the level early does not change it. -/
theorem Wrote.age_level {record : Option (T × V)} {now later : T} (h : limiter.Wrote record now)
    (hle : now ≤ later) :
    limiter.age now later (limiter.level record now) = limiter.level record later := by
  cases record with
  | none => exact limiter.age_rest hle
  | some pair =>
    obtain ⟨hwritten, hvalid⟩ := h pair.1 pair.2 rfl
    exact limiter.age_age hwritten hle hvalid

theorem wrote_after {events : List (Event T ι)} (h : (events.map Event.now).Pairwise (· ≤ ·))
    {now : T} (hnow : ∀ event ∈ events, event.now ≤ now) :
    limiter.Wrote (limiter.machine.after limiter.machine.init events) now := by
  have hguarded := Machine.guarded_of_ordered (m := limiter.machine) h
  refine hguarded.invariant (I := fun past _ record => ∀ later,
    (∀ event ∈ past, event.now ≤ later) → limiter.Wrote record later) ?_ ?_ now hnow
  · intro later _ written v hnone
    simp [machine, serving] at hnone
  · intro past _ record event hpast hrecord later hlater
    cases event with
    | tick reading => exact hrecord later fun e he => hlater e (by simp [he])
    | call reading request =>
      intro written v hsome
      simp only [step_call, Option.some.injEq, Prod.mk.injEq] at hsome
      obtain ⟨rfl, rfl⟩ := hsome
      exact ⟨hlater (.call reading request) (by simp),
        limiter.valid_answer (hrecord reading hpast).valid⟩

def Quiet (limiter : Limiter T V ι ρ) (allowed : ρ → Bool) : Prop :=
  ∀ {now request v}, allowed (limiter.answer now request v).2 = false →
    (limiter.answer now request v).1 = v

theorem Quiet.level_kept (quiet : limiter.Quiet allowed) {marked : Marked T ι}
    (h : ((Marked.full marked).map Event.now).Pairwise (· ≤ ·))
    (hdenied : Marked.OnlyDenied limiter.machine allowed marked) (now : T)
    (hnow : ∀ event ∈ Marked.full marked, event.now ≤ now) :
    limiter.level (limiter.machine.after limiter.machine.init (Marked.kept marked)) now =
      limiter.level (limiter.machine.after limiter.machine.init (Marked.full marked)) now := by
  induction marked using List.reverseRecOn generalizing now with
  | nil => rfl
  | append_singleton past last ih =>
    obtain ⟨event, leftOut⟩ := last
    have hfull : Marked.full (past ++ [(event, leftOut)]) = Marked.full past ++ [event] := by
      simp [Marked.full]
    rw [hfull] at h hnow ⊢
    have hordered : ((Marked.full past).map Event.now).Pairwise (· ≤ ·) := by
      rw [List.map_append, List.pairwise_append] at h
      exact h.1
    have hpast : ∀ e ∈ Marked.full past, e.now ≤ event.now := fun e he => le_of_split h rfl he
    have hearlier := ih hordered hdenied.past
    rw [Marked.kept_concat, Machine.after_concat]
    cases event with
    | tick reading =>
      have hlevel := hearlier now fun e he => hnow e (by simp [he])
      cases leftOut with
      | false =>
        rw [if_neg Bool.false_ne_true, Machine.after_concat]
        exact hlevel
      | true => exact hlevel
    | call reading request =>
      cases leftOut with
      | false =>
        rw [if_neg Bool.false_ne_true, Machine.after_concat]
        simp only [step_call, hearlier reading hpast]
      | true =>
        -- the refused call writes back the level it read
        have hreply := hdenied past (.call reading request) [] rfl
        simp only [step_call, List.mem_singleton, forall_eq] at hreply
        have hle : reading ≤ now := hnow (.call reading request) (by simp)
        have hwrote : limiter.Wrote
            (limiter.machine.after limiter.machine.init (Marked.full past)) reading :=
          wrote_after hordered hpast
        simp only [if_true, step_call, level_some]
        rw [quiet hreply, hwrote.age_level hle]
        exact hearlier now fun e he => (hpast e he).trans hle

/-- A refused call that comes back is admitted exactly from the reading it was told on. -/
def RetryExact {V : Type*} (limiter : Limiter Int V ι ρ) (allowed : ρ → Bool) (retry : ρ → Int) :
    Prop :=
  ∀ {now later request v}, limiter.valid v → now ≤ later →
    allowed (limiter.answer now request v).2 = false →
    (allowed (limiter.answer later request (limiter.age now later v)).2 = true ↔
      now + retry (limiter.answer now request v).2 ≤ later)

end Limiter

namespace Script.Keeps

variable {script : Script T ι H ρ} {limiter : Limiter T V ι ρ} {read : T → Option H → V}
  {fits : T → H → Prop} {allowed : ρ → Bool}

/-- Step by step, the script tells its callers what the limiter would. -/
theorem step_eq (keeps : script.Keeps limiter read fits) {past : List (Event T ι)}
    {event : Event T ι} (h : ((past ++ [event]).map Event.now).Pairwise (· ≤ ·)) :
    (script.machine.step (script.machine.after script.machine.init past) event).2 =
      (limiter.machine.step (limiter.machine.after limiter.machine.init past) event).2 := by
  have hpast : (past.map Event.now).Pairwise (· ≤ ·) := by
    rw [List.map_append, List.pairwise_append] at h
    exact h.1
  have hboth := keeps.emitted_eq h
  rw [Machine.emitted_concat, Machine.emitted_concat, keeps.emitted_eq hpast] at hboth
  exact List.append_cancel_left hboth

theorem onlyDenied (keeps : script.Keeps limiter read fits) {marked : Marked T ι}
    (h : ((Marked.full marked).map Event.now).Pairwise (· ≤ ·))
    (hdenied : Marked.OnlyDenied script.machine allowed marked) :
    Marked.OnlyDenied limiter.machine allowed marked := by
  intro past event rest hsplit
  rw [← keeps.step_eq]
  · exact hdenied past event rest hsplit
  · refine h.sublist (List.Sublist.map _ ?_)
    rw [hsplit]
    simp [Marked.full]

theorem step_kept (keeps : script.Keeps limiter read fits) (quiet : limiter.Quiet allowed)
    {marked : Marked T ι} (h : ((Marked.full marked).map Event.now).Pairwise (· ≤ ·))
    (hdenied : Marked.OnlyDenied script.machine allowed marked) {past rest : Marked T ι}
    {event : Event T ι} (hsplit : marked = past ++ (event, false) :: rest) :
    (script.machine.step (script.machine.after script.machine.init (Marked.kept past)) event).2 =
      (script.machine.step
        (script.machine.after script.machine.init (Marked.full past)) event).2 := by
  have hordered : ((Marked.full past ++ [event]).map Event.now).Pairwise (· ≤ ·) := by
    refine h.sublist (List.Sublist.map _ ?_)
    rw [hsplit]
    simp [Marked.full]
  have hsublist : (Marked.kept past ++ [event]).Sublist (Marked.full past ++ [event]) :=
    (Marked.kept_sublist past).append_right _
  rw [keeps.step_eq hordered, keeps.step_eq (hordered.sublist (hsublist.map _))]
  cases event with
  | tick reading => rfl
  | call reading request =>
    have hpast : ((Marked.full past).map Event.now).Pairwise (· ≤ ·) := by
      rw [List.map_append, List.pairwise_append] at hordered
      exact hordered.1
    have hlimiter : Marked.OnlyDenied limiter.machine allowed past := by
      apply keeps.onlyDenied hpast
      rw [hsplit] at hdenied
      exact hdenied.past
    simp only [Limiter.step_call]
    rw [quiet.level_kept hpast hlimiter reading fun e he => le_of_split hordered rfl he]

theorem replyAfter_eq (keeps : script.Keeps limiter read fits) {past : List (Event T ι)} {now : T}
    {request : ι} (h : ((past ++ [Event.call now request]).map Event.now).Pairwise (· ≤ ·)) :
    script.replyAfter past now request = (limiter.answer now request
      (limiter.level (limiter.machine.after limiter.machine.init past) now)).2 := by
  have hstep := keeps.step_eq h
  simp only [Script.step_call, Limiter.step_call, List.cons.injEq, Served.mk.injEq, and_true,
    true_and] at hstep
  exact hstep

theorem retry_exact {script : Script Int ι H ρ} {limiter : Limiter Int V ι ρ}
    {read : Int → Option H → V} {fits : Int → H → Prop} {retry : ρ → Int}
    (keeps : script.Keeps limiter read fits) (quiet : limiter.Quiet allowed)
    (hexact : limiter.RetryExact allowed retry) {past between : List (Event Int ι)}
    {now later : Int} {request : ι}
    (h : ((past ++ Event.call now request :: between ++
      [Event.call later request]).map Event.now).Pairwise (· ≤ ·))
    (hdenied : allowed (script.replyAfter past now request) = false)
    (hbetween : ∀ x ∈ script.machine.emitted
      (script.machine.after script.machine.init (past ++ [.call now request])) between,
      allowed x.reply = false) :
    allowed (script.replyAfter (past ++ .call now request :: between) later request) = true ↔
      now + retry (script.replyAfter past now request) ≤ later := by
  have hmarked : Marked.OnlyDenied script.machine allowed
      (Marked.cut past (.call now request :: between)) := by
    apply Marked.onlyDenied_cut
    intro x hx
    rcases List.mem_append.mp hx with hx | hx
    · rw [List.mem_singleton.mp hx]
      exact hdenied
    · rw [Machine.after_concat] at hbetween
      exact hbetween x hx
  have hfirst : ((past ++ [Event.call now request]).map Event.now).Pairwise (· ≤ ·) :=
    h.sublist (List.Sublist.map _ (by simp))
  have hlast : ((past ++ [Event.call later request]).map Event.now).Pairwise (· ≤ ·) :=
    h.sublist (List.Sublist.map _ (by simp))
  have hpast : (past.map Event.now).Pairwise (· ≤ ·) :=
    h.sublist (List.Sublist.map _ (by simp))
  have hfull : ((past ++ Event.call now request :: between).map Event.now).Pairwise (· ≤ ·) :=
    h.sublist (List.Sublist.map _ (List.sublist_append_left _ _))
  have hle : now ≤ later := by
    have hmem : Event.call now request ∈ past ++ Event.call now request :: between := by simp
    exact le_of_split h rfl hmem
  have hwrote : limiter.Wrote (limiter.machine.after limiter.machine.init past) now :=
    Limiter.wrote_after hpast fun e he => le_of_split hfirst rfl he
  have hkept := quiet.level_kept (by rw [Marked.full_cut]; exact hfull)
    (keeps.onlyDenied (by rw [Marked.full_cut]; exact hfull) hmarked) later
    (by rw [Marked.full_cut]; exact fun e he => le_of_split h rfl he)
  rw [Marked.full_cut, Marked.kept_cut] at hkept
  rw [keeps.replyAfter_eq hfirst] at hdenied ⊢
  rw [keeps.replyAfter_eq h, ← hkept, ← hwrote.age_level hle]
  exact hexact hwrote.valid hle hdenied

end Script.Keeps
end DddFramework.Library
