import DddFramework.Library.Limiter
import DddFramework.Library.Tally
import Mathlib.Algebra.Order.Field.Basic
import Mathlib.Algebra.Order.Ring.Cast
import Mathlib.Tactic.Linarith
import Mathlib.Tactic.Ring

/-! A level that refills at a constant rate up to a capacity, and what can be taken
from it: between two readings no more than was there and what has come in since. -/
namespace DddFramework.Library

variable {F : Type*} [Field F] [LinearOrder F] [IsStrictOrderedRing F]

section
variable (capacity rate : F) (hcapacity : 0 ≤ capacity) (hrate : 0 ≤ rate)

def refill : Drift Int F where
  rest := capacity
  age before now v := min capacity (v + rate * ((now - before : Int) : F))
  valid v := 0 ≤ v ∧ v ≤ capacity
  valid_rest := ⟨hcapacity, le_refl _⟩
  valid_age := by
    intro before now v hle hvalid
    have hpassed : (0 : F) ≤ ((now - before : Int) : F) := by exact_mod_cast sub_nonneg.mpr hle
    exact ⟨le_min hcapacity (add_nonneg hvalid.1 (mul_nonneg hrate hpassed)), min_le_left _ _⟩
  age_self := by
    intro now v hvalid
    simp [hvalid.2]
  age_age := by
    intro before between now v hbefore hbetween hvalid
    have hlast : (0 : F) ≤ rate * ((now - between : Int) : F) :=
      mul_nonneg hrate (by exact_mod_cast sub_nonneg.mpr hbetween)
    have hsum : rate * ((now - before : Int) : F) =
        rate * ((between - before : Int) : F) + rate * ((now - between : Int) : F) := by
      push_cast
      ring
    rw [hsum, min_add, ← min_assoc, min_eq_left (le_add_of_nonneg_right hlast), add_assoc]
  age_rest := by
    intro before now hle
    have hpassed : (0 : F) ≤ ((now - before : Int) : F) := by exact_mod_cast sub_nonneg.mpr hle
    exact min_eq_left (le_add_of_nonneg_right (mul_nonneg hrate hpassed))

theorem refill_full {before now : Int} {v : F} (hv : 0 ≤ v)
    (h : capacity ≤ rate * ((now - before : Int) : F)) :
    (refill capacity rate hcapacity hrate).age before now v = capacity :=
  min_eq_left (h.trans (le_add_of_nonneg_left hv))
end

/-! The volume taken. -/

variable {ι ρ : Type*}

/-- A limiter whose value is a level that never grows faster than the rate, and which
pays for what it lets through. -/
structure Limiter.Paid (limiter : Limiter Int F ι ρ) (capacity rate : F)
    (weight : Served Int ι ρ → F) (p : Served Int ι ρ → Prop) [DecidablePred p] : Prop where
  bounds : ∀ {v}, limiter.valid v → 0 ≤ v ∧ v ≤ capacity
  grows : ∀ {before now} v, before ≤ now →
    limiter.age before now v ≤ v + rate * ((now - before : Int) : F)
  pays : ∀ now request {v}, limiter.valid v →
    (limiter.answer now request v).1 +
      (if p ⟨now, request, (limiter.answer now request v).2⟩ then
        weight ⟨now, request, (limiter.answer now request v).2⟩ else 0) ≤ v

namespace Limiter.Paid
variable {limiter : Limiter Int F ι ρ} {capacity rate : F} {weight : Served Int ι ρ → F}
  {p : Served Int ι ρ → Prop} [DecidablePred p]

/-- What holds of the log and the level at any reading from now on. -/
structure Balance (limiter : Limiter Int F ι ρ) (capacity rate : F)
    (weight : Served Int ι ρ → F) (p : Served Int ι ρ → Prop) [DecidablePred p]
    (log : List (Served Int ι ρ)) (record : Option (Int × F)) (now : Int) : Prop where
  ordered : ∀ x ∈ log, x.now ≤ now
  valid : limiter.valid (limiter.level record now)
  since : ∀ start ≤ now, tally weight (fun x => p x ∧ start ≤ x.now) log +
    limiter.level record now ≤ capacity + rate * ((now - start : Int) : F)

theorem balance_call (paid : limiter.Paid capacity rate weight p) (hrate : 0 ≤ rate)
    {log : List (Served Int ι ρ)} {record : Option (Int × F)} {now later : Int} (request : ι)
    (h : Balance limiter capacity rate weight p log record now) (hle : now ≤ later) :
    Balance limiter capacity rate weight p
      (log ++ [⟨now, request, (limiter.answer now request (limiter.level record now)).2⟩])
      (some (now, (limiter.answer now request (limiter.level record now)).1)) later := by
  have hvalid : limiter.valid (limiter.age now later
      (limiter.answer now request (limiter.level record now)).1) :=
    limiter.valid_age hle (limiter.valid_answer h.valid)
  refine ⟨?_, hvalid, ?_⟩
  · intro x hx
    rcases List.mem_append.mp hx with hx | hx
    · exact (h.ordered x hx).trans hle
    · rw [List.mem_singleton.mp hx]
      exact hle
  · intro start hstart
    rw [limiter.level_some, tally_concat]
    by_cases hbefore : start ≤ now
    · -- the interval already runs: what is paid now leaves the level
      have hsince := h.since start hbefore
      have hpays := paid.pays now request h.valid
      have hgrows := paid.grows (limiter.answer now request (limiter.level record now)).1 hle
      have hsum : rate * ((later - start : Int) : F) =
          rate * ((now - start : Int) : F) + rate * ((later - now : Int) : F) := by
        push_cast
        ring
      simp only [hbefore, and_true] at hsince hpays ⊢
      linarith
    · -- the interval starts after the call: nothing of the log lies in it
      have hnone : tally weight (fun x => p x ∧ start ≤ x.now) log = 0 := by
        apply tally_eq_zero
        intro x hx hboth
        have hx := h.ordered x hx
        omega
      have hpassed : 0 ≤ rate * ((later - start : Int) : F) :=
        mul_nonneg hrate (by exact_mod_cast sub_nonneg.mpr hstart)
      have hfull := (paid.bounds hvalid).2
      simp only [hnone, hbefore, and_false, if_false, zero_add]
      linarith

theorem volume_le (paid : limiter.Paid capacity rate weight p) (hcapacity : 0 ≤ capacity)
    (hrate : 0 ≤ rate) {events : List (Event Int ι)}
    (h : (events.map Event.now).Pairwise (· ≤ ·)) {start stop : Int} (hle : start ≤ stop) :
    tally weight (fun x => p x ∧ start ≤ x.now ∧ x.now ≤ stop)
      (limiter.machine.emitted limiter.machine.init events) ≤
        capacity + rate * ((stop - start : Int) : F) := by
  have hpassed : 0 ≤ rate * ((stop - start : Int) : F) :=
    mul_nonneg hrate (by exact_mod_cast sub_nonneg.mpr hle)
  have hguarded := Machine.guarded_of_ordered (m := limiter.machine) h
  refine (hguarded.invariant (I := fun past log record =>
    tally weight (fun x => p x ∧ start ≤ x.now ∧ x.now ≤ stop) log ≤
        capacity + rate * ((stop - start : Int) : F) ∧
      ∀ now, (∀ event ∈ past, event.now ≤ now) →
        Balance limiter capacity rate weight p log record now) ?_ ?_).1
  · refine ⟨by rw [tally_nil]; exact add_nonneg hcapacity hpassed, fun now _ => ?_⟩
    refine ⟨by simp, limiter.valid_rest, fun start hstart => ?_⟩
    have hsince : 0 ≤ rate * ((now - start : Int) : F) :=
      mul_nonneg hrate (by exact_mod_cast sub_nonneg.mpr hstart)
    have hfull := (paid.bounds limiter.valid_rest).2
    rw [tally_nil, zero_add]
    exact hfull.trans (le_add_of_nonneg_right hsince)
  · intro past log record event hpast hlog
    cases event with
    | tick reading =>
      simp only [machine, serving, List.append_nil]
      exact ⟨hlog.1, fun now hnow => hlog.2 now fun e he => hnow e (by simp [he])⟩
    | call now request =>
      have hnow := hlog.2 now hpast
      rw [limiter.step_call]
      refine ⟨?_, fun later hlater =>
        paid.balance_call hrate request hnow (hlater (.call now request) (by simp))⟩
      by_cases hinside : start ≤ now ∧ now ≤ stop
      · have hafter := paid.balance_call hrate request hnow (le_refl now)
        have hsince := hafter.since start hinside.1
        have hnonneg := (paid.bounds hafter.valid).1
        have hall : tally weight (fun x => p x ∧ start ≤ x.now ∧ x.now ≤ stop)
            (log ++ [⟨now, request, (limiter.answer now request (limiter.level record now)).2⟩]) =
            tally weight (fun x => p x ∧ start ≤ x.now)
              (log ++ [⟨now, request, (limiter.answer now request
                (limiter.level record now)).2⟩]) := by
          apply tally_congr
          intro x hx
          have hlast := (hafter.ordered x hx).trans hinside.2
          simp [hlast]
        have hinterval : rate * ((now - start : Int) : F) ≤ rate * ((stop - start : Int) : F) := by
          apply mul_le_mul_of_nonneg_left _ hrate
          exact_mod_cast sub_le_sub_right hinside.2 start
        rw [hall]
        linarith
      · rw [tally_concat, if_neg (fun hboth => hinside hboth.2), add_zero]
        exact hlog.1

end Limiter.Paid
end DddFramework.Library
