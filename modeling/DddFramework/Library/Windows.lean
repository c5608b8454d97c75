import DddFramework.Library.Limiter
import Mathlib.Algebra.Order.Group.Int
import Mathlib.Logic.Function.Iterate
import Mathlib.Tactic.Linarith

/-! Values that are kept per window of an integral clock and shift once at the start
of each window: counters that are reset, or handed down to a counter of the window
before. Shifting is lazy, so a reading applies all the shifts since the last write. -/
namespace DddFramework.Library

variable {V : Type*}

theorem window_add_le {window now later count : Int} (hwindow : 0 < window)
    (h : now - now % window + window * count ≤ later) : now / window + count ≤ later / window := by
  rw [Int.le_ediv_iff_mul_le hwindow]
  have hstart := Int.mul_ediv_add_emod now window
  linarith

theorem next_window_le_iff {window now later : Int} (hwindow : 0 < window) (h : now ≤ later) :
    now + (window - now % window) ≤ later ↔ now / window ≠ later / window := by
  have hle := Int.ediv_le_ediv hwindow h
  have hstart := Int.mul_ediv_add_emod now window
  have hlater := Int.mul_ediv_add_emod later window
  have hrest := Int.emod_lt_of_pos later hwindow
  constructor
  · intro hpassed hsame
    rw [← hsame] at hlater
    omega
  · intro hother
    have hnext : now / window + 1 ≤ later / window := by omega
    have hmul := mul_le_mul_of_nonneg_left hnext hwindow.le
    have hnonneg := Int.emod_nonneg later hwindow.ne'
    rw [mul_add, mul_one] at hmul
    omega

/-- What a value does at the start of a window. -/
structure Shift (V : Type*) where
  rest : V
  shift : V → V
  valid : V → Prop
  valid_rest : valid rest
  valid_shift : ∀ {v}, valid v → valid (shift v)
  shift_rest : shift rest = rest

namespace Shift
variable (shifts : Shift V) {window : Int}

theorem iterate_rest (count : Nat) : shifts.shift^[count] shifts.rest = shifts.rest :=
  Function.iterate_fixed shifts.shift_rest count

theorem valid_iterate (count : Nat) {v : V} (h : shifts.valid v) :
    shifts.valid (shifts.shift^[count] v) := by
  induction count with
  | zero => exact h
  | succ count ih =>
    rw [Function.iterate_succ_apply']
    exact shifts.valid_shift ih

/-- The drift that shifts once for every window begun between two readings. -/
def drift (hwindow : 0 < window) : Drift Int V where
  rest := shifts.rest
  age before now v := shifts.shift^[(now / window - before / window).toNat] v
  valid := shifts.valid
  valid_rest := shifts.valid_rest
  valid_age _ hvalid := shifts.valid_iterate _ hvalid
  age_self _ := by rw [sub_self]; rfl
  age_age := by
    intro before between now v hbefore hbetween _
    have hfirst := Int.ediv_le_ediv hwindow hbefore
    have hsecond := Int.ediv_le_ediv hwindow hbetween
    rw [← Function.iterate_add_apply]
    congr 1
    omega
  age_rest _ := shifts.iterate_rest _

variable (hwindow : 0 < window) {before now : Int} {v : V}

theorem age_same (h : now / window = before / window) :
    (shifts.drift hwindow).age before now v = v := by
  simp [drift, h]

theorem age_next (h : now / window = before / window + 1) :
    (shifts.drift hwindow).age before now v = shifts.shift v := by
  simp [drift, h]

theorem age_rest_of_add_le {count : Nat} (hforgets : ∀ v, shifts.shift^[count] v = shifts.rest)
    (h : before / window + count ≤ now / window) :
    (shifts.drift hwindow).age before now v = shifts.rest := by
  obtain ⟨more, hmore⟩ := Int.le.dest h
  have hcount : (now / window - before / window).toNat = more + count := by omega
  simp only [drift]
  rw [hcount, Function.iterate_add_apply, hforgets, iterate_rest]

end Shift
end DddFramework.Library
