import Mathlib.Order.Lattice
import Mathlib.Logic.Function.Basic

/-! Values with a lifetime, read by a clock that never steps back. What has expired reads as
nothing from then on, so that a store may forget it whenever it likes. -/
namespace DddFramework.Library

structure Timed (T V : Type*) where
  value : V
  expires : Option T
deriving DecidableEq

namespace Timed
variable {T V W : Type*} [LinearOrder T]

def map (f : V → W) (item : Timed T V) : Timed T W := ⟨f item.value, item.expires⟩

def Live (now : T) (item : Timed T V) : Prop := ∀ expiry ∈ item.expires, now < expiry

instance (now : T) (item : Timed T V) : Decidable (item.Live now) :=
  inferInstanceAs (Decidable (∀ expiry ∈ item.expires, now < expiry))

def read (now : T) : Option (Timed T V) → Option V
  | none => none
  | some item => if item.Live now then some item.value else none

/-- Kept until the clock has passed the expiry, and not only up to it. -/
def Lasts (now : T) (item : Timed T V) : Prop := ∀ expiry ∈ item.expires, now ≤ expiry

instance (now : T) (item : Timed T V) : Decidable (item.Lasts now) :=
  inferInstanceAs (Decidable (∀ expiry ∈ item.expires, now ≤ expiry))

def readLasting (now : T) : Option (Timed T V) → Option V
  | none => none
  | some item => if item.Lasts now then some item.value else none

/-- Two cells show the same from some time on. -/
def SameFrom (now : T) (a b : Option (Timed T V)) : Prop :=
  ∀ later, now ≤ later → read later a = read later b

variable {now later : T} {a b c : Option (Timed T V)} {item : Timed T V} {v : V}

@[simp] theorem read_none : read now (none : Option (Timed T V)) = none := rfl

theorem read_of_live (h : item.Live now) : read now (some item) = some item.value := if_pos h

theorem read_of_not_live (h : ¬item.Live now) : read now (some item) = none := if_neg h

theorem not_live_iff : ¬item.Live now ↔ ∃ expiry ∈ item.expires, expiry ≤ now := by
  simp [Live]

theorem readLasting_of_lt {expiry : T} (hexpiry : expiry ∈ item.expires) (h : expiry < now) :
    readLasting now (some item) = none :=
  if_neg fun hlasts => absurd (hlasts expiry hexpiry) (not_le.mpr h)

theorem read_eq_some_iff :
    read now a = some v ↔ ∃ item, a = some item ∧ item.Live now ∧ item.value = v := by
  cases a with
  | none => simp
  | some item =>
    by_cases hlive : item.Live now
    · simp [read_of_live hlive, hlive]
    · simp [read_of_not_live hlive, hlive]

theorem Live.mono (h : item.Live later) (hle : now ≤ later) : item.Live now :=
  fun expiry hexpiry => hle.trans_lt (h expiry hexpiry)

theorem SameFrom.refl : SameFrom now a a := fun _ _ => rfl

theorem SameFrom.trans (h : SameFrom now a b) (h' : SameFrom now b c) : SameFrom now a c :=
  fun later hle => (h later hle).trans (h' later hle)

theorem SameFrom.mono (h : SameFrom now a b) (hle : now ≤ later) : SameFrom later a b :=
  fun last hlast => h last (hle.trans hlast)

theorem SameFrom.forget (h : ¬item.Live now) :
    SameFrom now (none : Option (Timed T V)) (some item) :=
  fun _ hle => (read_of_not_live fun hlive => h (hlive.mono hle)).symm

end Timed
end DddFramework.Library
