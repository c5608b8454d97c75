import DddFramework.Library.Windows
import DddFramework.Library.Tally
import Mathlib.Algebra.Order.Ring.Rat
import Mathlib.Data.Rat.Floor

/-! Policies, costs and replies of the three Redis scripts, and what a log of calls
has spent. Clock readings are integral milliseconds. A policy's bounds are those its
fields declare, and a cost that `acquire` lets through carries its own. -/
namespace DddFramework.RateLimit
open Library

/-- `window_ms` rounds a positive duration up to whole milliseconds. -/
structure WindowBasedPolicy where
  limit : Int
  limit_pos : 0 < limit
  windowMs : Int
  windowMs_pos : 0 < windowMs

structure TokenBucketPolicy where
  capacity : Int
  capacity_pos : 0 < capacity
  ratePerMs : ℚ
  ratePerMs_pos : 0 < ratePerMs

/-- The time-to-live `prepare_token_bucket` computes: a full refill and a millisecond. -/
def TokenBucketPolicy.ttlMs (policy : TokenBucketPolicy) : Int :=
  ⌈(policy.capacity : ℚ) / policy.ratePerMs⌉ + 1

/-- A cost that `acquire` sends to a script with this limit. -/
structure Cost (limit : Int) where
  value : Int
  pos : 1 ≤ value
  le : value ≤ limit
deriving DecidableEq

theorem Cost.nonneg {limit : Int} (cost : Cost limit) : 0 ≤ cost.value :=
  zero_le_one.trans cost.pos

def checkCost (limit cost : Int) : Except String (Cost limit) :=
  if hpos : cost < 1 then .error "cost must be a positive integer"
  else if hle : cost > limit then .error "cost exceeds policy capacity"
  else .ok ⟨cost, not_lt.mp hpos, not_lt.mp hle⟩

theorem checkCost_eq_ok {limit cost : Int} {checked : Cost limit} :
    checkCost limit cost = .ok checked ↔ checked.value = cost := by
  unfold checkCost
  split
  · have := checked.pos
    simp only [reduceCtorEq, false_iff]
    omega
  · split
    · have := checked.le
      simp only [reduceCtorEq, false_iff]
      omega
    · rw [Except.ok.injEq]
      cases checked
      simp [eq_comm]

def secondPolicy : WindowBasedPolicy := ⟨2, by decide, 1000, by decide⟩

def costOne : Cost 2 := ⟨1, by decide, by decide⟩

def costTwo : Cost 2 := ⟨2, by decide, by decide⟩

/-- The array a script returns, its first number read as a truth value. -/
structure Reply where
  allowed : Bool
  remaining : Int
  retryMs : Int
deriving DecidableEq

/-- What reaches Redis for one key: calls of the key's script, and expiry checks. -/
abbrev Call (limit : Int) := Event Int (Cost limit)

abbrev Entry (limit : Int) := Served Int (Cost limit) Reply

section
variable {limit : Int} (p q : Entry limit → Prop) [DecidablePred p] [DecidablePred q]

def spent (log : List (Entry limit)) : Int :=
  tally (fun x => x.request.value) (fun x => x.reply.allowed = true ∧ p x) log

@[simp] theorem spent_nil : spent p [] = 0 := rfl

theorem spent_concat (log : List (Entry limit)) (x : Entry limit) :
    spent p (log ++ [x]) =
      spent p log + if x.reply.allowed = true ∧ p x then x.request.value else 0 :=
  tally_concat ..

theorem spent_nonneg (log : List (Entry limit)) : 0 ≤ spent p log :=
  tally_nonneg fun x _ => x.request.nonneg

theorem spent_congr {log : List (Entry limit)} (h : ∀ x ∈ log, p x ↔ q x) :
    spent p log = spent q log :=
  tally_congr _ _ _ fun x hx => and_congr_right fun _ => h x hx

theorem spent_eq_zero {log : List (Entry limit)} (h : ∀ x ∈ log, ¬ p x) : spent p log = 0 :=
  tally_eq_zero _ _ fun x hx hboth => h x hx hboth.2

theorem spent_mono {log : List (Entry limit)} (h : ∀ x ∈ log, p x → q x) :
    spent p log ≤ spent q log := by
  apply tally_mono
  · exact fun x _ => x.request.nonneg
  · intro x hx hboth
    exact ⟨hboth.1, h x hx hboth.2⟩

theorem spent_le_add {r : Entry limit → Prop} [DecidablePred r] {log : List (Entry limit)}
    (h : ∀ x ∈ log, p x → q x ∨ r x) : spent p log ≤ spent q log + spent r log := by
  apply tally_le_add
  · exact fun x _ => x.request.nonneg
  · intro x hx hboth
    exact (h x hx hboth.2).imp (⟨hboth.1, ·⟩) (⟨hboth.1, ·⟩)
end

section
variable {policy : WindowBasedPolicy}

def windowSpent (policy : WindowBasedPolicy) (windowId : Int) (log : List (Entry policy.limit)) :
    Int :=
  spent (fun x => x.now / policy.windowMs = windowId) log

variable {log : List (Entry policy.limit)} {x : Entry policy.limit}

theorem windowSpent_concat (policy : WindowBasedPolicy) (windowId : Int)
    (log : List (Entry policy.limit)) (x : Entry policy.limit) :
    windowSpent policy windowId (log ++ [x]) = windowSpent policy windowId log +
      if x.reply.allowed = true ∧ x.now / policy.windowMs = windowId then x.request.value else 0 :=
  spent_concat ..

theorem windowSpent_concat_same :
    windowSpent policy (x.now / policy.windowMs) (log ++ [x]) =
      windowSpent policy (x.now / policy.windowMs) log +
        if x.reply.allowed = true then x.request.value else 0 := by
  rw [windowSpent_concat]
  simp only [and_true]

theorem windowSpent_concat_other {windowId : Int} (h : x.now / policy.windowMs ≠ windowId) :
    windowSpent policy windowId (log ++ [x]) = windowSpent policy windowId log := by
  rw [windowSpent_concat, if_neg fun hboth => h hboth.2, add_zero]

theorem windowSpent_concat_later {windowId : Int} (hlog : ∀ y ∈ log, y.now ≤ x.now)
    (h : x.now / policy.windowMs < windowId) : windowSpent policy windowId (log ++ [x]) = 0 := by
  apply spent_eq_zero
  intro y hy
  have hle : y.now ≤ x.now := by
    rcases List.mem_append.mp hy with hy | hy
    · exact hlog y hy
    · rw [List.mem_singleton.mp hy]
  have hwindow := Int.ediv_le_ediv policy.windowMs_pos hle
  omega
end

end DddFramework.RateLimit
