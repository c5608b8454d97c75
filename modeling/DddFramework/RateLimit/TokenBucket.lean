import DddFramework.Library.Refill
import DddFramework.RateLimit.Policy

/-! `token_bucket.lua` in exact arithmetic. The refill is put off to the next call and
the hash expires once it would be full; neither can be told from a bucket that
refills all the time and is never forgotten. -/
namespace DddFramework.RateLimit
open Library

structure BucketHash where
  tokens : ℚ
  updatedAt : Int
deriving DecidableEq

theorem TokenBucketPolicy.capacity_nonneg (policy : TokenBucketPolicy) :
    (0 : ℚ) ≤ policy.capacity := by
  exact_mod_cast policy.capacity_pos.le

section
variable (policy : TokenBucketPolicy)

/-- Refill tokens since the last request; a missing hash reads as a full bucket. -/
def refillTokens (now : Int) (stored : Option BucketHash) : BucketHash :=
  let tokens := match stored with
    | none => (policy.capacity : ℚ)
    | some state => state.tokens
  let updatedAt := match stored with
    | none => now
    | some state => state.updatedAt
  let elapsed := max 0 (now - updatedAt)
  ⟨min policy.capacity (tokens + elapsed * policy.ratePerMs), max now updatedAt⟩

def takeTokens (cost : Cost policy.capacity) (tokens : ℚ) : ℚ × Reply :=
  if cost.value ≤ tokens then (tokens - cost.value, ⟨true, ⌊tokens - cost.value⌋, 0⟩)
  else (tokens, ⟨false, ⌊tokens⌋, max 1 ⌈(cost.value - tokens) / policy.ratePerMs⌉⟩)

def tokenBucket : Script Int (Cost policy.capacity) BucketHash Reply := fun now cost stored =>
  let state := refillTokens policy now stored
  let taken := takeTokens policy cost state.tokens
  ⟨⟨taken.1, state.updatedAt⟩, now + policy.ttlMs, taken.2⟩

theorem takeTokens_allowed {cost : Cost policy.capacity} {tokens : ℚ} :
    (takeTokens policy cost tokens).2.allowed = true ↔ cost.value ≤ tokens := by
  unfold takeTokens
  by_cases hfits : (cost.value : ℚ) ≤ tokens <;> simp [hfits]

theorem takeTokens_tokens {cost : Cost policy.capacity} {tokens : ℚ} :
    (takeTokens policy cost tokens).1 =
      tokens -
        if (takeTokens policy cost tokens).2.allowed = true then (cost.value : ℚ) else 0 := by
  unfold takeTokens
  by_cases hfits : (cost.value : ℚ) ≤ tokens <;> simp [hfits]

/-- The reference bucket: it starts full, refills all the time and never expires. -/
def everlastingBucket : Limiter Int ℚ (Cost policy.capacity) Reply where
  toDrift := refill (policy.capacity : ℚ) policy.ratePerMs policy.capacity_nonneg
    policy.ratePerMs_pos.le
  answer _ cost tokens := takeTokens policy cost tokens
  valid_answer := by
    intro now cost tokens hvalid
    have hpos : (0 : ℚ) ≤ cost.value := by exact_mod_cast cost.nonneg
    rw [takeTokens_tokens]
    split
    · rename_i hallowed
      have hfits := (takeTokens_allowed policy).mp hallowed
      exact ⟨sub_nonneg.mpr hfits, (sub_le_self tokens hpos).trans hvalid.2⟩
    · rw [sub_zero]
      exact hvalid
end

variable {policy : TokenBucketPolicy}

def readTokens (policy : TokenBucketPolicy) (now : Int) : Option BucketHash → ℚ
  | none => policy.capacity
  | some state =>
    min policy.capacity (state.tokens + policy.ratePerMs * ((now - state.updatedAt : Int) : ℚ))

theorem refillTokens_eq {now : Int} {stored : Option BucketHash}
    (h : ∀ state ∈ stored, state.updatedAt ≤ now) :
    refillTokens policy now stored = ⟨readTokens policy now stored, now⟩ := by
  cases stored with
  | none => simp [refillTokens, readTokens]
  | some state =>
    have hle := h state rfl
    simp only [refillTokens, readTokens]
    rw [max_eq_right (sub_nonneg.mpr hle), max_eq_left hle, mul_comm]

theorem tokenBucket_eq {now : Int} {cost : Cost policy.capacity} {stored : Option BucketHash}
    (h : ∀ state ∈ stored, state.updatedAt ≤ now) :
    tokenBucket policy now cost stored =
      let taken := (everlastingBucket policy).answer now cost (readTokens policy now stored)
      ⟨⟨taken.1, now⟩, now + policy.ttlMs, taken.2⟩ := by
  simp only [tokenBucket, refillTokens_eq h, everlastingBucket]

/-- Past the time-to-live an empty bucket would have been refilled. -/
theorem capacity_le_of_ttl {now later : Int} (h : now + policy.ttlMs < later) :
    (policy.capacity : ℚ) ≤ policy.ratePerMs * ((later - now : Int) : ℚ) := by
  have hceil := Int.le_ceil ((policy.capacity : ℚ) / policy.ratePerMs)
  have hpassed : ⌈(policy.capacity : ℚ) / policy.ratePerMs⌉ ≤ later - now := by
    unfold TokenBucketPolicy.ttlMs at h
    omega
  have hquotient : (policy.capacity : ℚ) / policy.ratePerMs ≤ ((later - now : Int) : ℚ) :=
    hceil.trans (by exact_mod_cast hpassed)
  rwa [div_le_iff₀ policy.ratePerMs_pos, mul_comm] at hquotient

theorem tokenBucket_keeps (policy : TokenBucketPolicy) :
    (tokenBucket policy).Keeps (everlastingBucket policy) (readTokens policy)
      (fun now state => state.updatedAt ≤ now) where
  read_none _ := rfl
  reply_eq h := by rw [tokenBucket_eq h]
  fits_write h hlater := by
    rw [tokenBucket_eq h]
    exact hlater
  read_write h hlater := by
    rw [tokenBucket_eq h]
    rfl
  rest_of_deadline := by
    intro now cost stored later h hvalid hlater hdeadline
    rw [tokenBucket_eq h] at hdeadline
    have hleft : 0 ≤
        ((everlastingBucket policy).answer now cost (readTokens policy now stored)).1 :=
      ((everlastingBucket policy).valid_answer hvalid).1
    exact refill_full _ _ policy.capacity_nonneg policy.ratePerMs_pos.le hleft
      (capacity_le_of_ttl hdeadline)

theorem everlastingBucket_paid (policy : TokenBucketPolicy) :
    (everlastingBucket policy).Paid (policy.capacity : ℚ) policy.ratePerMs
      (fun x => (x.request.value : ℚ)) (fun x => x.reply.allowed = true) where
  bounds h := h
  grows _ _ := min_le_right _ _
  pays now cost tokens _ := by
    simp only [everlastingBucket]
    rw [takeTokens_tokens]
    by_cases hallowed : (takeTokens policy cost tokens).2.allowed = true <;> simp [hallowed]

/-- The script's replies are those of the everlasting bucket, so between two instants
it admits at most the capacity and what is refilled in between. -/
theorem tokenBucket_refines {events : List (Call policy.capacity)}
    (h : (events.map Event.now).Pairwise (· ≤ ·)) :
    (tokenBucket policy).machine.emitted (tokenBucket policy).machine.init events =
      (everlastingBucket policy).machine.emitted (everlastingBucket policy).machine.init events ∧
    ∀ start stop : Int, start ≤ stop →
      ((spent (fun x => start ≤ x.now ∧ x.now ≤ stop) ((tokenBucket policy).machine.emitted
        (tokenBucket policy).machine.init events) : Int) : ℚ) ≤
        policy.capacity + policy.ratePerMs * ((stop - start : Int) : ℚ) := by
  have hsame := (tokenBucket_keeps policy).emitted_eq h
  refine ⟨hsame, ?_⟩
  intro start stop hle
  have hvolume := (everlastingBucket_paid policy).volume_le policy.capacity_nonneg
    policy.ratePerMs_pos.le h hle
  rw [hsame, spent]
  have hcast := map_tally (fun x : Entry policy.capacity => x.request.value)
    (fun x => x.reply.allowed = true ∧ start ≤ x.now ∧ x.now ≤ stop) (Int.castAddHom ℚ)
    ((everlastingBucket policy).machine.emitted (everlastingBucket policy).machine.init events)
  simp only [Int.coe_castAddHom] at hcast
  rw [hcast]
  exact hvolume

def refillPolicy : TokenBucketPolicy := ⟨2, zero_lt_two, 1 / 500, by norm_num⟩

theorem tokenBucket_refines_refillPolicy :
    (tokenBucket refillPolicy).machine.emitted (tokenBucket refillPolicy).machine.init
        [.call 0 costTwo, .call 250 costOne,
          .call 500 costOne, .tick 1800, .call 2000 costOne] =
      (everlastingBucket refillPolicy).machine.emitted
        (everlastingBucket refillPolicy).machine.init
        [.call 0 costTwo, .call 250 costOne,
          .call 500 costOne, .tick 1800, .call 2000 costOne] :=
  (@tokenBucket_refines refillPolicy
    [.call 0 costTwo, .call 250 costOne,
      .call 500 costOne, .tick 1800, .call 2000 costOne]
    (by decide)).1

end DddFramework.RateLimit
