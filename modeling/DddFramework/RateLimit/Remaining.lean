import DddFramework.Library.Denials
import DddFramework.RateLimit.FixedWindow
import DddFramework.RateLimit.SlidingWindow
import DddFramework.RateLimit.TokenBucket

/-! What `remaining` says about the next call. The state a script stores reads back at the same
reading as it was when `remaining` was computed, also where the clock has moved backward. -/
namespace DddFramework.RateLimit
open Library

section
variable {limit : Int} {H : Type}

/-- At the reading of a call, the next call of the key is admitted just when its cost is at most
what the first was told remains. The clock of the calls before them goes as it likes. -/
def RemainingExact (script : Script Int (Cost limit) H Reply) : Prop :=
  ∀ past ticks now first next, (∀ event ∈ ticks, event = Event.tick now) →
    ((script.replyAfter (past ++ .call now first :: ticks) now next).allowed = true ↔
      next.value ≤ (script.replyAfter past now first).remaining)

theorem remainingExact_of_again {script : Script Int (Cost limit) H Reply}
    (hdeadline : ∀ now request stored, now ≤ (script now request stored).deadline)
    (hagain : ∀ now first next stored,
      (script now next (some (script now first stored).value)).reply.allowed = true ↔
        next.value ≤ (script now first stored).reply.remaining) : RemainingExact script := by
  intro past ticks now first next hticks
  obtain ⟨stored, hfirst, hnext⟩ :=
    Script.replyAfter_again hdeadline past hticks first next
  rw [hfirst, hnext]
  exact hagain ..

theorem Cost.le_max_zero_iff {cost : Cost limit} {remaining : Int} :
    cost.value ≤ max 0 remaining ↔ cost.value ≤ remaining := by
  have := cost.pos
  omega

end

section windows
variable (policy : WindowBasedPolicy)

/-- A call counts in the clock's window, or at the start of a later one. -/
def Placed (now windowId elapsed : Int) : Prop :=
  windowId = now / policy.windowMs ∧ elapsed = now % policy.windowMs ∨
    now / policy.windowMs < windowId ∧ elapsed = 0

theorem advanceFixed_placed (now : Int) (stored : Option FixedHash) :
    Placed policy now (advanceFixed policy now stored).windowId
      (advanceFixed policy now stored).elapsed := by
  cases stored with
  | none => exact .inl ⟨rfl, rfl⟩
  | some hash =>
    simp only [advanceFixed]
    by_cases hahead : now / policy.windowMs < hash.windowId
    · rw [if_pos hahead]
      exact .inr ⟨hahead, rfl⟩
    · rw [if_neg hahead]
      split <;> exact .inl ⟨rfl, rfl⟩

theorem advanceFixed_again (now : Int) (stored : Option FixedHash) (count : Int) :
    advanceFixed policy now (some ⟨(advanceFixed policy now stored).windowId, count⟩) =
      ⟨(advanceFixed policy now stored).windowId, (advanceFixed policy now stored).elapsed,
        count⟩ := by
  have hplaced := advanceFixed_placed policy now stored
  generalize advanceFixed policy now stored = state at hplaced
  rcases hplaced with ⟨hwindow, helapsed⟩ | ⟨hahead, helapsed⟩
  · simp [advanceFixed, hwindow, helapsed]
  · simp [advanceFixed, hahead, helapsed]

theorem countFixed_remaining (elapsed count : Int) (cost : Cost policy.limit) :
    (countFixed policy elapsed cost count).2.remaining =
      max 0 (policy.limit - (countFixed policy elapsed cost count).1) := by
  unfold countFixed
  split <;> rfl

theorem fixedWindow_remaining : RemainingExact (fixedWindow policy) := by
  apply remainingExact_of_again
  · intro now cost stored
    have helapsed : (advanceFixed policy now stored).elapsed ≤ policy.windowMs := by
      have := Int.emod_lt_of_pos now policy.windowMs_pos
      have := policy.windowMs_pos
      rcases advanceFixed_placed policy now stored with ⟨-, h⟩ | ⟨-, h⟩ <;> omega
    simp only [fixedWindow]
    omega
  · intro now first next stored
    simp only [fixedWindow, advanceFixed_again, countFixed_allowed, countFixed_remaining,
      Cost.le_max_zero_iff]
    omega

theorem advanceSliding_placed (now : Int) (stored : Option SlidingHash) :
    Placed policy now (advanceSliding policy now stored).windowId
      (advanceSliding policy now stored).elapsed := by
  cases stored with
  | none => exact .inl ⟨rfl, rfl⟩
  | some hash =>
    simp only [advanceSliding]
    by_cases hbehind : hash.windowId < now / policy.windowMs
    · rw [if_pos hbehind]
      exact .inl ⟨rfl, rfl⟩
    · rw [if_neg hbehind]
      by_cases hahead : now / policy.windowMs < hash.windowId
      · rw [if_pos hahead]
        exact .inr ⟨hahead, rfl⟩
      · rw [if_neg hahead]
        exact .inl ⟨rfl, rfl⟩

theorem advanceSliding_again (now : Int) (stored : Option SlidingHash) (counts : Counts) :
    advanceSliding policy now (some ⟨(advanceSliding policy now stored).windowId, counts⟩) =
      ⟨(advanceSliding policy now stored).windowId, (advanceSliding policy now stored).elapsed,
        counts⟩ := by
  have hplaced := advanceSliding_placed policy now stored
  generalize advanceSliding policy now stored = state at hplaced
  rcases hplaced with ⟨hwindow, helapsed⟩ | ⟨hahead, helapsed⟩
  · simp [advanceSliding, hwindow, helapsed]
  · simp [advanceSliding, hahead, hahead.le, helapsed]

/-- Whether or not the estimate was raised by the cost, it is that of the stored counters. -/
theorem countSliding_remaining (elapsed : Int) (counts : Counts) (cost : Cost policy.limit) :
    (countSliding policy elapsed cost counts).2.remaining =
      max 0 ⌊policy.limit - estimated policy elapsed (countSliding policy elapsed cost counts).1⌋ :=
    by
  simp only [countSliding]
  split
  · have hraised : estimated policy elapsed ⟨counts.current + cost.value, counts.previous⟩ =
        estimated policy elapsed counts + cost.value := by
      simp only [estimated, Int.cast_add]
      ring
    rw [hraised]
  · rfl

theorem slidingWindow_remaining : RemainingExact (slidingWindow policy) := by
  apply remainingExact_of_again
  · intro now cost stored
    have := policy.windowMs_pos
    simp only [slidingWindow]
    omega
  · intro now first next stored
    simp only [slidingWindow, advanceSliding_again, countSliding_allowed, countSliding_remaining,
      Cost.le_max_zero_iff, Int.le_floor]
    constructor <;> intro h <;> linarith

end windows

section bucket
variable (policy : TokenBucketPolicy)

theorem takeTokens_remaining (cost : Cost policy.capacity) (tokens : ℚ) :
    (takeTokens policy cost tokens).2.remaining = ⌊(takeTokens policy cost tokens).1⌋ := by
  unfold takeTokens
  split <;> rfl

theorem takeTokens_le (cost : Cost policy.capacity) (tokens : ℚ) :
    (takeTokens policy cost tokens).1 ≤ tokens := by
  have hnonneg : (0 : ℚ) ≤ cost.value := by exact_mod_cast cost.nonneg
  unfold takeTokens
  split
  · exact sub_le_self tokens hnonneg
  · exact le_refl tokens

theorem refillTokens_again {now updatedAt : Int} {tokens : ℚ} (hnow : now ≤ updatedAt)
    (htokens : tokens ≤ policy.capacity) :
    (refillTokens policy now (some ⟨tokens, updatedAt⟩)).tokens = tokens := by
  have helapsed : max 0 (now - updatedAt) = 0 := max_eq_left (sub_nonpos.mpr hnow)
  simp only [refillTokens, helapsed, Int.cast_zero, zero_mul, add_zero]
  exact min_eq_right htokens

theorem tokenBucket_remaining : RemainingExact (tokenBucket policy) := by
  apply remainingExact_of_again
  · intro now cost stored
    have hfull := Int.ceil_nonneg (div_nonneg policy.capacity_nonneg policy.ratePerMs_pos.le)
    simp only [tokenBucket, TokenBucketPolicy.ttlMs]
    omega
  · intro now first next stored
    have hnow : now ≤ (refillTokens policy now stored).updatedAt := le_max_left ..
    have hfull : (refillTokens policy now stored).tokens ≤ policy.capacity := min_le_left ..
    have hagain := refillTokens_again policy hnow ((takeTokens_le policy first _).trans hfull)
    simp only [tokenBucket, hagain, takeTokens_allowed, takeTokens_remaining, Int.le_floor]

end bucket

theorem remaining_exact (window : WindowBasedPolicy) (bucket : TokenBucketPolicy) :
    RemainingExact (fixedWindow window) ∧ RemainingExact (slidingWindow window) ∧
      RemainingExact (tokenBucket bucket) :=
  ⟨fixedWindow_remaining window, slidingWindow_remaining window, tokenBucket_remaining bucket⟩

theorem remaining_exact_second :
    ((slidingWindow secondPolicy).replyAfter [.call 1500 costOne, .call 900 costOne, .tick 900] 900
        costOne).allowed = true ↔
      1 ≤ ((slidingWindow secondPolicy).replyAfter [.call 1500 costOne] 900 costOne).remaining :=
  (remaining_exact secondPolicy ⟨1, by decide, 1, by decide⟩).2.1 [.call 1500 costOne] [.tick 900]
    900 costOne costOne (by simp)

end DddFramework.RateLimit
