import DddFramework.RateLimit.Policy

/-! `sliding_window.lua` in exact arithmetic. The two stored counters, shifted by none,
one or several windows and forgotten by the expiry, are always the totals admitted in
the current window and in the one before. -/
namespace DddFramework.RateLimit
open Library

structure Counts where
  current : Int
  previous : Int
deriving DecidableEq

structure SlidingHash where
  windowId : Int
  counts : Counts
deriving DecidableEq

structure SlidingState where
  windowId : Int
  elapsed : Int
  counts : Counts
deriving DecidableEq

section
variable (policy : WindowBasedPolicy)

/-- Advance the window counters, without resetting them if the clock moved backward. -/
def advanceSliding (now : Int) (stored : Option SlidingHash) : SlidingState :=
  let windowId := now / policy.windowMs
  let elapsed := now % policy.windowMs
  match stored with
  | none => ⟨windowId, elapsed, ⟨0, 0⟩⟩
  | some state =>
    if state.windowId < windowId then
      ⟨windowId, elapsed, 0, if windowId = state.windowId + 1 then state.counts.current else 0⟩
    else if windowId < state.windowId then ⟨state.windowId, 0, state.counts⟩
    else ⟨windowId, elapsed, state.counts⟩

/-- The share of the previous window that still counts. -/
def weight (elapsed : Int) : ℚ := (policy.windowMs - elapsed : ℚ) / policy.windowMs

def estimated (elapsed : Int) (counts : Counts) : ℚ :=
  counts.current + counts.previous * weight policy elapsed

/-- How long a denied call is told to wait: for the previous window to decay enough,
or for the next window and the decay of this one. -/
def retrySliding (elapsed : Int) (cost : Cost policy.limit) (counts : Counts) : Int :=
  max 1 <|
    if 0 < counts.previous ∧ counts.current + cost.value ≤ policy.limit then
      ⌈(estimated policy elapsed counts + cost.value - policy.limit) * policy.windowMs /
        counts.previous⌉
    else
      policy.windowMs - elapsed +
        if 0 < counts.current then
          ⌈(policy.windowMs : ℚ) *
            max 0 (1 - (policy.limit - cost.value : ℚ) / counts.current)⌉
        else 0

def countSliding (elapsed : Int) (cost : Cost policy.limit) (counts : Counts) : Counts × Reply :=
  let estimate := estimated policy elapsed counts
  if estimate + cost.value ≤ policy.limit then
    (⟨counts.current + cost.value, counts.previous⟩,
      ⟨true, max 0 ⌊policy.limit - (estimate + cost.value)⌋, 0⟩)
  else (counts, ⟨false, max 0 ⌊policy.limit - estimate⌋, retrySliding policy elapsed cost counts⟩)

def slidingWindow : Script Int (Cost policy.limit) SlidingHash Reply := fun now cost stored =>
  let state := advanceSliding policy now stored
  let counted := countSliding policy state.elapsed cost state.counts
  ⟨⟨state.windowId, counted.1⟩, now + (2 * policy.windowMs + 1), counted.2⟩

theorem countSliding_allowed {elapsed : Int} {cost : Cost policy.limit} {counts : Counts} :
    (countSliding policy elapsed cost counts).2.allowed = true ↔
      estimated policy elapsed counts + cost.value ≤ policy.limit := by
  unfold countSliding
  by_cases hfits : estimated policy elapsed counts + cost.value ≤ policy.limit <;> simp [hfits]

theorem countSliding_counts {elapsed : Int} {cost : Cost policy.limit} {counts : Counts} :
    (countSliding policy elapsed cost counts).1 =
      ⟨counts.current +
        if (countSliding policy elapsed cost counts).2.allowed = true then cost.value else 0,
        counts.previous⟩ := by
  unfold countSliding
  by_cases hfits : estimated policy elapsed counts + cost.value ≤ policy.limit <;> simp [hfits]

theorem weight_nonneg {elapsed : Int} (h : elapsed ≤ policy.windowMs) :
    0 ≤ weight policy elapsed := by
  apply div_nonneg
  · rw [sub_nonneg]
    exact_mod_cast h
  · exact_mod_cast policy.windowMs_pos.le

def slidingShift : Shift Counts where
  rest := ⟨0, 0⟩
  shift counts := ⟨0, counts.current⟩
  valid counts := (0 ≤ counts.current ∧ counts.current ≤ policy.limit) ∧
    0 ≤ counts.previous ∧ counts.previous ≤ policy.limit
  valid_rest := ⟨⟨le_refl 0, policy.limit_pos.le⟩, le_refl 0, policy.limit_pos.le⟩
  valid_shift h := ⟨⟨le_refl 0, policy.limit_pos.le⟩, h.1⟩
  shift_rest := rfl

theorem current_le_of_estimated {elapsed cost : Int} {counts : Counts}
    (helapsed : elapsed ≤ policy.windowMs) (hprevious : 0 ≤ counts.previous)
    (h : estimated policy elapsed counts + cost ≤ policy.limit) :
    counts.current + cost ≤ policy.limit := by
  have hdecayed : (0 : ℚ) ≤ counts.previous * weight policy elapsed :=
    mul_nonneg (by exact_mod_cast hprevious) (weight_nonneg policy helapsed)
  unfold estimated at h
  have hsum : (counts.current : ℚ) + cost ≤ policy.limit := by linarith
  exact_mod_cast hsum

def slidingLimiter : Limiter Int Counts (Cost policy.limit) Reply where
  toDrift := (slidingShift policy).drift policy.windowMs_pos
  answer now cost counts := countSliding policy (now % policy.windowMs) cost counts
  valid_answer := by
    intro now cost counts hvalid
    have helapsed := (Int.emod_lt_of_pos now policy.windowMs_pos).le
    rw [countSliding_counts]
    split
    · rename_i hallowed
      refine ⟨⟨add_nonneg hvalid.1.1 cost.nonneg, ?_⟩, hvalid.2⟩
      exact current_le_of_estimated policy helapsed hvalid.2.1
        ((countSliding_allowed policy).mp hallowed)
    · rw [add_zero]
      exact hvalid
end

variable {policy : WindowBasedPolicy}

def readSliding (policy : WindowBasedPolicy) (now : Int) : Option SlidingHash → Counts
  | none => ⟨0, 0⟩
  | some state =>
    (slidingShift policy).shift^[(now / policy.windowMs - state.windowId).toNat] state.counts

theorem slidingShift_forgets (counts : Counts) :
    (slidingShift policy).shift^[2] counts = (slidingShift policy).rest := rfl

/-- The branches of the script shift by none, one or two windows; two forget everything. -/
theorem advanceSliding_eq {now : Int} {stored : Option SlidingHash}
    (h : ∀ state ∈ stored, state.windowId ≤ now / policy.windowMs) :
    advanceSliding policy now stored =
      ⟨now / policy.windowMs, now % policy.windowMs, readSliding policy now stored⟩ := by
  cases stored with
  | none => rfl
  | some state =>
    obtain ⟨passed, hpassed⟩ := Int.le.dest (h state rfl)
    have hcount : (now / policy.windowMs - state.windowId).toNat = passed := by omega
    simp only [advanceSliding, readSliding, hcount]
    match passed with
    | 0 =>
      rw [if_neg (by omega), if_neg (by omega)]
      rfl
    | 1 =>
      rw [if_pos (by omega), if_pos (by omega)]
      rfl
    | more + 2 =>
      rw [if_pos (by omega), if_neg (by omega), Function.iterate_add_apply,
        slidingShift_forgets, Shift.iterate_rest]
      rfl

theorem slidingWindow_eq {now : Int} {cost : Cost policy.limit} {stored : Option SlidingHash}
    (h : ∀ state ∈ stored, state.windowId ≤ now / policy.windowMs) :
    slidingWindow policy now cost stored =
      let counted := (slidingLimiter policy).answer now cost (readSliding policy now stored)
      ⟨⟨now / policy.windowMs, counted.1⟩, now + (2 * policy.windowMs + 1), counted.2⟩ := by
  simp only [slidingWindow, advanceSliding_eq h, slidingLimiter]

theorem slidingWindow_keeps (policy : WindowBasedPolicy) :
    (slidingWindow policy).Keeps (slidingLimiter policy) (readSliding policy)
      (fun now state => state.windowId ≤ now / policy.windowMs) where
  read_none _ := rfl
  reply_eq h := by rw [slidingWindow_eq h]
  fits_write h hlater := by
    rw [slidingWindow_eq h]
    exact Int.ediv_le_ediv policy.windowMs_pos hlater
  read_write h hlater := by
    rw [slidingWindow_eq h]
    rfl
  rest_of_deadline := by
    intro now cost stored later h _ hlater hdeadline
    rw [slidingWindow_eq h] at hdeadline
    have hnext : now / policy.windowMs + 2 ≤ later / policy.windowMs := by
      apply window_add_le policy.windowMs_pos
      have helapsed := Int.emod_nonneg now policy.windowMs_pos.ne'
      dsimp only at hdeadline
      linarith
    exact (slidingShift policy).age_rest_of_add_le policy.windowMs_pos slidingShift_forgets hnext

/-- The totals admitted in the window of a reading and in the one before. -/
def windowCounts (policy : WindowBasedPolicy) (now : Int) (log : List (Entry policy.limit)) :
    Counts :=
  ⟨windowSpent policy (now / policy.windowMs) log,
    windowSpent policy (now / policy.windowMs - 1) log⟩

theorem windowCounts_concat {log : List (Entry policy.limit)} {x : Entry policy.limit}
    {later : Int} (hlog : ∀ y ∈ log, y.now ≤ x.now) (hlater : x.now ≤ later) :
    windowCounts policy later (log ++ [x]) =
      ((slidingShift policy).drift policy.windowMs_pos).age x.now later
        ⟨(windowCounts policy x.now log).current +
            if x.reply.allowed = true then x.request.value else 0,
          (windowCounts policy x.now log).previous⟩ := by
  have hle := Int.ediv_le_ediv policy.windowMs_pos hlater
  by_cases hsame : later / policy.windowMs = x.now / policy.windowMs
  · rw [Shift.age_same _ _ hsame]
    simp only [windowCounts, hsame]
    rw [windowSpent_concat_same, windowSpent_concat_other (by omega)]
  · by_cases hnext : later / policy.windowMs = x.now / policy.windowMs + 1
    · rw [Shift.age_next _ _ hnext]
      simp only [windowCounts, hnext, slidingShift, add_sub_cancel_right]
      rw [windowSpent_concat_same, windowSpent_concat_later hlog (lt_add_one _)]
    · rw [Shift.age_rest_of_add_le _ _ slidingShift_forgets (by omega)]
      simp only [windowCounts, slidingShift]
      rw [windowSpent_concat_later hlog (by omega), windowSpent_concat_later hlog (by omega)]

theorem slidingWindow_reply {events : List (Call policy.limit)}
    (h : (events.map Event.now).Pairwise (· ≤ ·))
    {earlier later : List (Entry policy.limit)} {x : Entry policy.limit}
    (hsplit : (slidingWindow policy).machine.emitted (slidingWindow policy).machine.init events =
      earlier ++ x :: later) :
    x.reply = (countSliding policy (x.now % policy.windowMs) x.request
      (windowCounts policy x.now earlier)).2 := by
  rw [(slidingWindow_keeps policy).emitted_eq h] at hsplit
  refine @Limiter.reply_of_log _ _ _ _ _ (slidingLimiter policy) (windowCounts policy)
    (fun _ => rfl) ?_ _ h _ _ _ hsplit
  intro log now cost later hlog hlater
  rw [windowCounts_concat hlog hlater]
  simp only [slidingLimiter, countSliding_counts]
  rfl

/-- A call is admitted exactly when its cost fits besides what its window has spent
and the share of the window before that still counts. -/
theorem slidingWindow_exact {events : List (Call policy.limit)}
    (h : (events.map Event.now).Pairwise (· ≤ ·))
    {earlier later : List (Entry policy.limit)} {x : Entry policy.limit}
    (hsplit : (slidingWindow policy).machine.emitted (slidingWindow policy).machine.init events =
      earlier ++ x :: later) :
    x.reply.allowed = true ↔
      (windowSpent policy (x.now / policy.windowMs) earlier : ℚ) +
        windowSpent policy (x.now / policy.windowMs - 1) earlier *
          (policy.windowMs - (x.now % policy.windowMs : Int)) / policy.windowMs +
        x.request.value ≤ policy.limit := by
  rw [slidingWindow_reply h hsplit, countSliding_allowed, estimated, weight, mul_div_assoc]
  rfl

theorem slidingWindow_exact_second :
    (true = true ↔ (windowSpent secondPolicy (1500 / 1000)
        [⟨0, costTwo, ⟨true, 0, 0⟩⟩,
          ⟨1000, costOne, ⟨false, 0, 500⟩⟩] : ℚ) +
      windowSpent secondPolicy (1500 / 1000 - 1)
        [⟨0, costTwo, ⟨true, 0, 0⟩⟩,
          ⟨1000, costOne, ⟨false, 0, 500⟩⟩] *
        ((1000 : Int) - (1500 % 1000 : Int)) / (1000 : Int) + (1 : Int) ≤ (2 : Int)) :=
  @slidingWindow_exact secondPolicy
    [.call 0 costTwo, .call 1000 costOne,
      .call 1500 costOne, .call 4000 costTwo] (by decide)
    [⟨0, costTwo, ⟨true, 0, 0⟩⟩,
      ⟨1000, costOne, ⟨false, 0, 500⟩⟩]
    [⟨4000, costTwo, ⟨true, 0, 0⟩⟩]
    ⟨1500, costOne, ⟨true, 0, 0⟩⟩ (by decide +kernel)

end DddFramework.RateLimit
