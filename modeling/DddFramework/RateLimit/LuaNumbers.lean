import DddFramework.Library.Rounding
import DddFramework.RateLimit.FixedWindow
import DddFramework.RateLimit.SlidingWindow

/-! The window scripts with the numbers that Lua has: doubles, whose operations round
to 53 binary digits. While the limit, the window and the clock are below `2^53` every
whole number the fixed window computes is exact, and it runs as in exact arithmetic;
at a limit of `2^53` the counter no longer grows by one and the limit is lost. -/
namespace DddFramework.RateLimit.Lua
open Library

def double (x : ℚ) : ℚ := round 53 x

/-- Whole numbers stay whole, so the floor loses nothing. -/
def whole (n : Int) : Int := ⌊double n⌋

theorem whole_cast (n : Int) : (whole n : ℚ) = double n := by
  obtain ⟨m, hm⟩ := @exists_int_round 53 n
  unfold whole double
  rw [hm, Int.floor_intCast]

/-- `2^53`, up to which every whole number is a double. -/
def maxExact : Int := 9007199254740992

theorem whole_eq {n : Int} (h : |n| ≤ maxExact) : whole n = n := by
  unfold whole double
  rw [round_intCast (by decide) h, Int.floor_intCast]

theorem le_double {n : Int} {x : ℚ} (hn : |n| ≤ maxExact) (h : n ≤ x) : n ≤ double x :=
  le_round (by decide) hn h

theorem double_nonneg {x : ℚ} (h : 0 ≤ x) : 0 ≤ double x := by
  have hzero := @le_double 0 x (by decide) (by exact_mod_cast h)
  exact_mod_cast hzero

theorem maxExact_le_whole {n : Int} (h : maxExact ≤ n) : maxExact ≤ whole n :=
  Int.le_floor.mpr (le_double (by decide) (by exact_mod_cast h))

/-- The reading, from its seconds and the milliseconds besides. -/
def clock (reading : Int) : Int := whole (whole (reading.tdiv 1000 * 1000) + reading.tmod 1000)

def windowIdOf (windowMs now : Int) : Int := ⌊double (now / windowMs : ℚ)⌋

/-- `now % window_ms`, which Lua computes as `now - math.floor(now / window_ms) * window_ms`. -/
def elapsedIn (windowMs now : Int) : Int := whole (now - whole (windowIdOf windowMs now * windowMs))

def advanceFixed (windowMs now : Int) (stored : Option FixedHash) : FixedState :=
  let windowId := windowIdOf windowMs now
  let elapsed := elapsedIn windowMs now
  match stored with
  | none => ⟨windowId, elapsed, 0⟩
  | some state =>
    if windowId < state.windowId then ⟨state.windowId, 0, state.count⟩
    else if state.windowId ≠ windowId then ⟨windowId, elapsed, 0⟩
    else ⟨windowId, elapsed, state.count⟩

def countFixed (limit windowMs elapsed cost count : Int) : Int × Reply :=
  if whole (count + cost) ≤ limit then
    (whole (count + cost), ⟨true, max 0 (whole (limit - whole (count + cost))), 0⟩)
  else (count, ⟨false, max 0 (whole (limit - count)), whole (windowMs - elapsed)⟩)

def fixedWindow (policy : WindowBasedPolicy) : Script Int (Cost policy.limit) FixedHash Reply :=
  fun reading cost stored =>
    let limit := whole policy.limit
    let windowMs := whole policy.windowMs
    let state := advanceFixed windowMs (clock reading) stored
    let counted := countFixed limit windowMs state.elapsed (whole cost.value) state.count
    ⟨⟨state.windowId, counted.1⟩, reading + whole (windowMs - state.elapsed), counted.2⟩

def advanceSliding (windowMs now : Int) (stored : Option SlidingHash) : SlidingState :=
  let windowId := windowIdOf windowMs now
  let elapsed := elapsedIn windowMs now
  match stored with
  | none => ⟨windowId, elapsed, ⟨0, 0⟩⟩
  | some state =>
    if state.windowId < windowId then
      ⟨windowId, elapsed, 0,
        if windowId = whole (state.windowId + 1) then state.counts.current else 0⟩
    else if windowId < state.windowId then ⟨state.windowId, 0, state.counts⟩
    else ⟨windowId, elapsed, state.counts⟩

def weight (windowMs elapsed : Int) : ℚ := double (whole (windowMs - elapsed) / windowMs : ℚ)

def estimated (windowMs elapsed : Int) (counts : Counts) : ℚ :=
  double (counts.current + double (counts.previous * weight windowMs elapsed))

def retrySliding (limit windowMs elapsed cost : Int) (counts : Counts) : Int :=
  max 1 <|
    if 0 < counts.previous ∧ whole (counts.current + cost) ≤ limit then
      let excess := double (double (estimated windowMs elapsed counts + cost) - limit)
      ⌈double (double (excess * windowMs) / counts.previous)⌉
    else
      let untilNext := whole (windowMs - elapsed)
      let decayMs :=
        if 0 < counts.current then
          ⌈double (windowMs * max 0 (double (1 - double (whole (limit - cost) / counts.current))))⌉
        else 0
      whole (untilNext + decayMs)

def countSliding (limit windowMs elapsed cost : Int) (counts : Counts) : Counts × Reply :=
  let estimate := estimated windowMs elapsed counts
  if double (estimate + cost) ≤ limit then
    (⟨whole (counts.current + cost), counts.previous⟩,
      ⟨true, max 0 ⌊double (limit - double (estimate + cost))⌋, 0⟩)
  else
    (counts, ⟨false, max 0 ⌊double (limit - estimate)⌋,
      retrySliding limit windowMs elapsed cost counts⟩)

def slidingWindow (policy : WindowBasedPolicy) : Script Int (Cost policy.limit) SlidingHash Reply :=
  fun reading cost stored =>
    let limit := whole policy.limit
    let windowMs := whole policy.windowMs
    let state := advanceSliding windowMs (clock reading) stored
    let counted := countSliding limit windowMs state.elapsed (whole cost.value) state.counts
    ⟨⟨state.windowId, counted.1⟩, reading + whole (whole (2 * windowMs) + 1), counted.2⟩

/-- Where every whole number up to the limit, the window and the clock is a double. -/
def InRange (policy : WindowBasedPolicy) (now : Int) : Prop :=
  policy.limit < maxExact ∧ policy.windowMs ≤ maxExact ∧
    policy.windowMs - maxExact ≤ now ∧ now < maxExact

instance (policy : WindowBasedPolicy) (now : Int) : Decidable (InRange policy now) :=
  inferInstanceAs (Decidable (_ ∧ _ ∧ _ ∧ _))

section
variable {policy : WindowBasedPolicy} {now : Int}

theorem InRange.abs_now_lt (h : InRange policy now) : |now| < maxExact := by
  have hpos := policy.windowMs_pos
  unfold InRange at h
  rw [abs_lt]
  omega

theorem clock_eq (h : |now| < maxExact) : clock now = now := by
  have hparts := Int.mul_tdiv_add_tmod now 1000
  have hseconds : |now.tdiv 1000 * 1000| ≤ |now| := by
    rw [abs_mul, ← Int.natCast_natAbs, ← Int.natCast_natAbs now, Int.natAbs_tdiv]
    have hle := Nat.div_mul_le_self now.natAbs 1000
    exact_mod_cast hle
  unfold clock
  rw [whole_eq (n := now.tdiv 1000 * 1000) (hseconds.trans h.le)]
  rw [show now.tdiv 1000 * 1000 + now.tmod 1000 = now by omega]
  exact whole_eq h.le

theorem InRange.windowIdOf_eq (h : InRange policy now) :
    windowIdOf policy.windowMs now = now / policy.windowMs :=
  floor_round_div (by decide) policy.windowMs_pos h.abs_now_lt

theorem InRange.elapsedIn_eq (h : InRange policy now) :
    elapsedIn policy.windowMs now = now % policy.windowMs := by
  have hdecomposed := Int.mul_ediv_add_emod now policy.windowMs
  have hnonneg := Int.emod_nonneg now policy.windowMs_pos.ne'
  have hlt := Int.emod_lt_of_pos now policy.windowMs_pos
  rw [mul_comm] at hdecomposed
  have hrange := h
  unfold InRange at hrange
  unfold elapsedIn
  rw [h.windowIdOf_eq, whole_eq (n := now / policy.windowMs * policy.windowMs),
    show now - now / policy.windowMs * policy.windowMs = now % policy.windowMs by linarith]
  · apply whole_eq
    rw [abs_le]
    omega
  · rw [abs_le]
    omega

theorem InRange.advanceFixed_eq (h : InRange policy now) (stored : Option FixedHash) :
    advanceFixed policy.windowMs now stored = RateLimit.advanceFixed policy now stored := by
  unfold advanceFixed RateLimit.advanceFixed
  cases stored <;> simp only [h.windowIdOf_eq, h.elapsedIn_eq]

theorem advanceFixed_elapsed (now : Int) (stored : Option FixedHash) :
    0 ≤ (RateLimit.advanceFixed policy now stored).elapsed ∧
      (RateLimit.advanceFixed policy now stored).elapsed < policy.windowMs := by
  have hnonneg := Int.emod_nonneg now policy.windowMs_pos.ne'
  have hlt := Int.emod_lt_of_pos now policy.windowMs_pos
  cases stored with
  | none => exact ⟨hnonneg, hlt⟩
  | some state =>
    simp only [RateLimit.advanceFixed]
    split_ifs
    · exact ⟨le_refl 0, policy.windowMs_pos⟩
    · exact ⟨hnonneg, hlt⟩
    · exact ⟨hnonneg, hlt⟩

/-- What a run stores: the counter is kept between zero and the limit. -/
def Bounded (limit count : Int) : Prop := 0 ≤ count ∧ count ≤ limit

theorem bounded_advanceFixed {stored : Option FixedHash}
    (h : ∀ state ∈ stored, Bounded policy.limit state.count) :
    Bounded policy.limit (RateLimit.advanceFixed policy now stored).count := by
  have hzero : Bounded policy.limit 0 := ⟨le_refl 0, policy.limit_pos.le⟩
  cases stored with
  | none => exact hzero
  | some state =>
    simp only [RateLimit.advanceFixed]
    split_ifs
    · exact h state rfl
    · exact hzero
    · exact h state rfl

theorem bounded_countFixed {elapsed count : Int} {cost : Cost policy.limit}
    (h : Bounded policy.limit count) :
    Bounded policy.limit (RateLimit.countFixed policy elapsed cost count).1 := by
  have hcost := cost.nonneg
  unfold Bounded at h ⊢
  unfold RateLimit.countFixed
  split
  · dsimp only
    omega
  · exact h

theorem countFixed_eq {elapsed count : Int} {cost : Cost policy.limit}
    (hlimit : policy.limit < maxExact) (hwindow : policy.windowMs ≤ maxExact)
    (helapsed : 0 ≤ elapsed ∧ elapsed < policy.windowMs) (h : Bounded policy.limit count) :
    countFixed policy.limit policy.windowMs elapsed cost.value count =
      RateLimit.countFixed policy elapsed cost count := by
  have hcost := cost.pos
  unfold Bounded at h
  have hrest : whole (policy.windowMs - elapsed) = policy.windowMs - elapsed :=
    whole_eq (by rw [abs_le]; omega)
  have hremaining : ∀ n, 0 ≤ n → n ≤ policy.limit → whole (policy.limit - n) = policy.limit - n :=
    fun n hn hle => whole_eq (by rw [abs_le]; omega)
  unfold countFixed RateLimit.countFixed
  by_cases hfits : count + cost.value ≤ policy.limit
  · have hsum : whole (count + cost.value) = count + cost.value :=
      whole_eq (by rw [abs_le]; omega)
    rw [hsum, if_pos hfits, if_pos hfits, hremaining _ (by omega) hfits]
  · have hsum : ¬ whole (count + cost.value) ≤ policy.limit := by
      by_cases hsmall : count + cost.value ≤ maxExact
      · rw [whole_eq (by rw [abs_le]; omega)]
        exact hfits
      · have hbeyond := maxExact_le_whole (show maxExact ≤ count + cost.value by omega)
        omega
    rw [if_neg hsum, if_neg hfits, hremaining _ h.1 h.2, hrest]

theorem fixedWindow_eq {cost : Cost policy.limit} {stored : Option FixedHash}
    (h : InRange policy now) (hstored : ∀ state ∈ stored, Bounded policy.limit state.count) :
    fixedWindow policy now cost stored = RateLimit.fixedWindow policy now cost stored := by
  have hlimit : policy.limit < maxExact := h.1
  have hwindow : policy.windowMs ≤ maxExact := h.2.1
  have hlimitPos := policy.limit_pos
  have hwindowPos := policy.windowMs_pos
  have hcost := cost.nonneg
  have hcostLe := cost.le
  have helapsed := @advanceFixed_elapsed policy now stored
  simp only [fixedWindow, RateLimit.fixedWindow]
  rw [whole_eq (n := policy.limit) (by rw [abs_le]; omega),
    whole_eq (n := policy.windowMs) (by rw [abs_le]; omega),
    whole_eq (n := cost.value) (by rw [abs_le]; omega), clock_eq h.abs_now_lt, h.advanceFixed_eq,
    countFixed_eq hlimit hwindow helapsed (bounded_advanceFixed hstored),
    whole_eq (by rw [abs_le]; omega)]

theorem fixedWindow_emitted_eq {events : List (Call policy.limit)}
    (h : ∀ event ∈ events, InRange policy event.now) :
    (fixedWindow policy).machine.emitted (fixedWindow policy).machine.init events =
      (RateLimit.fixedWindow policy).machine.emitted
        (RateLimit.fixedWindow policy).machine.init events := by
  refine (Machine.emitted_eq_of_simulation
    (G := fun _ event => InRange policy (Event.now event))
    (R := fun _ cell kept => cell = kept ∧
      ∀ stored ∈ cell, Bounded policy.limit (FixedHash.count (Expiring.value stored)))
    ?_ ?_ ?_).1
  · exact ⟨rfl, fun _ hnone => nomatch hnone⟩
  · rintro past cell _ event hrange ⟨rfl, hbounded⟩
    cases event with
    | tick reading =>
      refine ⟨rfl, rfl, ?_⟩
      rw [Script.step_tick]
      intro stored hstored
      obtain ⟨kept, hkept, rfl⟩ := Option.mem_map.mp hstored
      exact hbounded kept hkept
    | call reading cost =>
      have hreading : InRange policy reading := hrange
      have hlive : ∀ state ∈ Expiring.live reading cell, Bounded policy.limit state.count := by
        intro state hstate
        obtain ⟨stored, rfl, rfl, -⟩ := Expiring.value_of_live hstate
        exact hbounded stored rfl
      rw [Script.step_call, Script.step_call, fixedWindow_eq hreading hlive]
      refine ⟨rfl, rfl, ?_⟩
      intro stored hstored
      rw [← Option.some.inj hstored]
      exact bounded_countFixed (bounded_advanceFixed hlive)
  · rintro past event rest rfl
    exact h event (by simp)

/-- In range, a call is admitted exactly when its cost fits besides what the earlier
calls of its window have spent. -/
theorem fixedWindow_exact {events : List (Call policy.limit)}
    (h : (events.map Event.now).Pairwise (· ≤ ·))
    (hrange : ∀ event ∈ events, InRange policy event.now)
    {earlier later : List (Entry policy.limit)} {x : Entry policy.limit}
    (hsplit : (fixedWindow policy).machine.emitted (fixedWindow policy).machine.init events =
      earlier ++ x :: later) :
    x.reply.allowed = true ↔
      x.request.value + windowSpent policy (x.now / policy.windowMs) earlier ≤ policy.limit := by
  rw [fixedWindow_emitted_eq hrange] at hsplit
  exact fixedWindow_admits_iff h hsplit

theorem fixedWindow_exact_second :
    (false = true ↔ 1 + windowSpent secondPolicy (500 / 1000)
      [⟨250, costTwo, ⟨true, 0, 0⟩⟩] ≤ 2) :=
  @fixedWindow_exact secondPolicy
    [.call 250 costTwo, .tick 400, .call 500 costOne,
      .call 1000 costTwo] (by decide) (by decide)
    [⟨250, costTwo, ⟨true, 0, 0⟩⟩]
    [⟨1000, costTwo, ⟨true, 0, 0⟩⟩]
    ⟨500, costOne, ⟨false, 0, 500⟩⟩ (by decide +kernel)

def hugePolicy : WindowBasedPolicy :=
  { secondPolicy with limit := maxExact, limit_pos := by decide }

/-- Once the counter is at `2^53`, one more is rounded away, and every call is admitted. -/
theorem fixedWindow_overruns :
    ¬ ∀ (policy : WindowBasedPolicy) (events : List (Call policy.limit)),
      (events.map Event.now).Pairwise (· ≤ ·) →
      ∀ earlier x later, (fixedWindow policy).machine.emitted (fixedWindow policy).machine.init
        events = earlier ++ x :: later →
        (x.reply.allowed = true ↔ x.request.value +
          windowSpent policy (x.now / policy.windowMs) earlier ≤ policy.limit) := by
  intro h
  have hadmitted := (h hugePolicy
    [.call 0 ⟨maxExact, by decide, by decide⟩, .call 0 ⟨1, by decide, by decide⟩] (by decide)
    [⟨0, ⟨maxExact, by decide, by decide⟩, ⟨true, 0, 0⟩⟩]
    ⟨0, ⟨1, by decide, by decide⟩, ⟨true, 0, 0⟩⟩ [] (by decide +kernel)).mp rfl
  revert hadmitted
  decide

end
end DddFramework.RateLimit.Lua
