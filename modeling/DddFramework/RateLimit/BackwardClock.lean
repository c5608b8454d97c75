import DddFramework.RateLimit.LuaNumbers

/-! Window limits under a clock that steps back, with Lua's numbers. A call is counted
in the window the script stores, which never falls behind the stored one while the
hash lives. The expiry is set from the same clock, so after a step back the hash can be
dropped inside its own window, and the counter starts again. Rounding the weighted
estimate of the sliding window never takes it below the current counter. -/
namespace DddFramework.RateLimit
open Library

/-- An admitted call: its effective window and its cost. -/
structure Counted where
  windowId : Int
  cost : Int

section
variable {limit : Int} {H : Type}

def counted (script : Script Int (Cost limit) H Reply) (windowOf : H → Int)
    (x : Option (Expiring Int H) × Call limit) : List Counted :=
  match x.2 with
  | .tick _ => []
  | .call now cost =>
    let write := script now cost (Expiring.live now x.1)
    if write.reply.allowed = true then [⟨windowOf write.value, cost.value⟩] else []

def countedIn (script : Script Int (Cost limit) H Reply) (windowOf : H → Int)
    (events : List (Call limit)) : List Counted :=
  (script.machine.steps script.machine.init events).flatMap (counted script windowOf)

def total (windowId : Int) (log : List Counted) : Int :=
  tally Counted.cost (fun x => x.windowId = windowId) log

/-- A call that finds the hash dropped is in a later window than the one last stored. -/
def InTime (windowOf : H → Int) (windowMs : Int) : Option (Expiring Int H) × Call limit → Prop
  | (some cell, .call now _) => cell.expired now = true → windowOf cell.value < now / windowMs
  | _ => True

instance (windowOf : H → Int) (windowMs : Int) :
    DecidablePred (InTime windowOf windowMs : Option (Expiring Int H) × Call limit → Prop) :=
  fun x => match x with
  | (some cell, .call now _) =>
    inferInstanceAs (Decidable (cell.expired now = true → windowOf cell.value < now / windowMs))
  | (none, .call _ _) | (some _, .tick _) | (none, .tick _) => inferInstanceAs (Decidable True)

/-- The hash is only ever dropped once the windows it counts are over. -/
def DroppedInTime (script : Script Int (Cost limit) H Reply) (windowOf : H → Int)
    (windowMs : Int) (events : List (Call limit)) : Prop :=
  ∀ x ∈ script.machine.steps script.machine.init events, InTime windowOf windowMs x

instance (script : Script Int (Cost limit) H Reply) (windowOf : H → Int) (windowMs : Int)
    (events : List (Call limit)) : Decidable (DroppedInTime script windowOf windowMs events) :=
  inferInstanceAs (Decidable (∀ x ∈ script.machine.steps script.machine.init events,
    InTime windowOf windowMs x))

def carried (windowOf countOf : H → Int) (windowId : Int) : Option H → Int
  | none => 0
  | some stored => if windowId = windowOf stored then countOf stored else 0

/-- A script that keeps one counter per window and never admits beyond the limit, at
readings in range and on values that fit. -/
structure CountsWindows (script : Script Int (Cost limit) H Reply) (windowMs : Int)
    (windowOf countOf : H → Int) (fits : H → Prop) (inRange : Int → Prop) : Prop where
  fits_write : ∀ now cost stored, inRange now → (∀ h ∈ stored, fits h) →
    fits (script now cost stored).value
  window_none : ∀ now cost, inRange now → windowOf (script now cost none).value = now / windowMs
  window_some : ∀ now cost h, inRange now → fits h →
    windowOf h ≤ windowOf (script now cost (some h)).value
  count_eq : ∀ now cost stored, inRange now → (∀ h ∈ stored, fits h) →
    countOf (script now cost stored).value =
      carried windowOf countOf (windowOf (script now cost stored).value) stored +
        if (script now cost stored).reply.allowed = true then cost.value else 0
  within : ∀ now cost stored, inRange now → (∀ h ∈ stored, fits h) →
    (script now cost stored).reply.allowed = true →
      countOf (script now cost stored).value ≤ limit

/-- The last stored value tracks the calls counted so far: none lies in a later
window, and its counter is the total of its window. -/
def Tracks (limit : Int) (windowOf countOf : H → Int) (fits : H → Prop)
    (cell : Option (Expiring Int H)) (log : List Counted) : Prop :=
  (∀ windowId, total windowId log ≤ limit) ∧
    match cell with
    | none => log = []
    | some stored => fits stored.value ∧ (∀ x ∈ log, x.windowId ≤ windowOf stored.value) ∧
        total (windowOf stored.value) log = countOf stored.value

theorem Tracks.sweep {windowOf countOf : H → Int} {fits : H → Prop}
    {cell : Option (Expiring Int H)} {log : List Counted}
    (h : Tracks limit windowOf countOf fits cell log) (now : Int) :
    Tracks limit windowOf countOf fits (cell.map (Expiring.sweep now)) log := by
  cases cell <;> exact h

theorem total_eq_zero {windowId bound : Int} {log : List Counted}
    (hlog : ∀ x ∈ log, x.windowId ≤ bound) (h : bound < windowId) : total windowId log = 0 := by
  apply tally_eq_zero
  intro x hx
  have hle := hlog x hx
  omega

variable {script : Script Int (Cost limit) H Reply} {windowMs : Int} {windowOf countOf : H → Int}
  {fits : H → Prop} {inRange : Int → Prop}

theorem CountsWindows.carried_eq
    (counts : CountsWindows script windowMs windowOf countOf fits inRange)
    {cell : Option (Expiring Int H)} {log : List Counted} {now : Int} (cost : Cost limit)
    (h : Tracks limit windowOf countOf fits cell log) (hrange : inRange now)
    (hdropped : InTime windowOf windowMs (cell, .call now cost)) :
    (∀ h ∈ Expiring.live now cell, fits h) ∧
    (∀ x ∈ log, x.windowId ≤ windowOf (script now cost (Expiring.live now cell)).value) ∧
    total (windowOf (script now cost (Expiring.live now cell)).value) log =
      carried windowOf countOf (windowOf (script now cost (Expiring.live now cell)).value)
        (Expiring.live now cell) := by
  cases hlive : Expiring.live now cell with
  | none =>
    rw [counts.window_none now cost hrange]
    cases cell with
    | none => simp [h.2, total, carried]
    | some stored =>
      have hexpired : stored.expired now = true := by
        by_contra hfresh
        simp [Expiring.live, hfresh] at hlive
      have hlater : windowOf stored.value < now / windowMs := hdropped hexpired
      refine ⟨by simp, fun x hx => (h.2.2.1 x hx).trans hlater.le, ?_⟩
      exact total_eq_zero h.2.2.1 hlater
  | some value =>
    obtain ⟨stored, rfl, rfl, -⟩ := Expiring.value_of_live hlive
    have hwindow := counts.window_some now cost stored.value hrange h.2.1
    refine ⟨by simpa using h.2.1, fun x hx => (h.2.2.1 x hx).trans hwindow, ?_⟩
    by_cases hsame : windowOf (script now cost (some stored.value)).value = windowOf stored.value
    · rw [carried, if_pos hsame, hsame]
      exact h.2.2.2
    · rw [carried, if_neg hsame]
      exact total_eq_zero h.2.2.1 (lt_of_le_of_ne hwindow (Ne.symm hsame))

theorem CountsWindows.tracks_call
    (counts : CountsWindows script windowMs windowOf countOf fits inRange)
    {cell : Option (Expiring Int H)} {log : List Counted} {now : Int} {cost : Cost limit}
    (h : Tracks limit windowOf countOf fits cell log) (hrange : inRange now)
    (hdropped : InTime windowOf windowMs (cell, .call now cost)) :
    Tracks limit windowOf countOf fits (script.machine.step cell (.call now cost)).1
      (log ++ counted script windowOf (cell, .call now cost)) := by
  obtain ⟨hfits, hbound, htotal⟩ := counts.carried_eq cost h hrange hdropped
  rw [Script.step_call]
  have hcount := counts.count_eq now cost (Expiring.live now cell) hrange hfits
  have hwithin := counts.within now cost (Expiring.live now cell) hrange hfits
  have hwrite := counts.fits_write now cost (Expiring.live now cell) hrange hfits
  simp only [counted]
  generalize script now cost (Expiring.live now cell) = write at *
  rw [← htotal] at hcount
  by_cases hallowed : write.reply.allowed = true
  · rw [if_pos hallowed] at hcount ⊢
    have hconcat : ∀ windowId, total windowId (log ++ [⟨windowOf write.value, cost.value⟩]) =
        total windowId log + if windowOf write.value = windowId then cost.value else 0 :=
      fun windowId => tally_concat ..
    refine ⟨fun windowId => ?_, hwrite, ?_, ?_⟩
    · rw [hconcat]
      split
      · rename_i hsame
        rw [← hsame, ← hcount]
        exact hwithin hallowed
      · rw [add_zero]
        exact h.1 windowId
    · intro x hx
      rcases List.mem_append.mp hx with hx | hx
      · exact hbound x hx
      · rw [List.mem_singleton.mp hx]
    · rw [hconcat, if_pos rfl, hcount]
  · rw [if_neg hallowed] at hcount ⊢
    rw [List.append_nil]
    exact ⟨h.1, hwrite, hbound, by rw [hcount, add_zero]⟩

theorem CountsWindows.tracks (counts : CountsWindows script windowMs windowOf countOf fits inRange)
    (hlimit : 0 < limit) {events : List (Call limit)}
    (hrange : ∀ event ∈ events, inRange event.now)
    (h : DroppedInTime script windowOf windowMs events) :
    Tracks limit windowOf countOf fits (script.machine.after script.machine.init events)
      (countedIn script windowOf events) := by
  induction events using List.reverseRecOn with
  | nil => exact ⟨fun _ => hlimit.le, rfl⟩
  | append_singleton past event ih =>
    have hpast : DroppedInTime script windowOf windowMs past := by
      intro x hx
      exact h x (by rw [Machine.steps_concat]; exact List.mem_append_left _ hx)
    have hlast : (script.machine.after script.machine.init past, event) ∈
        script.machine.steps script.machine.init (past ++ [event]) := by
      rw [Machine.steps_concat]
      exact List.mem_append_right _ (List.mem_singleton_self _)
    have htracks := ih (fun next hnext => hrange next (List.mem_append_left _ hnext)) hpast
    rw [Machine.after_concat, countedIn, Machine.steps_concat, List.flatMap_append,
      List.flatMap_singleton]
    cases event with
    | tick now =>
      rw [Script.step_tick, counted, List.append_nil]
      exact htracks.sweep now
    | call now cost =>
      exact counts.tracks_call htracks (hrange (.call now cost) (by simp)) (h _ hlast)
end

variable {policy : WindowBasedPolicy}

/-- A stored window is never left backward, and its counter is kept only in it. -/
theorem advanceFixed_some (now : Int) (state : FixedHash) :
    state.windowId ≤ (advanceFixed policy now (some state)).windowId ∧
      (advanceFixed policy now (some state)).count =
        if (advanceFixed policy now (some state)).windowId = state.windowId then state.count
        else 0 := by
  simp only [advanceFixed]
  split
  · simp
  · split
    · rename_i hother
      exact ⟨by dsimp only; omega, (if_neg (Ne.symm hother)).symm⟩
    · rename_i hsame
      exact ⟨by dsimp only; omega, (if_pos (not_not.mp hsame).symm).symm⟩

theorem fixedWindow_countsWindows (policy : WindowBasedPolicy) :
    CountsWindows (Lua.fixedWindow policy) policy.windowMs FixedHash.windowId FixedHash.count
      (fun state => Lua.Bounded policy.limit state.count) (Lua.InRange policy) where
  fits_write := by
    intro now cost stored hrange h
    rw [Lua.fixedWindow_eq hrange h]
    exact Lua.bounded_countFixed (Lua.bounded_advanceFixed h)
  window_none := by
    intro now cost hrange
    rw [Lua.fixedWindow_eq hrange (by simp)]
    rfl
  window_some := by
    intro now cost state hrange h
    rw [Lua.fixedWindow_eq hrange (by simpa using h)]
    exact (advanceFixed_some now state).1
  count_eq := by
    intro now cost stored hrange h
    rw [Lua.fixedWindow_eq hrange h]
    have hcarried : (advanceFixed policy now stored).count = carried FixedHash.windowId
        FixedHash.count (advanceFixed policy now stored).windowId stored := by
      cases stored with
      | none => rfl
      | some state => exact (advanceFixed_some now state).2
    exact (countFixed_count policy).trans (congrArg (· + _) hcarried)
  within := by
    intro now cost stored hrange h hallowed
    rw [Lua.fixedWindow_eq hrange h] at hallowed ⊢
    simp only [fixedWindow] at hallowed ⊢
    rw [countFixed_count, if_pos hallowed]
    exact (countFixed_allowed policy).mp hallowed

section
variable {windowMs limit elapsed cost : Int} {counts : Counts}

theorem advanceSliding_some (now : Int) (state : SlidingHash) :
    state.windowId ≤ (Lua.advanceSliding windowMs now (some state)).windowId ∧
      (Lua.advanceSliding windowMs now (some state)).counts.current =
        if (Lua.advanceSliding windowMs now (some state)).windowId = state.windowId then
          state.counts.current
        else 0 := by
  simp only [Lua.advanceSliding]
  split
  · rename_i hforward
    exact ⟨hforward.le, (if_neg hforward.ne').symm⟩
  · split
    · simp
    · exact ⟨by dsimp only; omega, (if_pos (by dsimp only; omega)).symm⟩

def Fits (limit : Int) (counts : Counts) : Prop :=
  Lua.Bounded limit counts.current ∧ 0 ≤ counts.previous

theorem advanceSliding_bounds {now : Int} {stored : Option SlidingHash}
    (hrange : Lua.InRange policy now) (h : ∀ state ∈ stored, Fits policy.limit state.counts) :
    (Lua.advanceSliding policy.windowMs now stored).elapsed ≤ policy.windowMs ∧
      Fits policy.limit (Lua.advanceSliding policy.windowMs now stored).counts := by
  have hzero : Lua.Bounded policy.limit 0 := ⟨le_refl 0, policy.limit_pos.le⟩
  have helapsed := (Int.emod_lt_of_pos now policy.windowMs_pos).le
  unfold Lua.advanceSliding
  rw [hrange.elapsedIn_eq]
  cases stored with
  | none => exact ⟨helapsed, hzero, le_refl 0⟩
  | some state =>
    have hfits := h state rfl
    dsimp only
    split
    · refine ⟨helapsed, hzero, ?_⟩
      dsimp only
      split
      · exact hfits.1.1
      · exact le_refl 0
    · split
      · exact ⟨policy.windowMs_pos.le, hfits⟩
      · exact ⟨helapsed, hfits⟩

theorem countSliding_allowed_iff :
    (Lua.countSliding limit windowMs elapsed cost counts).2.allowed = true ↔
      Lua.double (Lua.estimated windowMs elapsed counts + cost) ≤ limit := by
  unfold Lua.countSliding
  by_cases hfits : Lua.double (Lua.estimated windowMs elapsed counts + cost) ≤ limit <;>
    simp [hfits]

theorem countSliding_fst :
    (Lua.countSliding limit windowMs elapsed cost counts).1 =
      ⟨if (Lua.countSliding limit windowMs elapsed cost counts).2.allowed = true then
          Lua.whole (counts.current + cost)
        else counts.current, counts.previous⟩ := by
  unfold Lua.countSliding
  by_cases hfits : Lua.double (Lua.estimated windowMs elapsed counts + cost) ≤ limit <;>
    simp [hfits]

theorem current_le_estimated (hwindow : 0 < windowMs) (helapsed : elapsed ≤ windowMs)
    (hcurrent : |counts.current| ≤ Lua.maxExact) (hprevious : 0 ≤ counts.previous) :
    (counts.current : ℚ) ≤ Lua.estimated windowMs elapsed counts := by
  have hrest : (0 : ℚ) ≤ Lua.whole (windowMs - elapsed) := by
    rw [Lua.whole_cast]
    exact Lua.double_nonneg (by exact_mod_cast sub_nonneg.mpr helapsed)
  have hwidth : (0 : ℚ) ≤ windowMs := by exact_mod_cast hwindow.le
  have hweight : 0 ≤ Lua.weight windowMs elapsed := Lua.double_nonneg (div_nonneg hrest hwidth)
  have hdecayed : 0 ≤ Lua.double (counts.previous * Lua.weight windowMs elapsed) :=
    Lua.double_nonneg (mul_nonneg (by exact_mod_cast hprevious) hweight)
  exact Lua.le_double hcurrent (le_add_of_nonneg_right hdecayed)

theorem current_add_le (hlimit : limit < Lua.maxExact) (hcost : 0 ≤ cost)
    (hcurrent : 0 ≤ counts.current)
    (hestimated : (counts.current : ℚ) ≤ Lua.estimated windowMs elapsed counts)
    (h : Lua.double (Lua.estimated windowMs elapsed counts + cost) ≤ limit) :
    counts.current + cost ≤ limit ∧
      Lua.whole (counts.current + cost) = counts.current + cost := by
  have hsum : ((counts.current + cost : Int) : ℚ) ≤
      Lua.estimated windowMs elapsed counts + cost := by
    push_cast
    linarith
  have hsmall : counts.current + cost ≤ Lua.maxExact := by
    by_contra hlarge
    have hbeyond : (Lua.maxExact : ℚ) ≤ Lua.estimated windowMs elapsed counts + cost :=
      le_trans (by exact_mod_cast (not_le.mp hlarge).le) hsum
    have hrounded := (Lua.le_double (by decide) hbeyond).trans h
    have hle : Lua.maxExact ≤ limit := by exact_mod_cast hrounded
    omega
  have habs : |counts.current + cost| ≤ Lua.maxExact := by
    rw [abs_le]
    omega
  have hrounded := (Lua.le_double habs hsum).trans h
  exact ⟨by exact_mod_cast hrounded, Lua.whole_eq habs⟩
end

theorem countSliding_fits {elapsed : Int} {cost : Cost policy.limit} {counts : Counts}
    (hlimit : policy.limit < Lua.maxExact) (helapsed : elapsed ≤ policy.windowMs)
    (h : Fits policy.limit counts) :
    (Lua.countSliding policy.limit policy.windowMs elapsed cost.value counts).1.current =
        counts.current +
          (if (Lua.countSliding policy.limit policy.windowMs elapsed cost.value counts).2.allowed
            = true then cost.value else 0) ∧
      Fits policy.limit
        (Lua.countSliding policy.limit policy.windowMs elapsed cost.value counts).1 := by
  obtain ⟨⟨hcurrent, hcurrentLe⟩, hprevious⟩ := h
  have hestimated := current_le_estimated policy.windowMs_pos helapsed
    (by rw [abs_le]; omega) hprevious
  rw [countSliding_fst]
  by_cases hallowed : (Lua.countSliding policy.limit policy.windowMs elapsed cost.value
      counts).2.allowed = true
  · obtain ⟨hle, hexact⟩ := current_add_le hlimit cost.nonneg hcurrent hestimated
      (countSliding_allowed_iff.mp hallowed)
    rw [if_pos hallowed, if_pos hallowed, hexact]
    exact ⟨rfl, ⟨add_nonneg hcurrent cost.nonneg, hle⟩, hprevious⟩
  · rw [if_neg hallowed, if_neg hallowed, add_zero]
    exact ⟨rfl, ⟨hcurrent, hcurrentLe⟩, hprevious⟩

theorem slidingWindow_inRange {now : Int} {cost : Cost policy.limit}
    {stored : Option SlidingHash} (hrange : Lua.InRange policy now) :
    Lua.slidingWindow policy now cost stored =
      let state := Lua.advanceSliding policy.windowMs now stored
      let counted := Lua.countSliding policy.limit policy.windowMs state.elapsed cost.value
        state.counts
      ⟨⟨state.windowId, counted.1⟩, now + Lua.whole (Lua.whole (2 * policy.windowMs) + 1),
        counted.2⟩ := by
  have hlimit : policy.limit < Lua.maxExact := hrange.1
  have hwindow : policy.windowMs ≤ Lua.maxExact := hrange.2.1
  have hlimitPos := policy.limit_pos
  have hwindowPos := policy.windowMs_pos
  have hcost := cost.nonneg
  have hcostLe := cost.le
  unfold Lua.slidingWindow
  rw [Lua.whole_eq (n := policy.limit) (by rw [abs_le]; omega),
    Lua.whole_eq (n := policy.windowMs) (by rw [abs_le]; omega),
    Lua.whole_eq (n := cost.value) (by rw [abs_le]; omega), Lua.clock_eq hrange.abs_now_lt]

theorem slidingWindow_countsWindows (policy : WindowBasedPolicy) :
    CountsWindows (Lua.slidingWindow policy) policy.windowMs SlidingHash.windowId
      (fun state => state.counts.current) (fun state => Fits policy.limit state.counts)
      (Lua.InRange policy) where
  fits_write := by
    intro now cost stored hrange h
    rw [slidingWindow_inRange hrange]
    have hbounds := advanceSliding_bounds hrange h
    exact (countSliding_fits hrange.1 hbounds.1 hbounds.2).2
  window_none := by
    intro now cost hrange
    rw [slidingWindow_inRange hrange]
    exact hrange.windowIdOf_eq
  window_some := by
    intro now cost state hrange _
    rw [slidingWindow_inRange hrange]
    exact (advanceSliding_some now state).1
  count_eq := by
    intro now cost stored hrange h
    rw [slidingWindow_inRange hrange]
    have hbounds := advanceSliding_bounds hrange h
    have hcarried : (Lua.advanceSliding policy.windowMs now stored).counts.current =
        carried SlidingHash.windowId (fun state => state.counts.current)
          (Lua.advanceSliding policy.windowMs now stored).windowId stored := by
      cases stored with
      | none => rfl
      | some state => exact (advanceSliding_some now state).2
    exact (countSliding_fits hrange.1 hbounds.1 hbounds.2).1.trans (congrArg (· + _) hcarried)
  within := by
    intro now cost stored hrange h _
    rw [slidingWindow_inRange hrange]
    have hbounds := advanceSliding_bounds hrange h
    exact (countSliding_fits hrange.1 hbounds.1 hbounds.2).2.1.2

/-- Under any clock at all, while the limit, the window and the readings are below `2^53`
and the hash is only dropped once its window is over, no effective window admits more
than the limit. -/
theorem windowLimits_survive (policy : WindowBasedPolicy) (events : List (Call policy.limit))
    (hrange : ∀ event ∈ events, Lua.InRange policy event.now) :
    (DroppedInTime (Lua.fixedWindow policy) FixedHash.windowId policy.windowMs events →
      ∀ windowId, total windowId (countedIn (Lua.fixedWindow policy) FixedHash.windowId events) ≤
        policy.limit) ∧
    (DroppedInTime (Lua.slidingWindow policy) SlidingHash.windowId policy.windowMs events →
      ∀ windowId, total windowId
        (countedIn (Lua.slidingWindow policy) SlidingHash.windowId events) ≤ policy.limit) := by
  constructor
  · intro h
    exact ((fixedWindow_countsWindows policy).tracks policy.limit_pos hrange h).1
  · intro h
    exact ((slidingWindow_countsWindows policy).tracks policy.limit_pos hrange h).1

theorem windowLimits_survive_second :
    (∀ windowId, total windowId (countedIn (Lua.fixedWindow secondPolicy) FixedHash.windowId
      [.call 5500 costOne, .call 4900 costOne, .call 5700 costOne]) ≤ 2) ∧
    ∀ windowId, total windowId (countedIn (Lua.slidingWindow secondPolicy) SlidingHash.windowId
      [.call 5500 costOne, .call 4900 costOne, .call 5700 costOne]) ≤ 2 :=
  have hboth := windowLimits_survive secondPolicy
    [.call 5500 costOne, .call 4900 costOne, .call 5700 costOne] (by decide)
  ⟨hboth.1 (by decide +kernel), hboth.2 (by decide +kernel)⟩

/-- A step back that lasts until the expiry set during it: the fixed window drops its
hash at 4001 ms and the sliding window at 3002 ms, both inside window 5. -/
theorem windowLimits_fail :
    (¬ ∀ events windowId, total windowId
      (countedIn (Lua.fixedWindow secondPolicy) FixedHash.windowId events) ≤
        secondPolicy.limit) ∧
    ¬ ∀ events windowId, total windowId
      (countedIn (Lua.slidingWindow secondPolicy) SlidingHash.windowId events) ≤
        secondPolicy.limit := by
  constructor
  · intro h
    have hwindow := h [.call 5500 costTwo, .call 3000 costTwo, .call 5600 costTwo] 5
    revert hwindow
    decide +kernel
  · intro h
    have hwindow := h [.call 5000 costTwo, .call 1000 costTwo, .call 5500 costTwo] 5
    revert hwindow
    decide +kernel

end DddFramework.RateLimit
