import DddFramework.RateLimit.SlidingWindow

/-! What a sliding window lets through at most. An interval of one window's length
touches two windows; the last call admitted in the second one bounds them together,
since the share of the first that no longer counts is less than the whole of it. -/
namespace DddFramework.RateLimit
open Library

variable {policy : WindowBasedPolicy}

/-- A log in clock order in which every admitted call fitted besides the totals before it. -/
structure Admissible (policy : WindowBasedPolicy) (log : List (Entry policy.limit)) : Prop where
  ordered : (log.map Served.now).Pairwise (· ≤ ·)
  fitted : ∀ earlier x later, log = earlier ++ x :: later → x.reply.allowed = true →
    estimated policy (x.now % policy.windowMs) (windowCounts policy x.now earlier) +
      x.request.value ≤ policy.limit

namespace Admissible

theorem before {log : List (Entry policy.limit)} {x : Entry policy.limit}
    (h : Admissible policy (log ++ [x])) : Admissible policy log where
  ordered := by
    have hordered := h.ordered
    rw [List.map_append, List.pairwise_append] at hordered
    exact hordered.1
  fitted := by
    intro earlier y later hsplit
    exact h.fitted earlier y (later ++ [x]) (by simp [hsplit])

theorem le_last {log : List (Entry policy.limit)} {x : Entry policy.limit}
    (h : Admissible policy (log ++ [x])) : ∀ y ∈ log, y.now ≤ x.now :=
  fun _ hy => le_of_split h.ordered rfl hy

theorem last_fitted {log : List (Entry policy.limit)} {x : Entry policy.limit}
    (h : Admissible policy (log ++ [x])) (hallowed : x.reply.allowed = true) :
    estimated policy (x.now % policy.windowMs) (windowCounts policy x.now log) +
      x.request.value ≤ policy.limit :=
  h.fitted log x [] rfl hallowed

theorem windowSpent_le {log : List (Entry policy.limit)} (h : Admissible policy log)
    (windowId : Int) : windowSpent policy windowId log ≤ policy.limit := by
  induction log using List.reverseRecOn with
  | nil => exact policy.limit_pos.le
  | append_singleton log x ih =>
    rw [windowSpent_concat]
    split
    · rename_i hlast
      rw [← hlast.2]
      apply current_le_of_estimated policy (Int.emod_lt_of_pos x.now policy.windowMs_pos).le _
        (h.last_fitted hlast.1)
      exact spent_nonneg _ log
    · rw [add_zero]
      exact ih h.before

theorem sum_lt_of_estimated {elapsed cost : Int} {counts : Counts} (hnonneg : 0 ≤ elapsed)
    (helapsed : elapsed < policy.windowMs) (hprevious : counts.previous ≤ policy.limit)
    (h : estimated policy elapsed counts + cost ≤ policy.limit) :
    counts.previous + (counts.current + cost) < 2 * policy.limit := by
  have hwindow : (0 : ℚ) < policy.windowMs := by exact_mod_cast policy.windowMs_pos
  have hlimit : (0 : ℚ) < policy.limit := by exact_mod_cast policy.limit_pos
  have hdecay : (elapsed : ℚ) / policy.windowMs < 1 := by
    rw [div_lt_one hwindow]
    exact_mod_cast helapsed
  have hdecay_nonneg : (0 : ℚ) ≤ elapsed / policy.windowMs := by
    apply div_nonneg _ hwindow.le
    exact_mod_cast hnonneg
  have hweight : weight policy elapsed = 1 - elapsed / policy.windowMs := by
    rw [weight, sub_div, div_self hwindow.ne']
  have hlost : (counts.previous : ℚ) * (elapsed / policy.windowMs) < policy.limit := by
    calc (counts.previous : ℚ) * (elapsed / policy.windowMs)
        ≤ policy.limit * (elapsed / policy.windowMs) := by
          apply mul_le_mul_of_nonneg_right _ hdecay_nonneg
          exact_mod_cast hprevious
      _ < policy.limit * 1 := mul_lt_mul_of_pos_left hdecay hlimit
      _ = policy.limit := mul_one _
  rw [estimated, hweight, mul_sub, mul_one] at h
  have hsum : (counts.previous : ℚ) + (counts.current + cost) < 2 * policy.limit := by linarith
  exact_mod_cast hsum

theorem intervalSpent_lt {log : List (Entry policy.limit)} (h : Admissible policy log)
    (start : Int) :
    spent (fun x => start ≤ x.now ∧ x.now < start + policy.windowMs) log < 2 * policy.limit := by
  induction log using List.reverseRecOn with
  | nil =>
    have := policy.limit_pos
    simp only [spent_nil]
    omega
  | append_singleton log x ih =>
    by_cases hlast : x.reply.allowed = true ∧ start ≤ x.now ∧ x.now < start + policy.windowMs
    · have hfirst := Int.ediv_le_ediv policy.windowMs_pos hlast.2.1
      have hend : x.now / policy.windowMs ≤ start / policy.windowMs + 1 := by
        have hle := Int.ediv_le_ediv policy.windowMs_pos hlast.2.2.le
        rwa [Int.add_ediv_of_dvd_right (dvd_refl _), Int.ediv_self policy.windowMs_pos.ne'] at hle
      have hwithin : ∀ y ∈ log ++ [x], start ≤ y.now ∧ y.now < start + policy.windowMs →
          start / policy.windowMs ≤ y.now / policy.windowMs ∧
            y.now / policy.windowMs ≤ x.now / policy.windowMs := by
        intro y hy hinside
        refine ⟨Int.ediv_le_ediv policy.windowMs_pos hinside.1, ?_⟩
        rcases List.mem_append.mp hy with hy | hy
        · exact Int.ediv_le_ediv policy.windowMs_pos (h.le_last y hy)
        · rw [List.mem_singleton.mp hy]
      by_cases hsecond : x.now / policy.windowMs = start / policy.windowMs
      · -- the interval has not left its first window yet
        have hone : spent (fun x => start ≤ x.now ∧ x.now < start + policy.windowMs) (log ++ [x]) ≤
            windowSpent policy (x.now / policy.windowMs) (log ++ [x]) := by
          apply spent_mono
          intro y hy hinside
          have hwindow := hwithin y hy hinside
          omega
        have hlimit := h.windowSpent_le (x.now / policy.windowMs)
        have hpos := policy.limit_pos
        omega
      · have hboth : spent (fun x => start ≤ x.now ∧ x.now < start + policy.windowMs) (log ++ [x]) ≤
            windowSpent policy (x.now / policy.windowMs - 1) (log ++ [x]) +
              windowSpent policy (x.now / policy.windowMs) (log ++ [x]) := by
          apply spent_le_add
          intro y hy hinside
          have hwindow := hwithin y hy hinside
          omega
        have hsum := sum_lt_of_estimated (Int.emod_nonneg x.now policy.windowMs_pos.ne')
          (Int.emod_lt_of_pos x.now policy.windowMs_pos)
          (h.before.windowSpent_le (x.now / policy.windowMs - 1)) (h.last_fitted hlast.1)
        rw [windowSpent_concat_same, windowSpent_concat_other (by omega), if_pos hlast.1] at hboth
        simp only [windowCounts] at hsum
        omega
    · rw [spent_concat, if_neg hlast, add_zero]
      exact ih h.before

end Admissible

theorem slidingWindow_admissible {events : List (Call policy.limit)}
    (h : (events.map Event.now).Pairwise (· ≤ ·)) :
    Admissible policy
      ((slidingWindow policy).machine.emitted (slidingWindow policy).machine.init events) where
  ordered := served_ordered h
  fitted := by
    intro earlier x later hsplit hallowed
    rw [slidingWindow_reply h hsplit] at hallowed
    exact (countSliding_allowed policy).mp hallowed

/-- Clock readings are integral, the ends of an interval need not be. -/
theorem slidingWindow_burst {events : List (Call policy.limit)}
    (h : (events.map Event.now).Pairwise (· ≤ ·)) :
    (∀ start : ℚ, spent (fun x => start ≤ x.now ∧ x.now < start + policy.windowMs)
      ((slidingWindow policy).machine.emitted (slidingWindow policy).machine.init events) <
        2 * policy.limit) ∧
    ∀ windowId, windowSpent policy windowId
      ((slidingWindow policy).machine.emitted (slidingWindow policy).machine.init events) ≤
        policy.limit := by
  have hlog := slidingWindow_admissible h
  refine ⟨?_, hlog.windowSpent_le⟩
  intro start
  have hsame : ∀ x : Entry policy.limit,
      (start ≤ x.now ∧ (x.now : ℚ) < start + policy.windowMs) ↔
        (⌈start⌉ ≤ x.now ∧ x.now < ⌈start⌉ + policy.windowMs) := by
    intro x
    rw [Int.ceil_le, ← sub_lt_iff_lt_add, ← sub_lt_iff_lt_add, Int.lt_ceil]
    push_cast
    rfl
  exact lt_of_eq_of_lt (spent_congr _ _ fun x _ => hsame x) (hlog.intervalSpent_lt ⌈start⌉)

theorem slidingWindow_burst_second :
    spent (fun x => (600 : ℚ) ≤ x.now ∧ x.now < (600 : ℚ) + (1000 : Int))
      ((slidingWindow secondPolicy).machine.emitted (slidingWindow secondPolicy).machine.init
        [.call 900 costTwo, .call 1500 costOne]) <
      2 * 2 :=
  (@slidingWindow_burst secondPolicy
    [.call 900 costTwo, .call 1500 costOne] (by decide)).1 600

end DddFramework.RateLimit
