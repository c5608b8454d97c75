import DddFramework.RateLimit.Policy

/-! `fixed_window.lua` in exact arithmetic, as on integers below `2^53`. Under a clock that
does not step back the stored counter is the total admitted in the current window, and
neither the roll-over nor the expiry of the hash can be told from a fresh window. -/
namespace DddFramework.RateLimit
open Library

structure FixedHash where
  windowId : Int
  count : Int
deriving DecidableEq

structure FixedState where
  windowId : Int
  elapsed : Int
  count : Int
deriving DecidableEq

section
variable (policy : WindowBasedPolicy)

/-- Reset the counter when entering a new window, keep it if the clock moved backward. -/
def advanceFixed (now : Int) (stored : Option FixedHash) : FixedState :=
  let windowId := now / policy.windowMs
  let elapsed := now % policy.windowMs
  match stored with
  | none => ⟨windowId, elapsed, 0⟩
  | some state =>
    if windowId < state.windowId then ⟨state.windowId, 0, state.count⟩
    else if state.windowId ≠ windowId then ⟨windowId, elapsed, 0⟩
    else ⟨windowId, elapsed, state.count⟩

def countFixed (elapsed : Int) (cost : Cost policy.limit) (count : Int) : Int × Reply :=
  if count + cost.value ≤ policy.limit then
    (count + cost.value, ⟨true, max 0 (policy.limit - (count + cost.value)), 0⟩)
  else (count, ⟨false, max 0 (policy.limit - count), policy.windowMs - elapsed⟩)

def fixedWindow : Script Int (Cost policy.limit) FixedHash Reply := fun now cost stored =>
  let state := advanceFixed policy now stored
  let counted := countFixed policy state.elapsed cost state.count
  ⟨⟨state.windowId, counted.1⟩, now + (policy.windowMs - state.elapsed), counted.2⟩

theorem countFixed_allowed {elapsed count : Int} {cost : Cost policy.limit} :
    (countFixed policy elapsed cost count).2.allowed = true ↔
      count + cost.value ≤ policy.limit := by
  unfold countFixed
  by_cases hfits : count + cost.value ≤ policy.limit <;> simp [hfits]

theorem countFixed_count {elapsed count : Int} {cost : Cost policy.limit} :
    (countFixed policy elapsed cost count).1 =
      count +
        if (countFixed policy elapsed cost count).2.allowed = true then cost.value else 0 := by
  unfold countFixed
  by_cases hfits : count + cost.value ≤ policy.limit <;> simp [hfits]

/-- A counter that starts again at zero in every window. -/
def fixedShift : Shift Int where
  rest := 0
  shift _ := 0
  valid count := 0 ≤ count ∧ count ≤ policy.limit
  valid_rest := ⟨le_refl 0, policy.limit_pos.le⟩
  valid_shift _ := ⟨le_refl 0, policy.limit_pos.le⟩
  shift_rest := rfl

def fixedLimiter : Limiter Int Int (Cost policy.limit) Reply where
  toDrift := (fixedShift policy).drift policy.windowMs_pos
  answer now cost count := countFixed policy (now % policy.windowMs) cost count
  valid_answer := by
    intro now cost count hvalid
    rw [countFixed_count]
    split
    · rename_i hallowed
      exact ⟨add_nonneg hvalid.1 cost.nonneg, (countFixed_allowed policy).mp hallowed⟩
    · rw [add_zero]
      exact hvalid
end

variable {policy : WindowBasedPolicy}

def readFixed (policy : WindowBasedPolicy) (now : Int) : Option FixedHash → Int
  | none => 0
  | some state => if state.windowId = now / policy.windowMs then state.count else 0

theorem fixedLimiter_age {before now count : Int} (h : before ≤ now) :
    (fixedLimiter policy).age before now count =
      if before / policy.windowMs = now / policy.windowMs then count else 0 := by
  have hwindow := Int.ediv_le_ediv policy.windowMs_pos h
  split
  · exact (fixedShift policy).age_same policy.windowMs_pos (by omega)
  · have hforgets : ∀ v, (fixedShift policy).shift^[1] v = (fixedShift policy).rest := fun _ => rfl
    exact (fixedShift policy).age_rest_of_add_le policy.windowMs_pos hforgets (by omega)

theorem advanceFixed_eq {now : Int} {stored : Option FixedHash}
    (h : ∀ state ∈ stored, state.windowId ≤ now / policy.windowMs) :
    advanceFixed policy now stored =
      ⟨now / policy.windowMs, now % policy.windowMs, readFixed policy now stored⟩ := by
  cases stored with
  | none => rfl
  | some state =>
    have hle := h state rfl
    simp only [advanceFixed, readFixed, if_neg (not_lt.mpr hle)]
    by_cases hsame : state.windowId = now / policy.windowMs
    · rw [if_neg (not_not.mpr hsame), if_pos hsame]
    · rw [if_pos hsame, if_neg hsame]

theorem fixedWindow_eq {now : Int} {cost : Cost policy.limit} {stored : Option FixedHash}
    (h : ∀ state ∈ stored, state.windowId ≤ now / policy.windowMs) :
    fixedWindow policy now cost stored =
      let counted := (fixedLimiter policy).answer now cost (readFixed policy now stored)
      ⟨⟨now / policy.windowMs, counted.1⟩, now + (policy.windowMs - now % policy.windowMs),
        counted.2⟩ := by
  simp only [fixedWindow, advanceFixed_eq h, fixedLimiter]

theorem fixedWindow_keeps (policy : WindowBasedPolicy) :
    (fixedWindow policy).Keeps (fixedLimiter policy) (readFixed policy)
      (fun now state => state.windowId ≤ now / policy.windowMs) where
  read_none _ := rfl
  reply_eq h := by rw [fixedWindow_eq h]
  fits_write h hlater := by
    rw [fixedWindow_eq h]
    exact Int.ediv_le_ediv policy.windowMs_pos hlater
  read_write h hlater := by
    rw [fixedWindow_eq h]
    exact (fixedLimiter_age hlater).symm
  rest_of_deadline := by
    intro now cost stored later h _ hlater hdeadline
    rw [fixedWindow_eq h] at hdeadline
    have hnext : now / policy.windowMs + 1 ≤ later / policy.windowMs := by
      apply window_add_le policy.windowMs_pos
      dsimp only at hdeadline
      linarith
    rw [fixedLimiter_age hlater, if_neg (by omega)]
    rfl

theorem windowSpent_age {log : List (Entry policy.limit)} {x : Entry policy.limit} {later : Int}
    (hlog : ∀ y ∈ log, y.now ≤ x.now) (hlater : x.now ≤ later) :
    windowSpent policy (later / policy.windowMs) (log ++ [x]) =
      (fixedLimiter policy).age x.now later
        (windowSpent policy (x.now / policy.windowMs) log +
          if x.reply.allowed = true then x.request.value else 0) := by
  rw [fixedLimiter_age hlater]
  split
  · rename_i hsame
    rw [← hsame, windowSpent_concat_same]
  · rename_i hother
    have hle := Int.ediv_le_ediv policy.windowMs_pos hlater
    exact windowSpent_concat_later hlog (lt_of_le_of_ne hle hother)

theorem fixedWindow_reply {events : List (Call policy.limit)}
    (h : (events.map Event.now).Pairwise (· ≤ ·))
    {earlier later : List (Entry policy.limit)} {x : Entry policy.limit}
    (hsplit : (fixedWindow policy).machine.emitted (fixedWindow policy).machine.init events =
      earlier ++ x :: later) :
    x.reply = (countFixed policy (x.now % policy.windowMs) x.request
      (windowSpent policy (x.now / policy.windowMs) earlier)).2 := by
  rw [(fixedWindow_keeps policy).emitted_eq h] at hsplit
  refine @Limiter.reply_of_log _ _ _ _ _ (fixedLimiter policy)
    (fun now log => windowSpent policy (now / policy.windowMs) log) (fun _ => rfl) ?_ _ h _ _ _
    hsplit
  intro log now cost later hlog hlater
  rw [windowSpent_age hlog hlater]
  simp only [fixedLimiter, countFixed_count]
  rfl

theorem fixedWindow_admits_iff {events : List (Call policy.limit)}
    (h : (events.map Event.now).Pairwise (· ≤ ·))
    {earlier later : List (Entry policy.limit)} {x : Entry policy.limit}
    (hsplit : (fixedWindow policy).machine.emitted (fixedWindow policy).machine.init events =
      earlier ++ x :: later) :
    x.reply.allowed = true ↔
      x.request.value + windowSpent policy (x.now / policy.windowMs) earlier ≤ policy.limit := by
  rw [fixedWindow_reply h hsplit, countFixed_allowed, add_comm]

end DddFramework.RateLimit
