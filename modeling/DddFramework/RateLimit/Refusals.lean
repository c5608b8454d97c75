import DddFramework.Library.Denials
import DddFramework.RateLimit.FixedWindow
import DddFramework.RateLimit.SlidingWindow
import DddFramework.RateLimit.TokenBucket

/-! Calls that are refused. All three limiters are quiet, so a refusal can be told
only by the caller that got it; and the waiting time it carries is exact, to the
millisecond in the reply and rounded up to seconds in the header. -/
namespace DddFramework.RateLimit
open Library

/-! What a caller of `acquire` and an HTTP client are told. -/

structure RateLimitResult where
  allowed : Bool
  limit : Int
  remaining : Int
  retryAfter : Option Int

def rateLimitResult (limit : Int) (reply : Reply) : RateLimitResult where
  allowed := reply.allowed
  limit := limit
  remaining := reply.remaining
  retryAfter := if reply.allowed then none else some (max 1 reply.retryMs)

def totalSeconds (duration : Int) : ℚ := duration / 1000

def rejectionHeaders (result : RateLimitResult) : List (String × String) :=
  [("Cache-Control", "no-store")] ++
    match result.retryAfter with
    | none => []
    | some retryAfter =>
      let seconds : Int := max 1 ⌈totalSeconds retryAfter⌉
      [("Retry-After", toString seconds)]

/-- The seconds in the header are never shorter than the reply's milliseconds. -/
theorem rejectionHeaders_denied {limit : Int} {reply : Reply} (h : reply.allowed = false) :
    ∃ seconds : Int, reply.retryMs ≤ 1000 * seconds ∧
      (rejectionHeaders (rateLimitResult limit reply)).lookup "Retry-After" =
        some (toString seconds) := by
  refine ⟨max 1 ⌈totalSeconds (max 1 reply.retryMs)⌉, ?_, ?_⟩
  · have hceil : totalSeconds (max 1 reply.retryMs) ≤
        ((max 1 ⌈totalSeconds (max 1 reply.retryMs)⌉ : Int) : ℚ) :=
      (Int.le_ceil _).trans (by exact_mod_cast le_max_right _ _)
    unfold totalSeconds at hceil ⊢
    rw [div_le_iff₀ (by norm_num)] at hceil
    have hint : max 1 reply.retryMs ≤
        max 1 ⌈((max 1 reply.retryMs : Int) : ℚ) / 1000⌉ * 1000 := by exact_mod_cast hceil
    have hle := le_max_right 1 reply.retryMs
    omega
  · simp [rejectionHeaders, rateLimitResult, h, List.lookup_cons]

/-! Refusals leave no trace. -/

theorem fixedLimiter_quiet (policy : WindowBasedPolicy) :
    (fixedLimiter policy).Quiet Reply.allowed := by
  intro now cost count hdenied
  simp only [fixedLimiter] at hdenied ⊢
  rw [countFixed_count, hdenied, if_neg Bool.false_ne_true, add_zero]

theorem slidingLimiter_quiet (policy : WindowBasedPolicy) :
    (slidingLimiter policy).Quiet Reply.allowed := by
  intro now cost counts hdenied
  simp only [slidingLimiter] at hdenied ⊢
  rw [countSliding_counts, hdenied, if_neg Bool.false_ne_true, add_zero]

theorem everlastingBucket_quiet (policy : TokenBucketPolicy) :
    (everlastingBucket policy).Quiet Reply.allowed := by
  intro now cost tokens hdenied
  simp only [everlastingBucket] at hdenied ⊢
  rw [takeTokens_tokens, hdenied, if_neg Bool.false_ne_true, sub_zero]

section
variable {limit : Int} {H : Type}

/-- Leaving any refused calls out of a run leaves the replies to all others as they are. -/
def DenialsUnobservable (script : Script Int (Cost limit) H Reply) : Prop :=
  ∀ marked : Marked Int (Cost limit),
    ((Marked.full marked).map Event.now).Pairwise (· ≤ ·) →
    Marked.OnlyDenied script.machine Reply.allowed marked →
    ∀ past event rest, marked = past ++ (event, false) :: rest →
      (script.machine.step (script.machine.after script.machine.init (Marked.kept past)) event).2 =
        (script.machine.step
          (script.machine.after script.machine.init (Marked.full past)) event).2
end

theorem denials_unobservable (window : WindowBasedPolicy) (bucket : TokenBucketPolicy) :
    DenialsUnobservable (fixedWindow window) ∧ DenialsUnobservable (slidingWindow window) ∧
      DenialsUnobservable (tokenBucket bucket) := by
  refine ⟨?_, ?_, ?_⟩
  · intro marked h hdenied past event rest hsplit
    exact (fixedWindow_keeps window).step_kept (fixedLimiter_quiet window) h hdenied hsplit
  · intro marked h hdenied past event rest hsplit
    exact (slidingWindow_keeps window).step_kept (slidingLimiter_quiet window) h hdenied hsplit
  · intro marked h hdenied past event rest hsplit
    exact (tokenBucket_keeps bucket).step_kept (everlastingBucket_quiet bucket) h hdenied hsplit

theorem denials_unobservable_second :
    ((fixedWindow secondPolicy).machine.step ((fixedWindow secondPolicy).machine.after
        (fixedWindow secondPolicy).machine.init [.call 0 costTwo]) (.call 1000 costOne)).2 =
      ((fixedWindow secondPolicy).machine.step ((fixedWindow secondPolicy).machine.after
        (fixedWindow secondPolicy).machine.init [.call 0 costTwo, .call 250 costOne])
        (.call 1000 costOne)).2 := by
  refine (denials_unobservable secondPolicy refillPolicy).1
    [(.call 0 costTwo, false), (.call 250 costOne, true), (.call 1000 costOne, false)]
    (by decide) ?_ [(.call 0 costTwo, false), (.call 250 costOne, true)] _ [] rfl
  refine @Marked.onlyDenied_concat _ _ _ _ _ _ (Marked.cut [.call 0 costTwo] [.call 250 costOne])
    (.call 1000 costOne) false ?_ (by simp)
  exact Marked.onlyDenied_cut (by decide)

/-! Waiting times. -/

theorem fixedLimiter_retryExact (policy : WindowBasedPolicy) :
    (fixedLimiter policy).RetryExact Reply.allowed Reply.retryMs := by
  intro now later cost count _ hle hdenied
  have hfull : ¬ count + cost.value ≤ policy.limit := by
    intro hfits
    exact ne_true_of_eq_false hdenied ((countFixed_allowed policy).mpr hfits)
  have hretry : ((fixedLimiter policy).answer now cost count).2.retryMs =
      policy.windowMs - now % policy.windowMs := by
    simp only [fixedLimiter, countFixed, if_neg hfull]
  rw [hretry, next_window_le_iff policy.windowMs_pos hle, fixedLimiter_age hle]
  simp only [fixedLimiter]
  rw [countFixed_allowed]
  by_cases hsame : now / policy.windowMs = later / policy.windowMs
  · rw [if_pos hsame]
    exact iff_of_false hfull (not_not.mpr hsame)
  · rw [if_neg hsame, zero_add]
    exact iff_of_true cost.le hsame

theorem everlastingBucket_retryExact (policy : TokenBucketPolicy) :
    (everlastingBucket policy).RetryExact Reply.allowed Reply.retryMs := by
  intro now later cost tokens _ hle hdenied
  have hfew : ¬ (cost.value : ℚ) ≤ tokens := by
    intro hfits
    exact ne_true_of_eq_false hdenied ((takeTokens_allowed policy).mpr hfits)
  have hwait : 0 < (cost.value - tokens) / policy.ratePerMs :=
    div_pos (sub_pos.mpr (not_le.mp hfew)) policy.ratePerMs_pos
  have hretry : ((everlastingBucket policy).answer now cost tokens).2.retryMs =
      ⌈(cost.value - tokens) / policy.ratePerMs⌉ := by
    simp only [everlastingBucket, takeTokens, if_neg hfew]
    exact max_eq_right (Int.ceil_pos.mpr hwait)
  have hcapacity : (cost.value : ℚ) ≤ policy.capacity := by exact_mod_cast cost.le
  rw [hretry, ← le_sub_iff_add_le', Int.ceil_le, div_le_iff₀ policy.ratePerMs_pos]
  simp only [everlastingBucket, refill]
  rw [takeTokens_allowed, le_min_iff, and_iff_right hcapacity, mul_comm, sub_le_iff_le_add']

theorem estimated_fits_iff (policy : WindowBasedPolicy) {elapsed cost : Int} {counts : Counts} :
    estimated policy elapsed counts + cost ≤ policy.limit ↔
      (counts.current + cost - policy.limit) * policy.windowMs +
        counts.previous * (policy.windowMs - elapsed) ≤ 0 := by
  have hwindow : (0 : ℚ) < policy.windowMs := by exact_mod_cast policy.windowMs_pos
  have hquotient : estimated policy elapsed counts + cost - policy.limit =
      (((counts.current + cost - policy.limit) * policy.windowMs +
        counts.previous * (policy.windowMs - elapsed) : Int) : ℚ) / policy.windowMs := by
    unfold estimated weight
    push_cast
    field_simp
    ring
  rw [← sub_nonpos, hquotient, div_le_iff₀ hwindow, zero_mul]
  exact_mod_cast Iff.rfl

theorem retrySliding_decay (policy : WindowBasedPolicy) {elapsed wait : Int}
    {cost : Cost policy.limit} {counts : Counts} (hprevious : 0 < counts.previous)
    (hcurrent : counts.current + cost.value ≤ policy.limit)
    (hdenied : ¬ estimated policy elapsed counts + cost.value ≤ policy.limit) :
    retrySliding policy elapsed cost counts ≤ wait ↔
      (counts.current + cost.value - policy.limit) * policy.windowMs +
        counts.previous * (policy.windowMs - elapsed) ≤ counts.previous * wait := by
  have hwindow : (0 : ℚ) < policy.windowMs := by exact_mod_cast policy.windowMs_pos
  have hprev : (0 : ℚ) < counts.previous := by exact_mod_cast hprevious
  have hexcess : 0 < (estimated policy elapsed counts + cost.value - policy.limit) *
      policy.windowMs / counts.previous :=
    div_pos (mul_pos (sub_pos.mpr (not_le.mp hdenied)) hwindow) hprev
  have hscaled : (estimated policy elapsed counts + cost.value - policy.limit) * policy.windowMs =
      (((counts.current + cost.value - policy.limit) * policy.windowMs +
        counts.previous * (policy.windowMs - elapsed) : Int) : ℚ) := by
    unfold estimated weight
    push_cast
    field_simp
    ring
  unfold retrySliding
  rw [if_pos ⟨hprevious, hcurrent⟩, max_eq_right (Int.ceil_pos.mpr hexcess), Int.ceil_le,
    div_le_iff₀ hprev, hscaled, mul_comm (wait : ℚ)]
  exact_mod_cast Iff.rfl

theorem retrySliding_next (policy : WindowBasedPolicy) {elapsed wait : Int}
    {cost : Cost policy.limit} {counts : Counts} (helapsed : elapsed < policy.windowMs)
    (hcurrent : policy.limit < counts.current + cost.value) :
    retrySliding policy elapsed cost counts ≤ wait ↔
      (counts.current + cost.value - policy.limit) * policy.windowMs ≤
        counts.current * (wait - (policy.windowMs - elapsed)) := by
  have hpos : 0 < counts.current := by linarith [cost.le]
  have hcount : (0 : ℚ) < counts.current := by exact_mod_cast hpos
  have hover : (policy.limit - cost.value : ℚ) < counts.current := by
    rw [sub_lt_iff_lt_add]
    exact_mod_cast hcurrent
  have hshare : 0 ≤ 1 - (policy.limit - cost.value : ℚ) / counts.current := by
    rw [sub_nonneg, div_le_one hcount]
    exact hover.le
  have hwindow : (0 : ℚ) ≤ policy.windowMs := by exact_mod_cast policy.windowMs_pos.le
  have hceil : 0 ≤ ⌈(policy.windowMs : ℚ) *
      (1 - (policy.limit - cost.value : ℚ) / counts.current)⌉ :=
    Int.ceil_nonneg (mul_nonneg hwindow hshare)
  have hscaled : (policy.windowMs : ℚ) * (1 - (policy.limit - cost.value : ℚ) / counts.current) =
      (((counts.current + cost.value - policy.limit) * policy.windowMs : Int) : ℚ) /
        counts.current := by
    push_cast
    field_simp
    ring
  unfold retrySliding
  rw [if_neg (by omega), if_pos hpos, max_eq_right hshare, max_eq_right (by omega),
    ← le_sub_iff_add_le', Int.ceil_le, hscaled, div_le_iff₀ hcount, mul_comm _ (counts.current : ℚ)]
  exact_mod_cast Iff.rfl

section later
variable {policy : WindowBasedPolicy} {now later : Int} {cost : Cost policy.limit}
  {counts : Counts} (hvalid : (slidingLimiter policy).valid counts)
  (hdenied : ¬ estimated policy (now % policy.windowMs) counts + cost.value ≤ policy.limit)
include hvalid hdenied

theorem slidingLimiter_waits :
    0 < counts.previous ∧ counts.current + cost.value ≤ policy.limit ∨
      policy.limit < counts.current + cost.value := by
  have hprevious : 0 ≤ counts.previous := hvalid.2.1
  have hpos := policy.windowMs_pos
  rw [estimated_fits_iff] at hdenied
  by_contra hneither
  have hzero : counts.previous = 0 := by omega
  rw [hzero, zero_mul, add_zero] at hdenied
  exact hdenied (mul_nonpos_of_nonpos_of_nonneg (by omega) hpos.le)

theorem slidingLimiter_fits_same
    (hsame : later / policy.windowMs = now / policy.windowMs) :
    estimated policy (later % policy.windowMs) ((slidingLimiter policy).age now later counts) +
        cost.value ≤ policy.limit ↔
      retrySliding policy (now % policy.windowMs) cost counts ≤ later - now := by
  have hcount : 0 ≤ counts.current := hvalid.1.1
  have hprevious : 0 ≤ counts.previous := hvalid.2.1
  have hpos := policy.windowMs_pos
  have hstart := Int.mul_ediv_add_emod now policy.windowMs
  have hlater := Int.mul_ediv_add_emod later policy.windowMs
  have helapsed := Int.emod_lt_of_pos now hpos
  have helapsed' := Int.emod_lt_of_pos later hpos
  have hage : (slidingLimiter policy).age now later counts = counts :=
    (slidingShift policy).age_same hpos hsame
  have hscaled := hdenied
  rw [estimated_fits_iff] at hscaled
  rw [hage, estimated_fits_iff]
  rw [hsame] at hlater
  have hwait : later % policy.windowMs = now % policy.windowMs + (later - now) := by omega
  rcases slidingLimiter_waits hvalid hdenied with ⟨hprev, hcurrent⟩ | hcurrent
  · rw [retrySliding_decay policy hprev hcurrent hdenied, hwait]
    constructor <;> intro h <;> linarith
  · rw [retrySliding_next policy helapsed hcurrent]
    have hover : 0 < (counts.current + cost.value - policy.limit) * policy.windowMs :=
      mul_pos (by omega) hpos
    have hrest := mul_nonneg hprevious (sub_nonneg.mpr helapsed'.le)
    have hearly :
        counts.current * (later - now - (policy.windowMs - now % policy.windowMs)) ≤ 0 :=
      mul_nonpos_of_nonneg_of_nonpos hcount (by omega)
    exact iff_of_false (by linarith) (by linarith)

theorem slidingLimiter_fits_next
    (hnext : later / policy.windowMs = now / policy.windowMs + 1) :
    estimated policy (later % policy.windowMs) ((slidingLimiter policy).age now later counts) +
        cost.value ≤ policy.limit ↔
      retrySliding policy (now % policy.windowMs) cost counts ≤ later - now := by
  have hcost := cost.le
  have hcount : 0 ≤ counts.current := hvalid.1.1
  have hprevious : 0 ≤ counts.previous := hvalid.2.1
  have hpos := policy.windowMs_pos
  have hstart := Int.mul_ediv_add_emod now policy.windowMs
  have hlater := Int.mul_ediv_add_emod later policy.windowMs
  have helapsed := Int.emod_lt_of_pos now hpos
  have hnonneg := Int.emod_nonneg later hpos.ne'
  have hage : (slidingLimiter policy).age now later counts = ⟨0, counts.current⟩ :=
    (slidingShift policy).age_next hpos hnext
  rw [hage, estimated_fits_iff]
  rw [hnext, mul_add, mul_one] at hlater
  have hwait : later - now =
      policy.windowMs - now % policy.windowMs + later % policy.windowMs := by omega
  have hdecayed := mul_nonneg hcount hnonneg
  dsimp only
  rcases slidingLimiter_waits hvalid hdenied with ⟨hprev, hcurrent⟩ | hcurrent
  · rw [retrySliding_decay policy hprev hcurrent hdenied, hwait]
    have hroom : (counts.current + cost.value - policy.limit) * policy.windowMs ≤ 0 :=
      mul_nonpos_of_nonpos_of_nonneg (by omega) hpos.le
    have hfree : (cost.value - policy.limit) * policy.windowMs ≤ 0 :=
      mul_nonpos_of_nonpos_of_nonneg (by omega) hpos.le
    have hprevDecayed := mul_nonneg hprevious hnonneg
    exact iff_of_true (by linarith) (by linarith)
  · rw [retrySliding_next policy helapsed hcurrent, hwait]
    constructor <;> intro h <;> linarith

theorem slidingLimiter_fits_beyond
    (hbeyond : now / policy.windowMs + 2 ≤ later / policy.windowMs) :
    estimated policy (later % policy.windowMs) ((slidingLimiter policy).age now later counts) +
        cost.value ≤ policy.limit ↔
      retrySliding policy (now % policy.windowMs) cost counts ≤ later - now := by
  have hcost := cost.le
  have hcount : 0 ≤ counts.current := hvalid.1.1
  have hprevious : 0 ≤ counts.previous := hvalid.2.1
  have hpos := policy.windowMs_pos
  have hstart := Int.mul_ediv_add_emod now policy.windowMs
  have hlater := Int.mul_ediv_add_emod later policy.windowMs
  have helapsed := Int.emod_lt_of_pos now hpos
  have hnonneg := Int.emod_nonneg later hpos.ne'
  have hage : (slidingLimiter policy).age now later counts = ⟨0, 0⟩ :=
    (slidingShift policy).age_rest_of_add_le hpos slidingShift_forgets hbeyond
  have hwindowsPassed := mul_le_mul_of_nonneg_left hbeyond hpos.le
  have hfree : (cost.value - policy.limit) * policy.windowMs ≤ 0 :=
    mul_nonpos_of_nonpos_of_nonneg (by omega) hpos.le
  have hlong : policy.windowMs ≤ later - now - (policy.windowMs - now % policy.windowMs) := by
    rw [mul_add] at hwindowsPassed
    omega
  rw [hage, estimated_fits_iff]
  dsimp only
  rw [zero_mul, add_zero, zero_add]
  apply iff_of_true hfree
  rcases slidingLimiter_waits hvalid hdenied with ⟨hprev, hcurrent⟩ | hcurrent
  · rw [retrySliding_decay policy hprev hcurrent hdenied]
    have hroom : (counts.current + cost.value - policy.limit) * policy.windowMs ≤ 0 :=
      mul_nonpos_of_nonpos_of_nonneg (by omega) hpos.le
    have hdecayed := mul_le_mul_of_nonneg_left
      (by omega : policy.windowMs - now % policy.windowMs ≤ later - now) hprevious
    linarith
  · rw [retrySliding_next policy helapsed hcurrent]
    have hdecayed := mul_le_mul_of_nonneg_left hlong hcount
    linarith

end later

/-- What is left of a refused call's counters at a later reading: the same window, the
next one, or a window that remembers nothing. -/
theorem slidingLimiter_fits_later (policy : WindowBasedPolicy) {now later : Int}
    {cost : Cost policy.limit} {counts : Counts} (hle : now ≤ later)
    (hvalid : (slidingLimiter policy).valid counts)
    (hdenied : ¬ estimated policy (now % policy.windowMs) counts + cost.value ≤ policy.limit) :
    estimated policy (later % policy.windowMs) ((slidingLimiter policy).age now later counts) +
        cost.value ≤ policy.limit ↔
      retrySliding policy (now % policy.windowMs) cost counts ≤ later - now := by
  have hwindows := Int.ediv_le_ediv policy.windowMs_pos hle
  by_cases hsame : later / policy.windowMs = now / policy.windowMs
  · exact slidingLimiter_fits_same hvalid hdenied hsame
  · by_cases hnext : later / policy.windowMs = now / policy.windowMs + 1
    · exact slidingLimiter_fits_next hvalid hdenied hnext
    · exact slidingLimiter_fits_beyond hvalid hdenied (by omega)

theorem slidingLimiter_retryExact (policy : WindowBasedPolicy) :
    (slidingLimiter policy).RetryExact Reply.allowed Reply.retryMs := by
  intro now later cost counts hvalid hle hdenied
  have hfull : ¬ estimated policy (now % policy.windowMs) counts + cost.value ≤ policy.limit := by
    intro hfits
    exact ne_true_of_eq_false hdenied ((countSliding_allowed policy).mpr hfits)
  have hretry : ((slidingLimiter policy).answer now cost counts).2.retryMs =
      retrySliding policy (now % policy.windowMs) cost counts := by
    simp only [slidingLimiter, countSliding, if_neg hfull]
  rw [hretry, ← le_sub_iff_add_le', ← slidingLimiter_fits_later policy hle hvalid hfull]
  simp only [slidingLimiter]
  rw [countSliding_allowed]

/-- From a refusal on, while nothing else on the key is admitted, the same call is refused
before the waiting time has passed and admitted afterwards, and the header is long enough. -/
def RetryAfterExact {limit : Int} {H : Type} (script : Script Int (Cost limit) H Reply) : Prop :=
  ∀ past between now later cost,
    ((past ++ Event.call now cost :: between ++ [Event.call later cost]).map Event.now).Pairwise
      (· ≤ ·) →
    (script.replyAfter past now cost).allowed = false →
    (∀ x ∈ script.machine.emitted
      (script.machine.after script.machine.init (past ++ [.call now cost])) between,
      x.reply.allowed = false) →
    ((script.replyAfter (past ++ .call now cost :: between) later cost).allowed = true ↔
      now + (script.replyAfter past now cost).retryMs ≤ later) ∧
    ∃ seconds : Int,
      (rejectionHeaders (rateLimitResult limit (script.replyAfter past now cost))).lookup
        "Retry-After" = some (toString seconds) ∧
      (now + 1000 * seconds ≤ later →
        (script.replyAfter (past ++ .call now cost :: between) later cost).allowed = true)

theorem retryAfterExact_of_limiter {limit : Int} {H V : Type}
    {script : Script Int (Cost limit) H Reply} {limiter : Limiter Int V (Cost limit) Reply}
    {read : Int → Option H → V} {fits : Int → H → Prop} (keeps : script.Keeps limiter read fits)
    (quiet : limiter.Quiet Reply.allowed)
    (hexact : limiter.RetryExact Reply.allowed Reply.retryMs) : RetryAfterExact script := by
  intro past between now later cost h hdenied hbetween
  have hretry := keeps.retry_exact quiet hexact h hdenied hbetween
  obtain ⟨seconds, hlong, hheader⟩ := @rejectionHeaders_denied limit _ hdenied
  refine ⟨hretry, seconds, hheader, fun hpassed => hretry.mpr ?_⟩
  omega

theorem retryAfter_exact (window : WindowBasedPolicy) (bucket : TokenBucketPolicy) :
    RetryAfterExact (fixedWindow window) ∧ RetryAfterExact (slidingWindow window) ∧
      RetryAfterExact (tokenBucket bucket) :=
  ⟨retryAfterExact_of_limiter (fixedWindow_keeps window) (fixedLimiter_quiet window)
      (fixedLimiter_retryExact window),
    retryAfterExact_of_limiter (slidingWindow_keeps window) (slidingLimiter_quiet window)
      (slidingLimiter_retryExact window),
    retryAfterExact_of_limiter (tokenBucket_keeps bucket) (everlastingBucket_quiet bucket)
      (everlastingBucket_retryExact bucket)⟩

theorem retryAfter_exact_refillPolicy :
    ((tokenBucket refillPolicy).replyAfter
        [.call 0 costTwo, .call 250 costOne, .call 400 costOne] 500 costOne).allowed = true ↔
      250 + ((tokenBucket refillPolicy).replyAfter [.call 0 costTwo] 250 costOne).retryMs ≤ 500 :=
  ((retryAfter_exact secondPolicy refillPolicy).2.2 [.call 0 costTwo] [.call 400 costOne] 250 500
    costOne (by decide) (by decide +kernel) (by decide +kernel)).1

end DddFramework.RateLimit
