import DddFramework.RateLimit.Http
import DddFramework.RateLimit.SlidingBurst

/-! What the requests that reach their endpoint cost in all. Under one rule and for one
identity it stays within the budget of the rule's policy, whatever the application's other
rules do on the same server and however requests overlap. -/
namespace DddFramework.RateLimit
open Library

/-- Readings and costs that a policy may let through: window by window, or between any two
instants. -/
def Budget (charges : List (Int × Int)) : RateLimitPolicy → Prop
  | .fixedWindow policy | .slidingWindow policy => ∀ windowId,
    tally Prod.snd (fun x : Int × Int => x.1 / policy.windowMs = windowId) charges ≤ policy.limit
  | .tokenBucket policy => ∀ start stop : Int, start ≤ stop →
    ((tally Prod.snd (fun x : Int × Int => start ≤ x.1 ∧ x.1 ≤ stop) charges : Int) : ℚ) ≤
      policy.capacity + policy.ratePerMs * ((stop - start : Int) : ℚ)

theorem Budget.sublist {charges fewer : List (Int × Int)} {policy : RateLimitPolicy}
    (h : Budget charges policy) (hcosts : ∀ x ∈ charges, 0 ≤ x.2) (hfewer : fewer.Sublist charges) :
    Budget fewer policy := by
  cases policy with
  | fixedWindow policy =>
    exact fun windowId => (tally_sublist hcosts hfewer).trans (h windowId)
  | slidingWindow policy =>
    exact fun windowId => (tally_sublist hcosts hfewer).trans (h windowId)
  | tokenBucket policy =>
    intro start stop hle
    refine le_trans ?_ (h start stop hle)
    exact_mod_cast tally_sublist hcosts hfewer

def Charge {limit : Int} (x : Entry limit) : Option (Int × Int) :=
  if x.reply.allowed then some (x.now, x.request.value) else none

theorem tally_charges {limit : Int} (p : Int → Prop) [DecidablePred p] (log : List (Entry limit)) :
    tally Prod.snd (fun x : Int × Int => p x.1) (log.filterMap Charge) =
      spent (fun x => p x.now) log := by
  apply tally_filterMap
  · intro x hx hboth
    simp [Charge, hboth.1] at hx
  · intro x charge hx
    simp only [Charge, Option.ite_none_right_eq_some, Option.some.injEq] at hx
    obtain ⟨hallowed, rfl⟩ := hx
    exact ⟨by simp [hallowed], rfl⟩

theorem charges_nonneg {limit : Int} (log : List (Entry limit)) :
    ∀ x ∈ log.filterMap Charge, 0 ≤ x.2 := by
  intro charge hcharge
  obtain ⟨x, -, hx⟩ := List.mem_filterMap.mp hcharge
  simp only [Charge, Option.ite_none_right_eq_some, Option.some.injEq] at hx
  rw [← hx.2]
  exact x.request.nonneg

theorem windowSpent_le_of_fits {policy : WindowBasedPolicy} {log : List (Entry policy.limit)}
    (h : ∀ earlier x later, log = earlier ++ x :: later → x.reply.allowed = true →
      windowSpent policy (x.now / policy.windowMs) earlier + x.request.value ≤ policy.limit)
    (windowId : Int) : windowSpent policy windowId log ≤ policy.limit := by
  induction log using List.reverseRecOn with
  | nil => exact policy.limit_pos.le
  | append_singleton log x ih =>
    have hbefore := ih fun earlier y later hsplit =>
      h earlier y (later ++ [x]) (by simp [hsplit])
    rw [windowSpent_concat]
    split
    · rename_i hspent
      rw [← hspent.2]
      exact h log x [] rfl hspent.1
    · rwa [add_zero]

theorem cast_spent {limit : Int} (p : Entry limit → Prop) [DecidablePred p]
    (log : List (Entry limit)) :
    ((spent p log : Int) : ℚ) =
      tally (fun x => (x.request.value : ℚ)) (fun x => x.reply.allowed = true ∧ p x) log := by
  have hcast := map_tally (fun x : Entry limit => x.request.value)
    (fun x => x.reply.allowed = true ∧ p x) (Int.castAddHom ℚ) log
  simp only [Int.coe_castAddHom] at hcast
  exact hcast

theorem aloneLog_budget (policy : RateLimitPolicy) {events : List (Call policy.limit)}
    (h : (events.map Event.now).Pairwise (· ≤ ·)) :
    Budget ((aloneLog policy events).filterMap Charge) policy := by
  cases policy with
  | fixedWindow policy =>
    intro windowId
    rw [tally_charges fun now => now / policy.windowMs = windowId]
    apply windowSpent_le_of_fits
    intro earlier x later hsplit hallowed
    rw [fixedWindow_reply h hsplit] at hallowed
    exact (countFixed_allowed policy).mp hallowed
  | slidingWindow policy =>
    intro windowId
    rw [tally_charges fun now => now / policy.windowMs = windowId]
    exact (slidingWindow_admissible h).windowSpent_le windowId
  | tokenBucket policy =>
    intro start stop hle
    rw [tally_charges fun now => start ≤ now ∧ now ≤ stop]
    have hvolume := (everlastingBucket_paid policy).volume_le policy.capacity_nonneg
      policy.ratePerMs_pos.le h hle
    rw [← (tokenBucket_keeps policy).emitted_eq h] at hvolume
    rw [cast_spent]
    exact hvolume

/-! Requests that are served. -/
section
variable {R E : Type*} {formatRate : ℚ → String} {sha256 : Digest} {limiterPrefix : String}
  {app : App R E}

def HttpEffect.served? : HttpEffect R E → Option Nat
  | .visit id (.responded .endpoint) => some id
  | _ => none

def servedRequests (log : List (HttpEffect R E)) : List Nat := log.filterMap HttpEffect.served?

/-- What a served request was charged under a key and a policy. -/
def servedCharge (served : List Nat) (key : String) (policy : RateLimitPolicy) :
    HttpEffect R E → Option (Int × Int)
  | .visit id (.asked now request _) =>
    if id ∈ served ∧ request.key = key ∧ request.policy = policy then some (now, request.cost)
    else none
  | _ => none

def HttpEffect.asked? : HttpEffect R E → Option (Int × Acquire × Except String RateLimitResult)
  | .visit _ (.asked now request result) => some (now, request, result)
  | _ => none

def LimiterEffect.returned? :
    LimiterEffect → Option (Int × Acquire × Except String RateLimitResult)
  | .returned now request result => some (now, request, result)
  | .served .. => none

def App.Uses (app : App R E) (used : Set RateLimitPolicy) : Prop :=
  (∀ middleware ∈ app.middlewares, middleware.rule.policy ∈ used) ∧
    ∀ scope, ∀ dependency ∈ app.dependencies scope, dependency.rule.policy ∈ used

theorem Rule.consult_eq_acquire {rule : Rule} {subject : String} {request : Acquire}
    (h : (rule.consult subject : Consult E) = .acquire request) : request.policy = rule.policy := by
  unfold Rule.consult at h
  split at h
  · cases h
  · rw [← Consult.acquire.inj h]

theorem App.consults_policy {used : Set RateLimitPolicy} (huses : app.Uses used) {scope : Scope R}
    {request : Acquire} (h : .acquire request ∈ app.consults scope) : request.policy ∈ used := by
  rcases List.mem_append.mp h with h | h
  · obtain ⟨middleware, hmem, hconsult⟩ := List.mem_map.mp h
    have hpolicy := huses.1 middleware hmem
    unfold RateLimitMiddleware.consult at hconsult
    split at hconsult
    · cases hconsult
    · split at hconsult
      · cases hconsult
      · split at hconsult
        · cases hconsult
        · rwa [Rule.consult_eq_acquire hconsult]
  · obtain ⟨dependency, hmem, hconsult⟩ := List.mem_map.mp h
    have hpolicy := huses.2 scope dependency hmem
    unfold RateLimitDependency.consult at hconsult
    split at hconsult
    · cases hconsult
    · split at hconsult
      · cases hconsult
      · rwa [Rule.consult_eq_acquire hconsult]

theorem Visit.called_eq_some {state : Visit E} {request : Acquire}
    (h : state.called = some request) :
    ∃ guards, state = .waiting (.acquire request :: guards) := by
  unfold Visit.called at h
  split at h
  · obtain rfl := Option.some.inj h
    exact ⟨_, rfl⟩
  · cases h

theorem called_policy {used : Set RateLimitPolicy} (huses : app.Uses used)
    {log : List (VisitEffect R E)} {state : Visit E} (hseen : Seen app log state)
    {request : Acquire} (h : state.called = some request) : request.policy ∈ used := by
  obtain ⟨guards, rfl⟩ := Visit.called_eq_some h
  cases hseen with
  | waiting hguards =>
    apply app.consults_policy huses
    rw [hguards]
    simp

theorem passed_policy {used : Set RateLimitPolicy} (huses : app.Uses used)
    (inputs : List (HttpInput R)) :
    ∀ input ∈ (limiterLayer formatRate sha256 limiterPrefix app).passed
      (http formatRate sha256 limiterPrefix app).init inputs,
      ∀ found ∈ input.policy?, found ∈ used := by
  intro input hinput found hfound
  obtain ⟨past, step, rest, -, hstep⟩ := (limiterLayer ..).mem_passed.mp hinput
  generalize hstate : (http formatRate sha256 limiterPrefix app).after _ past = state at hstep
  have hcalled : ∀ now id, input ∈ ((state.visit id).called.map (LimiterInput.acquire now)).toList →
      found ∈ used := by
    intro now id hmem
    obtain ⟨request, hrequest, rfl⟩ := Option.map_eq_some_iff.mp (Option.mem_toList.mp hmem)
    obtain rfl := Option.some.inj hfound
    have hview := (visitLayer formatRate sha256 limiterPrefix app id).view_run past
    rw [hstate] at hview
    exact called_policy huses (hview ▸ visit_seen app _) hrequest
  cases step with
  | expiry redisKey now =>
    obtain rfl := List.mem_singleton.mp hstep
    cases hfound
  | arrive now scope => cases hstep
  | cancel now id => cases hstep
  | advance now id => exact hcalled now id hstep
  | abandon now id => exact hcalled now id hstep

theorem advance_asked (state : Visit E) (now : Int)
    (answer : Acquire → Except String RateLimitResult) (id : Nat) :
    ((state.advance (R := R) now answer).2.map (HttpEffect.visit id)).filterMap
        HttpEffect.asked? =
      (state.called.map fun request => (now, request, answer request)).toList := by
  match state with
  | .absent | .done | .waiting [] | .waiting (.exempt :: _) | .waiting (.raised _ :: _) => rfl
  | .waiting (.acquire request :: guards) =>
    simp only [Visit.advance, Visit.called]
    cases hanswer : answer request with
    | error message => simp [HttpEffect.asked?, List.filterMap_cons, hanswer]
    | ok result =>
      cases hallowed : result.allowed <;>
        simp [HttpEffect.asked?, List.filterMap_cons, hanswer, hallowed]

theorem limiterStep_returned (store : String → Option (Expiring Int RedisHash)) (now : Int)
    (request : Acquire) :
    (limiterStep formatRate sha256 limiterPrefix store (.acquire now request)).2.filterMap
        LimiterEffect.returned? =
      [(now, request, RateLimit.acquire formatRate sha256 limiterPrefix store now request)] := by
  have hserved : LimiterEffect.returned? ∘
      (fun reply : String × Served Int ScriptRun Reply => .served reply.1 reply.2) =
        fun _ => none := rfl
  simp only [limiterStep, List.filterMap_append, List.filterMap_map, hserved,
    List.filterMap_none, List.nil_append]
  rfl

theorem asked_sublist_step (state : HttpState E) (input : HttpInput R) :
    (((http formatRate sha256 limiterPrefix app).step state input).2.filterMap
        HttpEffect.asked?).Sublist
      ((((http formatRate sha256 limiterPrefix app).step state input).2.filterMap
        HttpEffect.limiter?).filterMap LimiterEffect.returned?) := by
  have hheard : ((http formatRate sha256 limiterPrefix app).step state input).2.filterMap
      HttpEffect.limiter? = (redisRateLimiter formatRate sha256 limiterPrefix).emitted state.store
        (sentToLimiter state input) :=
    (limiterLayer formatRate sha256 limiterPrefix app).heard_step state input
  have hlimiter : (HttpEffect.asked? : HttpEffect R E → _) ∘ .limiter = fun _ => none := rfl
  rw [hheard]
  simp only [http, List.filterMap_append, List.filterMap_map, hlimiter, List.filterMap_none,
    List.nil_append]
  cases input with
  | expiry redisKey now => exact List.nil_sublist _
  | arrive now scope => exact List.nil_sublist _
  | abandon now id => exact List.nil_sublist _
  | cancel now id => exact List.nil_sublist _
  | advance now id =>
    have hasked := advance_asked (R := R) (state.visit id) now
      (RateLimit.acquire formatRate sha256 limiterPrefix state.store now) id
    rw [List.filterMap_map] at hasked
    simp only [stepVisits, sentToLimiter, List.filterMap_map]
    change (List.filterMap (HttpEffect.asked? ∘ HttpEffect.visit id) _).Sublist _
    rw [hasked]
    cases (state.visit id).called with
    | none => exact List.nil_sublist _
    | some request =>
      have hreturned := @limiterStep_returned formatRate sha256 limiterPrefix state.store now
        request
      simp only [Option.map_some, Option.toList_some, Machine.emitted, List.append_nil]
      change List.Sublist _ (List.filterMap _
        (limiterStep formatRate sha256 limiterPrefix state.store (.acquire now request)).2)
      rw [hreturned]

theorem asked_sublist (state : HttpState E) (inputs : List (HttpInput R)) :
    (((http formatRate sha256 limiterPrefix app).emitted state inputs).filterMap
        HttpEffect.asked?).Sublist
      ((((http formatRate sha256 limiterPrefix app).emitted state inputs).filterMap
        HttpEffect.limiter?).filterMap LimiterEffect.returned?) := by
  induction inputs generalizing state with
  | nil => exact .slnil
  | cons input inputs ih =>
    simp only [Machine.emitted, List.filterMap_append]
    exact (asked_sublist_step state input).append (ih _)

def admittedCharge (key : String) (policy : RateLimitPolicy) :
    Int × Acquire × Except String RateLimitResult → Option (Int × Int)
  | (now, request, .ok result) =>
    if request.key = key ∧ request.policy = policy ∧ result.allowed then some (now, request.cost)
    else none
  | _ => none

theorem filterMap_sublist {α β : Type*} {f g : α → Option β} {xs : List α}
    (h : ∀ x ∈ xs, ∀ y, f x = some y → g x = some y) :
    (xs.filterMap f).Sublist (xs.filterMap g) := by
  induction xs with
  | nil => exact .slnil
  | cons x xs ih =>
    rw [List.forall_mem_cons] at h
    cases hx : f x with
    | none =>
      rw [List.filterMap_cons_none hx]
      exact (ih h.2).trans ((List.sublist_cons_self x xs).filterMap g)
    | some y =>
      rw [List.filterMap_cons_some hx, List.filterMap_cons_some (h.1 y hx)]
      exact (ih h.2).cons_cons y

theorem servedCharge_admitted {inputs : List (HttpInput R)} {key : String}
    {policy : RateLimitPolicy} {log : List (HttpEffect R E)}
    (hlog : (http formatRate sha256 limiterPrefix app).emitted
      (http formatRate sha256 limiterPrefix app).init inputs = log) :
    ∀ effect ∈ log, ∀ charge, servedCharge (servedRequests log) key policy effect = some charge →
      effect.asked?.bind (admittedCharge key policy) = some charge := by
  intro effect heffect charge hcharge
  unfold servedCharge at hcharge
  split at hcharge
  · rename_i id now request result
    split at hcharge
    · rename_i hserved
      have hadmission := @request_admission _ _ formatRate sha256 limiterPrefix app inputs id
      rw [hlog] at hadmission
      have hendpoint : .responded .endpoint ∈ log.filterMap (HttpEffect.ofRequest id) := by
        obtain ⟨effect, hmem, hid⟩ := List.mem_filterMap.mp hserved.1
        unfold HttpEffect.served? at hid
        split at hid
        · obtain rfl := Option.some.inj hid
          exact List.mem_filterMap.mpr ⟨_, hmem, if_pos rfl⟩
        · cases hid
      obtain ⟨-, -, -, -, hadmitted⟩ := hadmission.endpoint hendpoint
      have hasked : (request, result) ∈
          (log.filterMap (HttpEffect.ofRequest id)).filterMap VisitEffect.asked? :=
        List.mem_filterMap.mpr
          ⟨_, List.mem_filterMap.mpr ⟨_, heffect, if_pos rfl⟩, rfl⟩
      obtain ⟨admitted, rfl, hallowed⟩ := hadmitted _ hasked
      rw [← hcharge]
      simp [HttpEffect.asked?, admittedCharge, hserved.2.1, hserved.2.2, hallowed]
    · cases hcharge
  · cases hcharge

def toldCharge : Int × Int × RateLimitResult → Option (Int × Int)
  | (now, cost, result) => if result.allowed then some (now, cost) else none

theorem admittedCharge_told {used : Set RateLimitPolicy}
    (hversions : VersionsDiffer formatRate sha256 used) {key : String} {policy : RateLimitPolicy}
    (hpolicy : policy ∈ used) {inputs : List LimiterInput}
    (hinputs : ∀ input ∈ inputs, ∀ found ∈ input.policy?, found ∈ used) :
    (((redisRateLimiter formatRate sha256 limiterPrefix).emitted
        (redisRateLimiter formatRate sha256 limiterPrefix).init inputs).filterMap
        LimiterEffect.returned?).filterMap (admittedCharge key policy) =
      (aloneLog policy
        (inputs.filterMap (ownCall formatRate sha256 limiterPrefix key policy))).filterMap
        Charge := by
  have htold : ∀ effect : LimiterEffect,
      effect.returned?.bind (admittedCharge key policy) =
        (ownResult key policy effect).bind toldCharge := by
    intro effect
    cases effect with
    | served redisKey entry => rfl
    | returned now request result =>
      cases result with
      | error message => rfl
      | ok result =>
        by_cases hsame : request.key = key ∧ request.policy = policy <;>
          cases hallowed : result.allowed <;>
            simp [LimiterEffect.returned?, admittedCharge, ownResult, toldCharge, hsame, hallowed]
  rw [List.filterMap_filterMap]
  simp only [htold]
  rw [← List.filterMap_filterMap, acquire_isolated hversions hpolicy hinputs, List.filterMap_map]
  rfl

theorem ownCall_now {key : String} {policy : RateLimitPolicy} {input : LimiterInput}
    {event : Call policy.limit}
    (h : ownCall formatRate sha256 limiterPrefix key policy input = some event) :
    event.now = input.now := by
  unfold ownCall at h
  split at h
  · split at h
    · rw [← Option.some.inj h]
      rfl
    · cases h
  · split at h
    · split at h
      · cases h
      · rw [← Option.some.inj h]
        rfl
    · cases h

/-- In a run whose readings of the server's clock never decrease, the requests that reach
their endpoint were charged, under any key and policy, no more than the policy's budget. -/
theorem served_within_budget {used : Set RateLimitPolicy}
    (hversions : VersionsDiffer formatRate sha256 used) (huses : app.Uses used)
    {inputs : List (HttpInput R)} (hordered : (inputs.map HttpInput.now).Pairwise (· ≤ ·))
    {log : List (HttpEffect R E)}
    (hlog : (http formatRate sha256 limiterPrefix app).emitted
      (http formatRate sha256 limiterPrefix app).init inputs = log)
    {policy : RateLimitPolicy} (hpolicy : policy ∈ used) (key : String) :
    Budget (log.filterMap (servedCharge (servedRequests log) key policy)) policy := by
  have hpassed := @passed_policy _ _ formatRate sha256 limiterPrefix app used huses inputs
  have hclock : (((limiterLayer formatRate sha256 limiterPrefix app).passed
      (http formatRate sha256 limiterPrefix app).init inputs).map LimiterInput.now).Pairwise
        (· ≤ ·) := by
    apply (limiterLayer formatRate sha256 limiterPrefix app).passed_ordered _ hordered
    intro state input x hx
    cases input with
    | expiry redisKey now => rw [List.mem_singleton.mp hx]; rfl
    | arrive now scope => cases hx
    | cancel now id => cases hx
    | advance now id =>
      obtain ⟨request, -, rfl⟩ := Option.map_eq_some_iff.mp (Option.mem_toList.mp hx)
      rfl
    | abandon now id =>
      obtain ⟨request, -, rfl⟩ := Option.map_eq_some_iff.mp (Option.mem_toList.mp hx)
      rfl
  have hasked : (log.filterMap HttpEffect.asked?).Sublist
      ((log.filterMap HttpEffect.limiter?).filterMap LimiterEffect.returned?) := by
    rw [← hlog]
    exact asked_sublist _ inputs
  have hlimiter : log.filterMap HttpEffect.limiter? =
      (redisRateLimiter formatRate sha256 limiterPrefix).emitted
        (redisRateLimiter formatRate sha256 limiterPrefix).init
          ((limiterLayer formatRate sha256 limiterPrefix app).passed
            (http formatRate sha256 limiterPrefix app).init inputs) := by
    rw [← hlog]
    exact (limiterLayer formatRate sha256 limiterPrefix app).heard_run inputs
  have hadmitted := hasked.filterMap (admittedCharge key policy)
  rw [hlimiter, admittedCharge_told hversions hpolicy hpassed, List.filterMap_filterMap]
    at hadmitted
  refine (aloneLog_budget policy ?_).sublist (charges_nonneg _)
    ((filterMap_sublist (servedCharge_admitted hlog)).trans hadmitted)
  rw [List.pairwise_map] at hclock ⊢
  apply hclock.filterMap
  intro input later hle event hevent next hnext
  rwa [ownCall_now hevent, ownCall_now hnext]
end

def loginApp : App String Unit where
  configured := true
  middlewares := [⟨⟨"login", .fixedWindow secondPolicy, 1, rfl⟩, fun scope => .ok scope.rest, []⟩]
  dependencies _ :=
    [⟨⟨"login", .slidingWindow secondPolicy, 1, rfl⟩, fun scope => .ok scope.rest⟩]

def aliceLogin : Scope String := ⟨"http", some "POST", some "/login", "alice"⟩

def threeLogins : List (HttpInput String) :=
  [.arrive 0 aliceLogin, .arrive 0 aliceLogin, .arrive 0 aliceLogin, .advance 0 0, .advance 0 1,
    .advance 10 2, .advance 20 0, .advance 20 1, .advance 20 1, .advance 30 0]

def threeLoginsLog : List (HttpEffect String Unit) :=
  (http (fun _ => "") secondDigest "ddf" loginApp).emitted
    (http (fun _ => "") secondDigest "ddf" loginApp).init threeLogins

theorem served_within_budget_login :
    threeLoginsLog.filterMap (servedCharge (servedRequests threeLoginsLog) "5:login:5:alice"
      (.fixedWindow secondPolicy)) = [(0, 1), (0, 1)] ∧
    Budget (threeLoginsLog.filterMap (servedCharge (servedRequests threeLoginsLog)
      "5:login:5:alice" (.fixedWindow secondPolicy))) (.fixedWindow secondPolicy) := by
  have huses : loginApp.Uses bothPolicies := by
    simp [App.Uses, loginApp, bothPolicies]
  refine ⟨by decide +kernel, ?_⟩
  exact served_within_budget bothPolicies_differ huses (by decide) rfl (.inl rfl) _

end DddFramework.RateLimit
