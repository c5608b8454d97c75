import DddFramework.Library.Hosting
import DddFramework.Library.Layers
import DddFramework.RateLimit.Keys
import DddFramework.RateLimit.Refusals

/-! One Redis for all rules. A key holds a hash, and any of the three scripts may run on
any key, reading the fields it knows and leaving the others. `RedisRateLimiter.acquire`
gives the calls of different rules, identities and bounds different keys, so that each
of them is served by its own script as if nobody else used the server. -/
namespace DddFramework.RateLimit
open Library

deriving instance DecidableEq for WindowBasedPolicy, TokenBucketPolicy, RateLimitPolicy,
  RateLimitResult

def RateLimitPolicy.limit : RateLimitPolicy → Int
  | .tokenBucket policy => policy.capacity
  | .slidingWindow policy => policy.limit
  | .fixedWindow policy => policy.limit

/-- The fields of a hash. Two scripts share `window_id`; `current` and `previous` are always
set together, and so are `tokens` and `updated_at`. -/
structure RedisHash where
  windowId : Option Int
  count : Option Int
  counts : Option Counts
  bucket : Option BucketHash

def RedisHash.empty : RedisHash := ⟨none, none, none, none⟩

structure ScriptRun where
  policy : RateLimitPolicy
  cost : Cost policy.limit

/-- `HMGET window_id count`. Without a window the count is not used. -/
def readFixedHash (hash : RedisHash) : Option FixedHash :=
  hash.windowId.map fun windowId => ⟨windowId, hash.count.getD 0⟩

def readSlidingHash (hash : RedisHash) : Option SlidingHash :=
  hash.windowId.map fun windowId => ⟨windowId, hash.counts.getD ⟨0, 0⟩⟩

def runScript : Script Int ScriptRun RedisHash Reply := fun now run stored =>
  let hash := stored.getD .empty
  match run with
  | ⟨.fixedWindow policy, cost⟩ =>
    let write := fixedWindow policy now cost (stored.bind readFixedHash)
    ⟨{ hash with windowId := some write.value.windowId, count := some write.value.count },
      write.deadline, write.reply⟩
  | ⟨.slidingWindow policy, cost⟩ =>
    let write := slidingWindow policy now cost (stored.bind readSlidingHash)
    ⟨{ hash with windowId := some write.value.windowId, counts := some write.value.counts },
      write.deadline, write.reply⟩
  | ⟨.tokenBucket policy, cost⟩ =>
    let write := tokenBucket policy now cost (stored.bind RedisHash.bucket)
    ⟨{ hash with bucket := some write.value }, write.deadline, write.reply⟩

def redis : Machine (String → Option (Expiring Int RedisHash)) (String × Event Int ScriptRun)
    (String × Served Int ScriptRun Reply) :=
  Machine.keyed fun _ => runScript.machine

theorem hosts_fixedWindow (policy : WindowBasedPolicy) :
    runScript.Hosts (fixedWindow policy) (ScriptRun.mk (.fixedWindow policy)) readFixedHash :=
  ⟨fun _ _ _ => rfl, fun _ _ _ => rfl, fun _ _ _ => rfl⟩

theorem hosts_slidingWindow (policy : WindowBasedPolicy) :
    runScript.Hosts (slidingWindow policy) (ScriptRun.mk (.slidingWindow policy))
      readSlidingHash :=
  ⟨fun _ _ _ => rfl, fun _ _ _ => rfl, fun _ _ _ => rfl⟩

theorem hosts_tokenBucket (policy : TokenBucketPolicy) :
    runScript.Hosts (tokenBucket policy) (ScriptRun.mk (.tokenBucket policy))
      RedisHash.bucket :=
  ⟨fun _ _ _ => rfl, fun _ _ _ => rfl, fun _ _ _ => rfl⟩

def aloneLog : (policy : RateLimitPolicy) → List (Call policy.limit) → List (Entry policy.limit)
  | .fixedWindow policy, events =>
    (fixedWindow policy).machine.emitted (fixedWindow policy).machine.init events
  | .slidingWindow policy, events =>
    (slidingWindow policy).machine.emitted (slidingWindow policy).machine.init events
  | .tokenBucket policy, events =>
    (tokenBucket policy).machine.emitted (tokenBucket policy).machine.init events

theorem runScript_alone (policy : RateLimitPolicy) (events : List (Call policy.limit)) :
    runScript.machine.emitted runScript.machine.init
        (events.map (Event.map (ScriptRun.mk policy))) =
      (aloneLog policy events).map (Served.map (ScriptRun.mk policy)) := by
  cases policy with
  | fixedWindow policy => exact (hosts_fixedWindow policy).emitted_eq events
  | slidingWindow policy => exact (hosts_slidingWindow policy).emitted_eq events
  | tokenBucket policy => exact (hosts_tokenBucket policy).emitted_eq events

theorem redis_alone {inputs : List (String × Event Int ScriptRun)} {key : String}
    {policy : RateLimitPolicy} {events : List (Call policy.limit)}
    (h : inputs.filterMap (atKey key) = events.map (Event.map (ScriptRun.mk policy))) :
    (redis.emitted redis.init inputs).filterMap (atKey key) =
      (aloneLog policy events).map (Served.map (ScriptRun.mk policy)) := by
  have hkey := (keyedLayer (fun _ : String => runScript.machine) key).heard_run inputs
  rw [keyedLayer_passed, h, runScript_alone] at hkey
  exact hkey

/-! The calls of one limiter. -/

structure Acquire where
  key : String
  policy : RateLimitPolicy
  cost : Int
deriving DecidableEq

inductive LimiterInput where
  | expiry (redisKey : String) (now : Int)
  | acquire (now : Int) (request : Acquire)

def LimiterInput.now : LimiterInput → Int
  | .expiry _ now => now
  | .acquire now _ => now

inductive LimiterEffect where
  | served (redisKey : String) (served : Served Int ScriptRun Reply)
  | returned (now : Int) (request : Acquire) (result : Except String RateLimitResult)

section
variable (formatRate : ℚ → String) (sha256 : Digest) (limiterPrefix : String)

def prepareAcquire (request : Acquire) : Except String (String × ScriptRun) :=
  if request.key.isEmpty then .error "key must be a non-empty string"
  else
    match checkCost request.policy.limit request.cost with
    | .error message => .error message
    | .ok cost =>
      .ok (redisKey sha256 limiterPrefix request.key
        (prepareScriptCall formatRate request.policy request.cost), ⟨request.policy, cost⟩)

def acquire (state : String → Option (Expiring Int RedisHash)) (now : Int) (request : Acquire) :
    Except String RateLimitResult :=
  match prepareAcquire formatRate sha256 limiterPrefix request with
  | .error message => .error message
  | .ok (redisKey, run) =>
    .ok (rateLimitResult run.policy.limit
      (runScript now run (Expiring.live now (state redisKey))).reply)

def sentToRedis : LimiterInput → List (String × Event Int ScriptRun)
  | .expiry redisKey now => [(redisKey, .tick now)]
  | .acquire now request =>
    match prepareAcquire formatRate sha256 limiterPrefix request with
    | .error _ => []
    | .ok (redisKey, run) => [(redisKey, .call now run)]

def limiterStep (state : String → Option (Expiring Int RedisHash)) (input : LimiterInput) :
    (String → Option (Expiring Int RedisHash)) × List LimiterEffect :=
  let sent := sentToRedis formatRate sha256 limiterPrefix input
  (redis.after state sent,
    (redis.emitted state sent).map (fun reply => .served reply.1 reply.2) ++
      match input with
      | .expiry .. => []
      | .acquire now request =>
        [.returned now request (acquire formatRate sha256 limiterPrefix state now request)])

def redisRateLimiter : Machine (String → Option (Expiring Int RedisHash)) LimiterInput
    LimiterEffect where
  init := redis.init
  step := limiterStep formatRate sha256 limiterPrefix
end

section
variable {formatRate : ℚ → String} {sha256 : Digest} {limiterPrefix : String}

def LimiterEffect.served? : LimiterEffect → Option (String × Served Int ScriptRun Reply)
  | .served redisKey entry => some (redisKey, entry)
  | .returned .. => none

def redisLayer (formatRate : ℚ → String) (sha256 : Digest) (limiterPrefix : String) :
    Layer (redisRateLimiter formatRate sha256 limiterPrefix) redis where
  view := id
  down _ := sentToRedis formatRate sha256 limiterPrefix
  heard := LimiterEffect.served?
  view_init := rfl
  view_step _ _ := rfl
  heard_step state input := by
    have hserved : LimiterEffect.served? ∘
        (fun reply : String × Served Int ScriptRun Reply => .served reply.1 reply.2) = some := rfl
    change (limiterStep formatRate sha256 limiterPrefix state input).2.filterMap _ = _
    unfold limiterStep
    rw [List.filterMap_append, List.filterMap_map, hserved, List.filterMap_some]
    cases input <;> simp [LimiterEffect.served?]

def ownKey (formatRate : ℚ → String) (sha256 : Digest) (limiterPrefix key : String)
    (policy : RateLimitPolicy) : String :=
  redisKey sha256 limiterPrefix key (prepareScriptCall formatRate policy 1)

/-- The versions in the keys tell the policies in use apart. -/
def VersionsDiffer (formatRate : ℚ → String) (sha256 : Digest) (used : Set RateLimitPolicy) :
    Prop :=
  Set.InjOn (fun policy => sha256.version (prepareScriptCall formatRate policy 1).identity) used

theorem redisKey_cost (key : String) (policy : RateLimitPolicy) (cost : Int) :
    redisKey sha256 limiterPrefix key (prepareScriptCall formatRate policy cost) =
      ownKey formatRate sha256 limiterPrefix key policy := by
  rw [ownKey, redisKey, redisKey, identity_cost formatRate policy cost 1]

theorem ownKey_inj {used : Set RateLimitPolicy}
    (hversions : VersionsDiffer formatRate sha256 used) {key other : String}
    {policy found : RateLimitPolicy} (hpolicy : policy ∈ used) (hfound : found ∈ used)
    (h : ownKey formatRate sha256 limiterPrefix other found =
      ownKey formatRate sha256 limiterPrefix key policy) : other = key ∧ found = policy := by
  obtain ⟨hversion, hkey⟩ := redisKey_inj sha256 h
  exact ⟨hkey, hversions hfound hpolicy hversion⟩

theorem prepareAcquire_eq_ok {request : Acquire} {key : String} {run : ScriptRun}
    (h : prepareAcquire formatRate sha256 limiterPrefix request = .ok (key, run)) :
    key = ownKey formatRate sha256 limiterPrefix request.key request.policy ∧
      run.policy = request.policy ∧ run.cost.value = request.cost := by
  unfold prepareAcquire at h
  split at h
  · cases h
  · split at h
    · cases h
    · rename_i cost hcost
      obtain ⟨rfl, rfl⟩ := Prod.mk.inj (Except.ok.inj h)
      exact ⟨redisKey_cost .., rfl, checkCost_eq_ok.mp hcost⟩

/-- The inputs that concern one caller's key and policy, as calls of the policy's script. -/
def ownCall (formatRate : ℚ → String) (sha256 : Digest) (limiterPrefix key : String)
    (policy : RateLimitPolicy) : LimiterInput → Option (Call policy.limit)
  | .expiry redisKey now =>
    if redisKey = ownKey formatRate sha256 limiterPrefix key policy then some (.tick now) else none
  | .acquire now request =>
    if request.key = key ∧ request.policy = policy ∧ ¬ key.isEmpty then
      match checkCost policy.limit request.cost with
      | .error _ => none
      | .ok cost => some (.call now cost)
    else none

def LimiterInput.policy? : LimiterInput → Option RateLimitPolicy
  | .expiry .. => none
  | .acquire _ request => some request.policy

theorem sentToRedis_ownKey {used : Set RateLimitPolicy}
    (hversions : VersionsDiffer formatRate sha256 used) {key : String} {policy : RateLimitPolicy}
    (hpolicy : policy ∈ used) {input : LimiterInput}
    (hinput : ∀ found ∈ input.policy?, found ∈ used) :
    (sentToRedis formatRate sha256 limiterPrefix input).filterMap
        (atKey (ownKey formatRate sha256 limiterPrefix key policy)) =
      (ownCall formatRate sha256 limiterPrefix key policy input).toList.map
        (Event.map (ScriptRun.mk policy)) := by
  cases input with
  | expiry redisKey now =>
    by_cases hkey : redisKey = ownKey formatRate sha256 limiterPrefix key policy <;>
      simp [sentToRedis, ownCall, atKey, hkey, Event.map]
  | acquire now request =>
    obtain ⟨other, found, cost⟩ := request
    have hown : ownKey formatRate sha256 limiterPrefix other found =
        ownKey formatRate sha256 limiterPrefix key policy ↔ other = key ∧ found = policy :=
      ⟨ownKey_inj hversions hpolicy (hinput found rfl), fun h => by rw [h.1, h.2]⟩
    by_cases hsame : other = key ∧ found = policy
    · obtain ⟨rfl, rfl⟩ := hsame
      simp only [sentToRedis, ownCall, prepareAcquire, redisKey_cost]
      by_cases hempty : other.isEmpty = true
      · simp [hempty]
      · cases checkCost found.limit cost <;> simp [hempty, atKey, Event.map]
    · have hnone : ownCall formatRate sha256 limiterPrefix key policy
          (.acquire now ⟨other, found, cost⟩) = none :=
        if_neg fun h => hsame ⟨h.1, h.2.1⟩
      rw [hnone]
      simp only [sentToRedis]
      split
      · rfl
      · rename_i sent run hprepare
        have hkey := (prepareAcquire_eq_ok hprepare).1
        have hother : sent ≠ ownKey formatRate sha256 limiterPrefix key policy := by
          rw [hkey, Ne, hown]
          exact hsame
        simp [atKey, hother]

/-- What callers with this key and policy are told: when, for what cost, and the result. -/
def ownResult (key : String) (policy : RateLimitPolicy) :
    LimiterEffect → Option (Int × Int × RateLimitResult)
  | .returned now request (.ok result) =>
    if request.key = key ∧ request.policy = policy then some (now, request.cost, result) else none
  | _ => none

def told (policy : RateLimitPolicy) (entry : Entry policy.limit) : Int × Int × RateLimitResult :=
  (entry.now, entry.request.value, rateLimitResult policy.limit entry.reply)

def toldRun (entry : Served Int ScriptRun Reply) : Int × Int × RateLimitResult :=
  (entry.now, entry.request.cost.value,
    rateLimitResult entry.request.policy.limit entry.reply)

theorem ownResult_step {used : Set RateLimitPolicy}
    (hversions : VersionsDiffer formatRate sha256 used) {key : String} {policy : RateLimitPolicy}
    (hpolicy : policy ∈ used) {input : LimiterInput}
    (hinput : ∀ found ∈ input.policy?, found ∈ used)
    (state : String → Option (Expiring Int RedisHash)) :
    (limiterStep formatRate sha256 limiterPrefix state input).2.filterMap
        (ownResult key policy) =
      (((limiterStep formatRate sha256 limiterPrefix state input).2.filterMap
        LimiterEffect.served?).filterMap
          (atKey (ownKey formatRate sha256 limiterPrefix key policy))).map toldRun := by
  cases input with
  | expiry redisKey now => rfl
  | acquire now request =>
    simp only [limiterStep, sentToRedis, acquire]
    split
    · rfl
    · rename_i sent run hprepare
      obtain ⟨rfl, hrun, hcost⟩ := prepareAcquire_eq_ok hprepare
      simp only [redis, Machine.emitted, Machine.keyed, Script.step_call, List.map_cons,
        List.map_nil, List.append_nil, List.cons_append, List.nil_append]
      by_cases hsame : request.key = key ∧ request.policy = policy
      · simp [List.filterMap_cons, ownResult, LimiterEffect.served?, atKey, toldRun, hsame, hcost]
      · have hother : ownKey formatRate sha256 limiterPrefix request.key request.policy ≠
            ownKey formatRate sha256 limiterPrefix key policy :=
          fun h => hsame (ownKey_inj hversions hpolicy (hinput _ rfl) h)
        simp [List.filterMap_cons, ownResult, LimiterEffect.served?, atKey, hsame, hother]

theorem ownResult_emitted {used : Set RateLimitPolicy}
    (hversions : VersionsDiffer formatRate sha256 used) {key : String} {policy : RateLimitPolicy}
    (hpolicy : policy ∈ used) {inputs : List LimiterInput}
    (hinputs : ∀ input ∈ inputs, ∀ found ∈ input.policy?, found ∈ used)
    (state : String → Option (Expiring Int RedisHash)) :
    ((redisRateLimiter formatRate sha256 limiterPrefix).emitted state inputs).filterMap
        (ownResult key policy) =
      ((((redisRateLimiter formatRate sha256 limiterPrefix).emitted state inputs).filterMap
        LimiterEffect.served?).filterMap
          (atKey (ownKey formatRate sha256 limiterPrefix key policy))).map toldRun := by
  induction inputs generalizing state with
  | nil => rfl
  | cons input inputs ih =>
    rw [List.forall_mem_cons] at hinputs
    simp only [Machine.emitted, List.filterMap_append, List.map_append]
    rw [ih hinputs.2]
    congr 1
    exact ownResult_step hversions hpolicy hinputs.1 state

theorem passed_ownKey {used : Set RateLimitPolicy}
    (hversions : VersionsDiffer formatRate sha256 used) {key : String} {policy : RateLimitPolicy}
    (hpolicy : policy ∈ used) {inputs : List LimiterInput}
    (hinputs : ∀ input ∈ inputs, ∀ found ∈ input.policy?, found ∈ used) :
    (inputs.flatMap (sentToRedis formatRate sha256 limiterPrefix)).filterMap
        (atKey (ownKey formatRate sha256 limiterPrefix key policy)) =
      (inputs.filterMap (ownCall formatRate sha256 limiterPrefix key policy)).map
        (Event.map (ScriptRun.mk policy)) := by
  induction inputs with
  | nil => rfl
  | cons input inputs ih =>
    rw [List.forall_mem_cons] at hinputs
    rw [List.flatMap_cons, List.filterMap_append, ih hinputs.2,
      sentToRedis_ownKey hversions hpolicy hinputs.1]
    cases hcall : ownCall formatRate sha256 limiterPrefix key policy input <;> simp [hcall]

/-- Callers with one key and one policy are told what the policy's script would tell them
if it alone ran, whatever other keys, policies and scripts the server is used for. -/
theorem acquire_isolated {used : Set RateLimitPolicy}
    (hversions : VersionsDiffer formatRate sha256 used) {key : String} {policy : RateLimitPolicy}
    (hpolicy : policy ∈ used) {inputs : List LimiterInput}
    (hinputs : ∀ input ∈ inputs, ∀ found ∈ input.policy?, found ∈ used) :
    ((redisRateLimiter formatRate sha256 limiterPrefix).emitted
        (redisRateLimiter formatRate sha256 limiterPrefix).init inputs).filterMap
        (ownResult key policy) =
      (aloneLog policy
        (inputs.filterMap (ownCall formatRate sha256 limiterPrefix key policy))).map
        (told policy) := by
  have hserved : ((redisRateLimiter formatRate sha256 limiterPrefix).emitted
      (redisRateLimiter formatRate sha256 limiterPrefix).init inputs).filterMap
        LimiterEffect.served? =
      redis.emitted redis.init (inputs.flatMap (sentToRedis formatRate sha256 limiterPrefix)) := by
    have hrun := (redisLayer formatRate sha256 limiterPrefix).heard_run inputs
    rwa [(redisLayer formatRate sha256 limiterPrefix).passed_eq_flatMap
      (f := sentToRedis formatRate sha256 limiterPrefix) fun _ _ => rfl] at hrun
  have halone := redis_alone
    (@passed_ownKey formatRate sha256 limiterPrefix used hversions key policy hpolicy _ hinputs)
  rw [ownResult_emitted hversions hpolicy hinputs, hserved, halone, List.map_map]
  rfl
end

def bothWindows : List LimiterInput :=
  [.acquire 0 ⟨"alice", .fixedWindow secondPolicy, 2⟩,
    .acquire 10 ⟨"alice", .slidingWindow secondPolicy, 1⟩,
    .acquire 20 ⟨"alice", .fixedWindow secondPolicy, 1⟩]

def bothPolicies : Set RateLimitPolicy :=
  {.fixedWindow secondPolicy, .slidingWindow secondPolicy}

theorem bothPolicies_differ : VersionsDiffer (fun _ => "") secondDigest bothPolicies := by
  have hne : secondDigest.version "fixed_window.lua:2:1000" ≠
      secondDigest.version "sliding_window.lua:2:1000" := by decide +kernel
  have hfixed : (prepareScriptCall (fun _ => "") (.fixedWindow secondPolicy) 1).identity =
      "fixed_window.lua:2:1000" := by decide +kernel
  have hsliding : (prepareScriptCall (fun _ => "") (.slidingWindow secondPolicy) 1).identity =
      "sliding_window.lua:2:1000" := by decide +kernel
  unfold VersionsDiffer bothPolicies
  rw [Set.injOn_pair, hfixed, hsliding]
  exact fun h => absurd h hne

theorem acquire_isolated_second :
    ((redisRateLimiter (fun _ => "") secondDigest "ddf").emitted
        (redisRateLimiter (fun _ => "") secondDigest "ddf").init bothWindows).filterMap
        (ownResult "alice" (.fixedWindow secondPolicy)) =
      [(0, 2, ⟨true, 2, 0, none⟩), (20, 1, ⟨false, 2, 0, some 980⟩)] := by
  have hused : ∀ input ∈ bothWindows, ∀ found ∈ input.policy?, found ∈ bothPolicies := by
    simp [bothWindows, bothPolicies, LimiterInput.policy?]
  have hisolated := @acquire_isolated (fun _ => "") secondDigest "ddf" bothPolicies
    bothPolicies_differ "alice" (.fixedWindow secondPolicy) (.inl rfl) bothWindows hused
  rw [hisolated]
  decide

end DddFramework.RateLimit
