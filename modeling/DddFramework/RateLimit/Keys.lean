import DddFramework.Library.Delimited
import DddFramework.RateLimit.Policy

/-! The Redis keys of rate limits. A key says for which rule and which identity it is, each
with its length, and, as a digest, under which script and bounds. -/
namespace DddFramework.RateLimit
open Library

inductive RateLimitPolicy where
  | tokenBucket (policy : TokenBucketPolicy)
  | slidingWindow (policy : WindowBasedPolicy)
  | fixedWindow (policy : WindowBasedPolicy)

inductive Arg where
  | int (value : Int)
  | str (value : String)
deriving DecidableEq

structure ScriptCall where
  script : String
  signature : String
  limit : Int
  args : List Arg
deriving DecidableEq

structure Digest where
  hexdigest : String → String
  length : ∀ text, (hexdigest text).length = 64

section keys
variable (formatRate : ℚ → String) (sha256 : Digest)

def prepareWindow (policy : WindowBasedPolicy) (cost : Int) (script : String) : ScriptCall where
  script := script
  signature := toString policy.limit ++ ":" ++ toString policy.windowMs
  limit := policy.limit
  args := [.int policy.limit, .int policy.windowMs, .int cost]

/-- `formatRate` is the text of the rate, with 17 significant digits. -/
def prepareTokenBucket (policy : TokenBucketPolicy) (cost : Int) : ScriptCall where
  script := "token_bucket.lua"
  signature := toString policy.capacity ++ ":" ++ formatRate policy.ratePerMs
  limit := policy.capacity
  args := [.int policy.capacity, .str (formatRate policy.ratePerMs), .int cost, .int policy.ttlMs]

def prepareScriptCall (policy : RateLimitPolicy) (cost : Int) : ScriptCall :=
  match policy with
  | .tokenBucket policy => prepareTokenBucket formatRate policy cost
  | .slidingWindow policy => prepareWindow policy cost "sliding_window.lua"
  | .fixedWindow policy => prepareWindow policy cost "fixed_window.lua"

def ScriptCall.identity (call : ScriptCall) : String := call.script ++ ":" ++ call.signature

/-- The version of a script and its bounds: the first 16 digits of their digest. -/
def Digest.version (identity : String) : String :=
  String.ofList ((sha256.hexdigest identity).toList.take 16)

def redisKey (limiterPrefix key : String) (call : ScriptCall) : String :=
  limiterPrefix ++ ":v2:" ++ sha256.version call.identity ++ ":" ++ key

def validateRule (name : String) (cost : Int) : Except String Unit :=
  if name.isEmpty then .error "name must be a non-empty string"
  else if cost ≤ 0 then .error "cost must be a positive integer"
  else .ok ()

def buildRateLimitKey (name identity : String) : Except String String :=
  if identity.isEmpty then .error "identity must be a non-empty string"
  else .ok (toString name.length ++ ":" ++ name ++ ":" ++
    toString identity.length ++ ":" ++ identity)

def acquireKey (limiterPrefix key : String) (policy : RateLimitPolicy) (cost : Int) :
    Except String String :=
  if key.isEmpty then .error "key must be a non-empty string"
  else do
    let call := prepareScriptCall formatRate policy cost
    let _ ← checkCost call.limit cost
    return redisKey sha256 limiterPrefix key call

def requestKey (limiterPrefix name identity : String) (policy : RateLimitPolicy) (cost : Int) :
    Except String String := do
  validateRule name cost
  let key ← buildRateLimitKey name identity
  acquireKey formatRate sha256 limiterPrefix key policy cost

/-- Policies of one script and the same bounds. -/
def RateLimitPolicy.Same (policy other : RateLimitPolicy) : Prop :=
  match policy, other with
  | .tokenBucket p, .tokenBucket q =>
    p.capacity = q.capacity ∧ formatRate p.ratePerMs = formatRate q.ratePerMs
  | .slidingWindow p, .slidingWindow q => p.limit = q.limit ∧ p.windowMs = q.windowMs
  | .fixedWindow p, .fixedWindow q => p.limit = q.limit ∧ p.windowMs = q.windowMs
  | _, _ => False

theorem buildRateLimitKey_eq_ok {name identity key : String}
    (h : buildRateLimitKey name identity = .ok key) :
    key.toList = prefixed name.toList ++ ':' :: prefixed identity.toList := by
  unfold buildRateLimitKey at h
  split at h
  · cases h
  · obtain rfl := Except.ok.inj h
    simp [prefixed, decimal, String.toList_append, ← String.length_toList]

theorem buildRateLimitKey_inj {name₁ name₂ identity₁ identity₂ key : String}
    (h₁ : buildRateLimitKey name₁ identity₁ = .ok key)
    (h₂ : buildRateLimitKey name₂ identity₂ = .ok key) :
    name₁ = name₂ ∧ identity₁ = identity₂ := by
  have hkeys := (buildRateLimitKey_eq_ok h₁).symm.trans (buildRateLimitKey_eq_ok h₂)
  obtain ⟨hname, hrest⟩ := prefixed_append_inj hkeys
  have hidentity := (List.cons.inj hrest).2
  rw [← List.append_nil (prefixed identity₁.toList),
    ← List.append_nil (prefixed identity₂.toList)] at hidentity
  exact ⟨String.toList_inj.mp hname, String.toList_inj.mp (prefixed_append_inj hidentity).1⟩

theorem toList_toString_of_pos {n : Int} (h : 0 < n) : (toString n).toList = decimal n.toNat := by
  obtain ⟨k, rfl⟩ := Int.eq_ofNat_of_zero_le h.le
  have htext : toString (k : Int) = Nat.repr k := rfl
  rw [htext, Nat.toList_repr]
  rfl

theorem toString_colon_inj {n m : Int} {r s : String} (hn : 0 < n) (hm : 0 < m)
    (h : toString n ++ ":" ++ r = toString m ++ ":" ++ s) : n = m ∧ r = s := by
  have hlists := congrArg String.toList h
  simp only [String.toList_append, toList_toString_of_pos hn, toList_toString_of_pos hm,
    List.append_assoc] at hlists
  obtain ⟨hnumber, hrest⟩ := decimal_append_inj hlists
  exact ⟨by omega, String.toList_inj.mp hrest⟩

theorem identity_cost (policy : RateLimitPolicy) (cost other : Int) :
    (prepareScriptCall formatRate policy cost).identity =
      (prepareScriptCall formatRate policy other).identity := by
  cases policy <;> rfl

theorem colon_notMem_script (policy : RateLimitPolicy) (cost : Int) :
    ':' ∉ (prepareScriptCall formatRate policy cost).script.toList := by
  cases policy <;> simp only [prepareScriptCall, prepareTokenBucket, prepareWindow] <;> decide

theorem script_signature_inj {policy other : RateLimitPolicy} {cost : Int}
    (h : (prepareScriptCall formatRate policy cost).identity =
      (prepareScriptCall formatRate other cost).identity) :
    (prepareScriptCall formatRate policy cost).script =
        (prepareScriptCall formatRate other cost).script ∧
      (prepareScriptCall formatRate policy cost).signature =
        (prepareScriptCall formatRate other cost).signature := by
  have hlists := congrArg String.toList h
  simp only [ScriptCall.identity, String.toList_append, List.append_assoc] at hlists
  obtain ⟨hscript, hsignature⟩ := append_cons_inj (colon_notMem_script formatRate policy cost)
    (colon_notMem_script formatRate other cost) hlists
  exact ⟨String.toList_inj.mp hscript, String.toList_inj.mp hsignature⟩

theorem window_signature_inj {p q : WindowBasedPolicy} {cost : Int} {script : String}
    (h : (prepareWindow p cost script).signature = (prepareWindow q cost script).signature) :
    p.limit = q.limit ∧ p.windowMs = q.windowMs := by
  obtain ⟨hlimit, hwindow⟩ := toString_colon_inj p.limit_pos q.limit_pos h
  have hdigits := congrArg String.toList hwindow
  rw [toList_toString_of_pos p.windowMs_pos, toList_toString_of_pos q.windowMs_pos] at hdigits
  have hwindowMs := decimal_inj hdigits
  have := p.windowMs_pos
  have := q.windowMs_pos
  exact ⟨hlimit, by omega⟩

/-- The limit ends at the colon, whatever the text of a rate is. -/
theorem identity_eq_iff {policy other : RateLimitPolicy} {cost : Int} :
    (prepareScriptCall formatRate policy cost).identity =
      (prepareScriptCall formatRate other cost).identity ↔ policy.Same formatRate other := by
  apply Iff.intro
  · intro h
    obtain ⟨hscript, hsignature⟩ := script_signature_inj formatRate h
    cases policy <;> cases other
    case tokenBucket.tokenBucket p q =>
      exact toString_colon_inj p.capacity_pos q.capacity_pos hsignature
    case slidingWindow.slidingWindow p q => exact window_signature_inj hsignature
    case fixedWindow.fixedWindow p q => exact window_signature_inj hsignature
    all_goals
      simp only [prepareScriptCall, prepareTokenBucket, prepareWindow] at hscript
      exact absurd hscript (by decide)
  · intro h
    cases policy <;> cases other
    case tokenBucket.tokenBucket p q =>
      simp only [prepareScriptCall, prepareTokenBucket, ScriptCall.identity, h.1, h.2]
    case slidingWindow.slidingWindow p q =>
      simp only [prepareScriptCall, prepareWindow, ScriptCall.identity, h.1, h.2]
    case fixedWindow.fixedWindow p q =>
      simp only [prepareScriptCall, prepareWindow, ScriptCall.identity, h.1, h.2]
    all_goals exact h.elim

theorem length_version (identity : String) : (sha256.version identity).toList.length = 16 := by
  simp [Digest.version, String.length_toList, sha256.length]

theorem redisKey_inj {limiterPrefix key₁ key₂ : String} {call₁ call₂ : ScriptCall}
    (h : redisKey sha256 limiterPrefix key₁ call₁ = redisKey sha256 limiterPrefix key₂ call₂) :
    sha256.version call₁.identity = sha256.version call₂.identity ∧ key₁ = key₂ := by
  have hlists := congrArg String.toList h
  simp only [redisKey, String.toList_append, List.append_assoc, List.append_cancel_left_eq]
    at hlists
  obtain ⟨hversion, hrest⟩ := List.append_inj hlists
    ((length_version sha256 _).trans (length_version sha256 _).symm)
  exact ⟨String.toList_inj.mp hversion,
    String.toList_inj.mp (List.append_cancel_left hrest)⟩

theorem acquireKey_eq_ok {limiterPrefix key redis : String} {policy : RateLimitPolicy} {cost : Int}
    (h : acquireKey formatRate sha256 limiterPrefix key policy cost = .ok redis) :
    redis = redisKey sha256 limiterPrefix key (prepareScriptCall formatRate policy cost) := by
  unfold acquireKey at h
  dsimp only at h
  split at h
  · cases h
  · cases hcost : checkCost (prepareScriptCall formatRate policy cost).limit cost with
    | error message =>
      rw [hcost] at h
      cases h
    | ok checked =>
      rw [hcost] at h
      exact (Except.ok.inj h).symm

theorem requestKey_eq_ok {limiterPrefix name identity redis : String} {policy : RateLimitPolicy}
    {cost : Int}
    (h : requestKey formatRate sha256 limiterPrefix name identity policy cost = .ok redis) :
    ∃ key, buildRateLimitKey name identity = .ok key ∧
      redis = redisKey sha256 limiterPrefix key (prepareScriptCall formatRate policy cost) := by
  unfold requestKey at h
  cases hrule : validateRule name cost with
  | error message =>
    rw [hrule] at h
    cases h
  | ok =>
    cases hkey : buildRateLimitKey name identity with
    | error message =>
      rw [hrule, hkey] at h
      cases h
    | ok key =>
      rw [hrule, hkey] at h
      exact ⟨key, rfl, acquireKey_eq_ok formatRate sha256 h⟩

/-- Two requests share their state when they agree on the rule, the identity, the script and
its bounds, and then only. What a request costs has no part in it. -/
theorem keys_equal_iff {limiterPrefix name₁ name₂ identity₁ identity₂ redis₁ redis₂ : String}
    {policy₁ policy₂ : RateLimitPolicy} {cost₁ cost₂ : Int} (used : Set String)
    (hused₁ : (prepareScriptCall formatRate policy₁ cost₁).identity ∈ used)
    (hused₂ : (prepareScriptCall formatRate policy₂ cost₂).identity ∈ used)
    (hsha256 : Set.InjOn sha256.version used)
    (h₁ : requestKey formatRate sha256 limiterPrefix name₁ identity₁ policy₁ cost₁ = .ok redis₁)
    (h₂ : requestKey formatRate sha256 limiterPrefix name₂ identity₂ policy₂ cost₂ = .ok redis₂) :
    redis₁ = redis₂ ↔
      name₁ = name₂ ∧ identity₁ = identity₂ ∧ policy₁.Same formatRate policy₂ := by
  obtain ⟨key₁, hkey₁, rfl⟩ := requestKey_eq_ok formatRate sha256 h₁
  obtain ⟨key₂, hkey₂, rfl⟩ := requestKey_eq_ok formatRate sha256 h₂
  have hcost := identity_cost formatRate policy₂ cost₂ cost₁
  apply Iff.intro
  · intro h
    obtain ⟨hversion, rfl⟩ := redisKey_inj sha256 h
    obtain ⟨hname, hidentity⟩ := buildRateLimitKey_inj hkey₁ hkey₂
    have hscript := hsha256 hused₁ hused₂ hversion
    exact ⟨hname, hidentity, (identity_eq_iff formatRate).mp (hscript.trans hcost)⟩
  · rintro ⟨rfl, rfl, hsame⟩
    have hkey : key₁ = key₂ := Except.ok.inj (hkey₁.symm.trans hkey₂)
    have hscript := ((identity_eq_iff formatRate).mpr hsame).trans hcost.symm
    rw [hkey, redisKey, redisKey, hscript]

end keys

def secondDigest : Digest where
  hexdigest text :=
    if text = "fixed_window.lua:2:1000" then
      "14ca713ef33bfef89810d6d46c7895ad8b8783a5251711b01a58f2741bc763ac"
    else
      "ef08a1e1f1f3c9d3be42464d8b155c798710a51b3164f4e40b8a4944bbe36312"
  length text := by split <;> decide

theorem keys_equal_iff_second :
    requestKey (fun _ => "") secondDigest "ddf" "login" "alice" (.fixedWindow secondPolicy) 1 ≠
      requestKey (fun _ => "") secondDigest "ddf" "login" "alice" (.slidingWindow secondPolicy)
        2 := by
  have hfixed : requestKey (fun _ => "") secondDigest "ddf" "login" "alice"
      (.fixedWindow secondPolicy) 1 = .ok "ddf:v2:14ca713ef33bfef8:5:login:5:alice" := by
    decide +kernel
  have hsliding : requestKey (fun _ => "") secondDigest "ddf" "login" "alice"
      (.slidingWindow secondPolicy) 2 = .ok "ddf:v2:ef08a1e1f1f3c9d3:5:login:5:alice" := by
    decide +kernel
  have hdigest : Set.InjOn secondDigest.version
      {"fixed_window.lua:2:1000", "sliding_window.lua:2:1000"} := by
    have hne : secondDigest.version "fixed_window.lua:2:1000" ≠
        secondDigest.version "sliding_window.lua:2:1000" := by decide +kernel
    rw [Set.injOn_pair]
    exact fun h => absurd h hne
  rw [hfixed, hsliding]
  intro h
  have hsame := (keys_equal_iff (fun _ => "") secondDigest _ (by decide +kernel) (by decide +kernel)
    hdigest hfixed hsliding).mp (Except.ok.inj h)
  exact hsame.2.2

end DddFramework.RateLimit
