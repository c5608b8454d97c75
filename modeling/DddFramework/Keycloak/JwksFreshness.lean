import DddFramework.Keycloak.JwksRuns

/-! Freshness of the cache. `_is_fresh` is an `async def` that no call site awaits:
every lookup takes the snapshot for fresh. The results here say which runs are not
hurt by that, for the keys that are served and for the tokens that are refused. -/
namespace DddFramework.Keycloak
open Library

variable {T K : Type} [Clock T] {externals : Externals K} {config : KeycloakConfig T}

def Young (config : KeycloakConfig T) (client : JwksClient T K) (now : T) : Prop :=
  ∃ loadedAt : T, client.loadedAt = loadedAt ∧ now - loadedAt < config.jwksCacheTtl

/-- What `_is_fresh` would answer if it were awaited. -/
theorem isFresh_awaited_iff {client : JwksClient T K} {now : T} :
    (isFresh config client now).awaited = true ↔ client.keys ≠ [] ∧ Young config client now := by
  unfold isFresh Young
  cases hloaded : client.loadedAt with
  | bot => simp
  | coe loadedAt => simp

/-- The kid and algorithm an event looks up in the cache, at either call site. -/
def cacheLookup (config : KeycloakConfig T) (state : State T K) (event : Event T) :
    Option (String × String) :=
  match event.action, state.tasks event.task with
  | .call kid algorithm, .idle =>
    if kid ≠ "" ∧ algorithm ∈ config.algorithmNames then some (kid, algorithm) else none
  | .enter, .waiting kid algorithm =>
    if state.refreshLock = none then some (kid, algorithm) else none
  | _, _ => none

theorem step_of_cacheLookup {state : State T K} {event : Event T} {kid algorithm : String}
    {signingKey : SigningKey K} (h : cacheLookup config state event = some (kid, algorithm))
    (hlookup : state.client.keys.lookup kid = some signingKey) :
    ∃ path, path ≠ .fetched ∧ path ≠ .cancelled ∧ (step externals config state event).2 =
      [.answered path kid algorithm event.now (selectAlgorithm signingKey algorithm)] := by
  unfold cacheLookup at h
  split at h
  · rename_i found algorithm' haction htask
    split at h
    · rename_i hvalid
      simp only [Option.some.injEq, Prod.mk.injEq] at h
      obtain ⟨rfl, rfl⟩ := h
      refine ⟨.cached, by simp, by simp, ?_⟩
      have hcached : getKeyCached config state.client event.now _ _ =
          some (selectAlgorithm signingKey _) :=
        (getKeyCached_eq_some hvalid.1 hvalid.2).mpr ⟨signingKey, hlookup, rfl⟩
      simp only [step, haction, htask, hcached]
    · contradiction
  · rename_i found algorithm' haction htask
    split at h
    · rename_i hlock
      simp only [Option.some.injEq, Prod.mk.injEq] at h
      obtain ⟨rfl, rfl⟩ := h
      refine ⟨.locked, by simp, by simp, ?_⟩
      simp only [step, haction, htask, hlock, getKeyLocked_eq, hlookup, ↓reduceIte]
    · contradiction
  · contradiction

/-- The three ways a call returns a key: found in the cache at one of the two call
sites, or in the snapshot the call itself has just loaded. -/
theorem returned_cases {state : State T K} {event : Event T} {path : Path} {kid algorithm : String}
    {now : T} {key : K} {before behind : List (Effect T K)}
    (h : (step externals config state event).2 =
      before ++ .answered path kid algorithm now (.ok key) :: behind) :
    now = event.now ∧ ∃ signingKey, selectAlgorithm signingKey algorithm = .ok key ∧
      ((path ≠ .fetched ∧ before = [] ∧ cacheLookup config state event = some (kid, algorithm) ∧
          state.client.keys.lookup kid = some signingKey) ∨
        (path = .fetched ∧ ∃ exchange keys, fetchKeys externals config exchange = .ok keys ∧
          before = [.loaded event.now exchange keys] ∧ keys.lookup kid = some signingKey)) := by
  have hstep : Stepped externals config state event _ := step_cases state event
  generalize step externals config state event = result at hstep h
  cases hstep with
  | ignored | queued | started => simp [List.cons_eq_append_iff] at h
  | abandoned | interrupted => simp [List.cons_eq_append_iff] at h
  | cached haction htask hcached =>
    simp only [List.singleton_eq_append_iff, List.cons.injEq, Effect.answered.injEq,
      reduceCtorEq, and_false, or_false] at h
    obtain ⟨rfl, ⟨rfl, rfl, rfl, rfl, rfl⟩, -⟩ := h
    obtain ⟨hkid, halg, signingKey, hlookup, hselect⟩ := getKeyCached_eq_ok hcached
    refine ⟨rfl, signingKey, hselect, .inl ⟨by simp, rfl, ?_, hlookup⟩⟩
    simp only [cacheLookup, haction, htask]
    rw [if_pos ⟨hkid, halg⟩]
  | locked haction htask hlock hlocked =>
    simp only [List.singleton_eq_append_iff, List.cons.injEq, Effect.answered.injEq,
      reduceCtorEq, and_false, or_false] at h
    obtain ⟨rfl, ⟨rfl, rfl, rfl, rfl, rfl⟩, -⟩ := h
    rcases getKeyLocked_answered hlocked with ⟨signingKey, hlookup, hselect⟩ | hrefused | hrefused
    · refine ⟨rfl, signingKey, hselect.symm, .inl ⟨by simp, rfl, ?_, hlookup⟩⟩
      simp only [cacheLookup, haction, htask]
      rw [if_pos hlock]
    · exact absurd hrefused.2.2 (by simp)
    · exact absurd hrefused.2.2.2 (by simp)
  | failed haction htask hfetch =>
    simp [List.cons_eq_append_iff, (getKeyFetched_error_keys ..).2.2] at h
  | loaded haction htask hfetch =>
    cases before with
    | nil => simp at h
    | cons first before =>
      cases before with
      | nil =>
        simp only [List.cons_append, List.nil_append, List.cons.injEq, Effect.answered.injEq] at h
        obtain ⟨rfl, ⟨rfl, rfl, rfl, rfl, houtcome⟩, -⟩ := h
        rw [getKeyFetched_ok_outcome] at houtcome
        split at houtcome
        · contradiction
        · rename_i signingKey hlookup
          exact ⟨rfl, signingKey, houtcome, .inr ⟨rfl, _, _, hfetch, rfl, hlookup⟩⟩
      | cons second before => simp at h

/-! Keys that are served. -/

/-- Every key returned comes from a snapshot younger than the ttl or from the
call's own refresh, so some load at most that old still contained it. -/
def NeverStale (externals : Externals K) (config : KeycloakConfig T) (events : List (Event T)) :
    Prop :=
  ∀ past event rest, events = past ++ event :: rest → ∀ path kid algorithm now key,
    .answered path kid algorithm now (.ok key) ∈
      (step externals config ((machine externals config).after .init past) event).2 →
    (path = .fetched ∨ Young config ((machine externals config).after .init past).client now) ∧
      ∃ load ∈ loads ((machine externals config).emitted .init (past ++ [event])),
        now - load.now < config.jwksCacheTtl ∧
          ∃ signingKey, load.keys.lookup kid = some signingKey ∧ signingKey.publicKey = key

/-- Whenever a lookup finds its kid, for an algorithm of the key, `_is_fresh` would
have answered true if either call site awaited it. -/
def LooksUpFresh (externals : Externals K) (config : KeycloakConfig T) (events : List (Event T)) :
    Prop :=
  ∀ x ∈ (machine externals config).steps .init events, ∀ kid algorithm signingKey,
    cacheLookup config x.1 x.2 = some (kid, algorithm) →
    x.1.client.keys.lookup kid = some signingKey → algorithm ∈ signingKey.algorithms →
    (isFresh config x.1.client x.2.now).awaited = true

theorem machine_emitted_concat (past : List (Event T)) (event : Event T) :
    (machine externals config).emitted .init (past ++ [event]) =
      (machine externals config).emitted .init past ++
        (step externals config ((machine externals config).after .init past) event).2 :=
  Machine.emitted_concat ..

theorem exists_load_of_young {past : List (Event T)} {now : T}
    (h : Young config ((machine externals config).after .init past).client now)
    (hkeys : ((machine externals config).after .init past).client.keys ≠ []) :
    ∃ load, (loads ((machine externals config).emitted .init past)).getLast? = some load ∧
      ((machine externals config).after .init past).client.keys = load.keys ∧
      ((machine externals config).after .init past).client.loadedAt = load.now ∧
      now - load.now < config.jwksCacheTtl := by
  have hlast := (@reached T K _ externals config past).2
  unfold HoldsLast at hlast
  split at hlast
  · exact absurd hlast.1 hkeys
  · rename_i load hload
    obtain ⟨loadedAt, hloaded, hyoung⟩ := h
    have hnow : load.now = loadedAt := WithBot.coe_injective (hlast.2.1.symm.trans hloaded)
    exact ⟨load, hload, hlast.1, hlast.2.1, hnow ▸ hyoung⟩

theorem neverStale_iff (events : List (Event T)) :
    NeverStale externals config events ↔ LooksUpFresh externals config events := by
  constructor
  · intro h x hx kid algorithm signingKey hlookup hfound halg
    obtain ⟨past, rest, hsplit, hstate⟩ := (Machine.mem_steps _).mp hx
    obtain ⟨path, hfetched, -, hstep⟩ := step_of_cacheLookup hlookup hfound
    have hselect := selectAlgorithm_eq_ok.mpr ⟨halg, rfl⟩
    rw [hselect] at hstep
    have hserved := (h past x.2 rest hsplit path kid algorithm x.2.now signingKey.publicKey
      (by rw [← hstate, hstep]; exact List.mem_singleton_self _)).1
    rw [← hstate] at hserved
    rw [isFresh_awaited_iff]
    refine ⟨?_, hserved.resolve_left hfetched⟩
    intro hempty
    simp [hempty] at hfound
  · intro h past event rest hsplit path kid algorithm now key hmem
    obtain ⟨before, behind, hstep⟩ := List.append_of_mem hmem
    obtain ⟨rfl, signingKey, hselect, hserved⟩ := returned_cases hstep
    have hkey := (selectAlgorithm_eq_ok.mp hselect).2
    rw [machine_emitted_concat, loads_append]
    rcases hserved with ⟨-, -, hlookup, hfound⟩ | ⟨hfetched, exchange, keys, -, hbefore, hfound⟩
    · have hfresh := h _ (Machine.mem_steps_of_split _ hsplit) kid algorithm signingKey hlookup
        hfound (selectAlgorithm_eq_ok.mp hselect).1
      have hawaited := isFresh_awaited_iff.mp hfresh
      obtain ⟨load, hload, hkeys, -, hyoung⟩ := exists_load_of_young hawaited.2 hawaited.1
      refine ⟨.inr hawaited.2, load, ?_, hyoung, signingKey, hkeys ▸ hfound, hkey⟩
      exact List.mem_append_left _ (List.mem_of_getLast? hload)
    · refine ⟨.inl hfetched, ⟨event.now, exchange, keys⟩, ?_, ?_, signingKey, hfound, hkey⟩
      · apply List.mem_append_right
        rw [hstep, hbefore]
        simp [loads, Effect.load?]
      · rw [Clock.sub_self]
        exact config.jwksCacheTtl_pos

/-! A realm with one 2048-bit key, as its JWKS endpoint publishes it. -/

def onesModulus (digits : Nat) : String := String.ofList (List.replicate digits '_' ++ ['w'])

theorem onesModulus_length (digits : Nat) : (onesModulus digits).length = digits + 1 := by
  rw [onesModulus, String.length_ofList, List.length_append, List.length_replicate,
    List.length_singleton]

def sampleModulus : String := onesModulus 341

def sampleEntry : List (String × Json) :=
  [("kid", .str "k1"), ("kty", .str "RSA"), ("use", .str "sig"), ("alg", .str "RS256"),
    ("n", .str sampleModulus), ("e", .str "AQAB")]

def asciiBytes (text : String) : List UInt8 :=
  text.toList.map fun char => UInt8.ofNat char.toNat

def sampleBody : List UInt8 :=
  asciiBytes "\x7b\"keys\":[\x7b\"kid\":\"k1\",\"kty\":\"RSA\",\"use\":\"sig\"," ++
    asciiBytes "\"alg\":\"RS256\",\"n\":\"" ++ asciiBytes sampleModulus ++
    asciiBytes "\",\"e\":\"AQAB\"\x7d]\x7d"

/-- The libraries on this document and on an empty object. A key is given by its
modulus, of six bits a digit but for the last four. -/
def sampleExternals : Externals String where
  loads data :=
    if data = sampleBody then some (.obj [("keys", .arr [.obj sampleEntry])])
    else if data = asciiBytes "\x7b\x7d" then some (.obj [])
    else none
  fromJwk fields :=
    match Json.get fields "n" with
    | some (.str modulus) => some (.publicKey modulus)
    | _ => none
  keySize modulus := modulus.length * 6 - 4

def sampleExchange : Exchange := .response 200 none [sampleBody] none

def sampleKeys : List (String × SigningKey String) := [("k1", ⟨sampleModulus, ["RS256"]⟩)]

theorem sampleBody_length : sampleBody.length = 421 := by
  simp only [sampleBody, asciiBytes, List.length_append, List.length_map, String.length_toList,
    sampleModulus, onesModulus_length]
  decide

theorem usable_sampleEntry :
    Usable sampleExternals .default sampleEntry "k1" sampleModulus where
  kid_eq := rfl
  kid_nonempty := by decide
  kty := rfl
  no_private := by decide
  use := .inr rfl
  key_ops := .inl rfl
  alg := .inr ⟨"RS256", by decide, rfl⟩
  from_jwk := rfl
  size := by
    have hsize : ∀ modulus, sampleExternals.keySize modulus = modulus.length * 6 - 4 :=
      fun _ => rfl
    rw [hsize, sampleModulus, onesModulus_length]
    exact le_refl 2048

theorem fetchKeys_single {body : List UInt8} {document : Json}
    (hsize : body.length ≤ config.maxJwksBytes) (hloads : externals.loads body = some document) :
    fetchKeys externals config (.response 200 none [body] none) =
      parseJwks externals config document := by
  have hbody : readBody config (.response 200 none [body] none) = .ok body := by
    simp [readBody, readChunks, not_lt.mpr hsize]
  simp only [fetchKeys, fetchDocument, hbody, hloads]

theorem loads_sample : sampleExternals.loads sampleBody =
    some (.obj [("keys", .arr [.obj sampleEntry])]) := by
  have hif : ∀ data, sampleExternals.loads data =
      if data = sampleBody then some (.obj [("keys", .arr [.obj sampleEntry])])
      else if data = asciiBytes "\x7b\x7d" then some (.obj []) else none := fun _ => rfl
  rw [hif, if_pos rfl]

theorem fetchKeys_sample :
    fetchKeys sampleExternals .default sampleExchange = .ok sampleKeys := by
  have hsize : sampleBody.length ≤ KeycloakConfig.default.maxJwksBytes := by
    rw [sampleBody_length]
    decide
  have hparse : parseKey sampleExternals .default (.obj sampleEntry) =
      some ("k1", ⟨sampleModulus, ["RS256"]⟩) :=
    (parseKey_eq_some ..).mpr ⟨sampleEntry, rfl, usable_sampleEntry, rfl⟩
  rw [sampleExchange, fetchKeys_single hsize loads_sample, parseJwks_eq_ok]
  exact ⟨_, [.obj sampleEntry], rfl, rfl, by decide, by simp [hparse, sampleKeys],
    by simp [sampleKeys], by simp [sampleKeys]⟩

def firstFetch (task : Nat) (kid algorithm : String) (now : T) : List (Event T) :=
  [⟨now, task, .call kid algorithm⟩, ⟨now, task, .enter⟩]

theorem firstFetch_run {task : Nat} {kid algorithm : String} {now : T}
    (hkid : kid ≠ "") (halg : algorithm ∈ config.algorithmNames) :
    (machine externals config).after .init (firstFetch task kid algorithm now) =
        ⟨⟨[], ⊥, ⊥, ↑(now + config.jwksRefreshCooldown)⟩, some task,
          Function.update (fun _ => .idle) task (.fetching kid algorithm)⟩ ∧
      (machine externals config).emitted .init (firstFetch task kid algorithm now) =
        [.fetchStarted now] := by
  have hcached : getKeyCached (K := K) config ⟨[], ⊥, ⊥, ⊥⟩ now kid algorithm = none := by
    simp [getKeyCached, hkid, halg, isFresh_truthy]
  have hlocked : getKeyLocked (K := K) config ⟨[], ⊥, ⊥, ⊥⟩ now kid algorithm =
      .fetching ⟨[], ⊥, ⊥, ↑(now + config.jwksRefreshCooldown)⟩ := by
    simp [getKeyLocked_eq]
  simp [firstFetch, Machine.after, Machine.emitted, machine, step, State.init, JwksClient.init,
    hcached, State.setTask, hlocked]

theorem firstLoad_run {task : Nat} {kid algorithm : String} {now later : T} {exchange : Exchange}
    {keys : List (String × SigningKey K)} {signingKey : SigningKey K}
    (hkid : kid ≠ "") (halg : algorithm ∈ config.algorithmNames)
    (hfetch : fetchKeys externals config exchange = .ok keys)
    (hlookup : keys.lookup kid = some signingKey) :
    (machine externals config).after .init
        (firstFetch task kid algorithm now ++ [⟨later, task, .finish exchange⟩]) =
        ⟨⟨keys, later, ⊥, ↑(now + config.jwksRefreshCooldown)⟩, none,
          Function.update (fun _ => .idle) task .finished⟩ ∧
      (machine externals config).emitted .init
        (firstFetch task kid algorithm now ++ [⟨later, task, .finish exchange⟩]) =
        [.fetchStarted now, .loaded later exchange keys,
          .answered .fetched kid algorithm later (selectAlgorithm signingKey algorithm)] := by
  have hfirst := @firstFetch_run T K _ externals config task kid algorithm now hkid halg
  rw [Machine.after_concat, Machine.emitted_concat, hfirst.1, hfirst.2]
  simp [machine, step, hfetch, getKeyFetched, hlookup, State.setTask, State.unlocked]

def sampleRun : List (Event ℚ) :=
  firstFetch 1 "k1" "RS256" 0 ++ [⟨1, 1, .finish sampleExchange⟩]

theorem sampleRun_run :
    (machine sampleExternals .default).after .init sampleRun =
        ⟨⟨sampleKeys, (1 : ℚ), ⊥, ↑(0 + KeycloakConfig.default.jwksRefreshCooldown)⟩, none,
          Function.update (fun _ => .idle) 1 .finished⟩ ∧
      (machine sampleExternals .default).emitted .init sampleRun =
        [.fetchStarted 0, .loaded 1 sampleExchange sampleKeys,
          .answered .fetched "k1" "RS256" 1 (.ok sampleModulus)] :=
  @firstLoad_run ℚ String _ sampleExternals .default 1 "k1" "RS256" 0 1 sampleExchange sampleKeys
    ⟨sampleModulus, ["RS256"]⟩ (by decide) (by decide) fetchKeys_sample rfl

/-- At second 1000 it is still served from the cache. -/
theorem neverStale_fails :
    ¬ NeverStale sampleExternals .default (sampleRun ++ [⟨1000, 2, .call "k1" "RS256"⟩]) := by
  intro h
  have hrun := sampleRun_run.1
  generalize hstate : (machine sampleExternals .default).after .init sampleRun = state at hrun
  have hlookup : cacheLookup .default state ⟨1000, 2, .call "k1" "RS256"⟩ =
      some ("k1", "RS256") := by
    rw [hrun]
    decide
  have hfound : state.client.keys.lookup "k1" = some ⟨sampleModulus, ["RS256"]⟩ := by
    rw [hrun]
    rfl
  obtain ⟨path, hpath, -, hstep⟩ :=
    @step_of_cacheLookup ℚ String _ sampleExternals .default _ _ _ _ _ hlookup hfound
  have hserved := h sampleRun _ [] rfl path "k1" "RS256" 1000 sampleModulus (by
    rw [hstate, hstep]
    exact List.mem_singleton_self _)
  rw [hstate] at hserved
  rcases hserved.1 with hfetched | ⟨loadedAt, hloaded, hyoung⟩
  · exact hpath hfetched
  · have hold : state.client.loadedAt = (1 : ℚ) := by rw [hrun]
    have hnow : (1 : ℚ) = loadedAt := WithBot.coe_injective (hold.symm.trans hloaded)
    rw [← hnow] at hyoung
    norm_num [KeycloakConfig.default] at hyoung

/-! Tokens that are refused. -/

def unknownSigningKey {K : Type} : Except Exn K := .error (.invalidTokenError "Unknown signing key")

structure CoolingDown (state : State T K) (event : Event T) (kid algorithm : String) : Prop where
  action : event.action = .enter
  task : state.tasks event.task = .waiting kid algorithm
  lock : state.refreshLock = none
  missing : state.client.keys.lookup kid = none
  retry : state.client.retryAfter ≤ event.now
  cooling : (event.now : WithBot T) < state.client.unknownKidRefreshAfter

theorem CoolingDown.step_eq {state : State T K} {event : Event T} {kid algorithm : String}
    (h : CoolingDown state event kid algorithm) :
    step externals config state event = (state.setTask event.task .finished,
      [.answered .locked kid algorithm event.now unknownSigningKey]) := by
  have hlocked : getKeyLocked config state.client event.now kid algorithm =
      .answered unknownSigningKey := by
    rw [getKeyLocked_eq, h.missing]
    simp only [if_neg (not_lt.mpr h.retry), if_pos h.cooling, unknownSigningKey]
  simp only [step, h.action, h.task, h.lock, hlocked, ↓reduceIte]

/-- The two ways a kid is called unknown: by the cool-down, or against the snapshot
the call itself has just loaded. -/
theorem unknown_cases {state : State T K} {event : Event T} {path : Path} {kid algorithm : String}
    {now : T}
    (h : .answered path kid algorithm now unknownSigningKey ∈
      (step externals config state event).2) :
    now = event.now ∧ (CoolingDown state event kid algorithm ∨
      ∃ exchange keys, fetchKeys externals config exchange = .ok keys ∧
        keys.lookup kid = none ∧
        (step externals config state event).1.client.keys = keys ∧
        (step externals config state event).1.client.loadedAt = event.now ∧
        loads (step externals config state event).2 = [⟨event.now, exchange, keys⟩]) := by
  have hselect : ∀ (signingKey : SigningKey K) (algorithm : String),
      selectAlgorithm signingKey algorithm ≠ unknownSigningKey := by
    intro signingKey algorithm hequal
    have herror := selectAlgorithm_error hequal
    simp at herror
  have hstep : Stepped externals config state event _ := step_cases state event
  generalize step externals config state event = result at hstep h ⊢
  cases hstep with
  | ignored | queued | started => simp at h
  | abandoned | interrupted => simp [unknownSigningKey] at h
  | cached haction htask hcached =>
    simp only [List.mem_singleton, Effect.answered.injEq] at h
    obtain ⟨rfl, rfl, rfl, rfl, rfl⟩ := h
    unfold getKeyCached at hcached
    split at hcached
    · simp [unknownSigningKey] at hcached
    · split at hcached
      · simp [unknownSigningKey] at hcached
      · rw [if_pos (isFresh_truthy ..), Option.map_eq_some_iff] at hcached
        obtain ⟨signingKey, -, hequal⟩ := hcached
        exact absurd hequal (hselect _ _)
  | locked haction htask hlock hlocked =>
    simp only [List.mem_singleton, Effect.answered.injEq] at h
    obtain ⟨rfl, rfl, rfl, rfl, rfl⟩ := h
    rcases getKeyLocked_answered hlocked with ⟨signingKey, -, hequal⟩ | hretry | hcooling
    · exact absurd hequal.symm (hselect _ _)
    · simp [unknownSigningKey] at hretry
    · exact ⟨rfl, .inl ⟨haction, htask, hlock, hcooling.1, hcooling.2.1, hcooling.2.2.1⟩⟩
  | failed haction htask hfetch =>
    simp only [List.mem_singleton, Effect.answered.injEq, (getKeyFetched_error_keys ..).2.2] at h
    obtain ⟨-, -, -, -, hexn⟩ := h
    rcases fetchKeys_error hfetch with ⟨message, rfl⟩ | ⟨message, rfl⟩ | rfl
    · simp [unknownSigningKey] at hexn
    · simp [unknownSigningKey] at hexn
    · simp [unknownSigningKey] at hexn
  | loaded haction htask hfetch =>
    simp only [List.mem_cons, reduceCtorEq, false_or, List.not_mem_nil, or_false,
      Effect.answered.injEq, getKeyFetched_ok_outcome] at h
    obtain ⟨rfl, rfl, rfl, rfl, houtcome⟩ := h
    have hnew := @getKeyFetched_ok_keys T K _ config state.client event.now
    split at houtcome
    · rename_i hlookup
      exact ⟨rfl, .inr ⟨_, _, hfetch, hlookup, (hnew _ _ _).1, (hnew _ _ _).2, rfl⟩⟩
    · exact absurd houtcome.symm (hselect _ _)

/-- Whenever a kid is called unknown, the client holds a snapshot that was loaded
less than the ttl ago, is not empty and does not contain the kid. -/
def UnknownOnlyLive (externals : Externals K) (config : KeycloakConfig T)
    (events : List (Event T)) : Prop :=
  ∀ past event rest, events = past ++ event :: rest → ∀ path kid algorithm now,
    .answered path kid algorithm now unknownSigningKey ∈
      (step externals config ((machine externals config).after .init past) event).2 →
    ∃ load,
      (loads ((machine externals config).emitted .init (past ++ [event]))).getLast? = some load ∧
      ((machine externals config).after .init (past ++ [event])).client.keys = load.keys ∧
      ((machine externals config).after .init (past ++ [event])).client.loadedAt = load.now ∧
      load.keys ≠ [] ∧ now - load.now < config.jwksCacheTtl ∧ load.keys.lookup kid = none

/-- Whenever only the cool-down for unknown kids refuses a lookup, `_is_fresh` would
have answered true if it were awaited. -/
def CoolsDownFresh (externals : Externals K) (config : KeycloakConfig T) (events : List (Event T)) :
    Prop :=
  ∀ x ∈ (machine externals config).steps .init events, ∀ kid algorithm,
    CoolingDown x.1 x.2 kid algorithm → (isFresh config x.1.client x.2.now).awaited = true

theorem machine_after_concat (past : List (Event T)) (event : Event T) :
    (machine externals config).after .init (past ++ [event]) =
      (step externals config ((machine externals config).after .init past) event).1 :=
  Machine.after_concat ..

theorem unknownOnlyLive_iff (events : List (Event T)) :
    UnknownOnlyLive externals config events ↔ CoolsDownFresh externals config events := by
  constructor
  · intro h x hx kid algorithm hcooling
    obtain ⟨past, rest, hsplit, hstate⟩ := (Machine.mem_steps _).mp hx
    have hstep : step externals config x.1 x.2 = _ := hcooling.step_eq
    obtain ⟨load, -, hkeys, hloaded, hne, hyoung, -⟩ :=
      h past x.2 rest hsplit .locked kid algorithm x.2.now (by
        rw [← hstate, hstep]
        exact List.mem_singleton_self _)
    rw [machine_after_concat, ← hstate, hstep] at hkeys hloaded
    exact isFresh_awaited_iff.mpr ⟨fun hempty => hne (hkeys.symm.trans hempty),
      load.now, hloaded, hyoung⟩
  · intro h past event rest hsplit path kid algorithm now hmem
    rw [machine_after_concat, machine_emitted_concat, loads_append]
    obtain ⟨rfl, hcooling | ⟨exchange, keys, hfetch, hlookup, hkeys, hloaded, hload⟩⟩ :=
      unknown_cases hmem
    · have hfresh := isFresh_awaited_iff.mp
        (h _ (Machine.mem_steps_of_split _ hsplit) kid algorithm hcooling)
      obtain ⟨load, hload, hkeys, hloaded, hyoung⟩ := exists_load_of_young hfresh.2 hfresh.1
      refine ⟨load, ?_, ?_, ?_, hkeys ▸ hfresh.1, hyoung, hkeys ▸ hcooling.missing⟩
      · rw [hcooling.step_eq]
        simpa [loads, Effect.load?] using hload
      · rw [hcooling.step_eq]
        exact hkeys
      · rw [hcooling.step_eq]
        exact hloaded
    · refine ⟨⟨event.now, exchange, keys⟩, ?_, hkeys, hloaded, fetchKeys_ne_nil hfetch, ?_, hlookup⟩
      · rw [hload, List.getLast?_append, List.getLast?_singleton, Option.some_or]
      · rw [Clock.sub_self]
        exact config.jwksCacheTtl_pos

def cancelledRun (now : ℚ) : List (Event ℚ) :=
  firstFetch 1 "k1" "RS256" 0 ++ [⟨1, 1, .cancel⟩] ++ [⟨now, 2, .call "k1" "RS256"⟩]

theorem cancelledRun_run (now : ℚ) :
    (machine externals .default).after .init (cancelledRun now) =
        ⟨⟨[], ⊥, ⊥, ↑(0 + KeycloakConfig.default.jwksRefreshCooldown)⟩, none,
          Function.update (Function.update (fun _ => .idle) 1 .finished) 2
            (.waiting "k1" "RS256")⟩ ∧
      loads ((machine externals .default).emitted .init (cancelledRun now)) = [] := by
  have hfirst := @firstFetch_run ℚ K _ externals .default 1 "k1" "RS256" 0 (by decide) (by decide)
  have hcached : ∀ unknownKidRefreshAfter, getKeyCached (K := K) .default
      ⟨[], ⊥, ⊥, unknownKidRefreshAfter⟩ now "k1" "RS256" = none := by
    simp [getKeyCached, isFresh_truthy, KeycloakConfig.algorithmNames, Algorithm.value,
      KeycloakConfig.default]
  rw [cancelledRun, Machine.after_concat, Machine.emitted_concat, Machine.after_concat,
    Machine.emitted_concat, hfirst.1, hfirst.2]
  simp only [machine, step, Function.update_self]
  simp [State.setTask, State.unlocked, hcached, loads, Effect.load?]

/-- That call is told its kid is unknown before anything has been loaded. -/
theorem unknownOnlyLive_fails :
    ¬ UnknownOnlyLive sampleExternals .default (cancelledRun 1 ++ [⟨1, 2, .enter⟩]) := by
  intro h
  have hrun := @cancelledRun_run String sampleExternals 1
  have hcooling : CoolingDown
      ((machine sampleExternals .default).after .init (cancelledRun 1)) ⟨1, 2, .enter⟩
      "k1" "RS256" := by
    rw [hrun.1]
    refine ⟨rfl, rfl, rfl, rfl, bot_le, ?_⟩
    rw [WithBot.coe_lt_coe]
    norm_num [KeycloakConfig.default]
  have hstep : step sampleExternals .default _ _ = _ := hcooling.step_eq
  obtain ⟨load, hload, -⟩ := h (cancelledRun 1) ⟨1, 2, .enter⟩ [] rfl .locked "k1" "RS256" 1 (by
    rw [hstep]
    exact List.mem_singleton_self _)
  rw [machine_emitted_concat, loads_append, hrun.2, hstep] at hload
  simp [loads, Effect.load?] at hload

end DddFramework.Keycloak
