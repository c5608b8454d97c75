import DddFramework.Keycloak.JwksFreshness

/-! The refresh lock and the two cool-downs. Fetches never overlap and start at
least a cool-down apart, whatever tokens callers present. A failed refresh arms
`_retry_after` when the fetch mapped it to `KeycloakUnavailableError`; a document
that the key set parser rejects takes another way out of `get_key`. -/
namespace DddFramework.Keycloak
open Library

variable {T K : Type} [Clock T] {externals : Externals K} {config : KeycloakConfig T}

/-! Starts of fetches. -/

def Effect.fetchStart? : Effect T K → Option T
  | .fetchStarted now => some now
  | _ => none

def fetchStarts (log : List (Effect T K)) : List T := log.filterMap Effect.fetchStart?

omit [Clock T] in
@[simp] theorem fetchStarts_append (log rest : List (Effect T K)) :
    fetchStarts (log ++ rest) = fetchStarts log ++ fetchStarts rest :=
  List.filterMap_append

theorem step_fetchStarts (state : State T K) (event : Event T) :
    (fetchStarts (step externals config state event).2 = [] ∧
      ((step externals config state event).1.client.unknownKidRefreshAfter =
          state.client.unknownKidRefreshAfter ∨
        (step externals config state event).1.client.unknownKidRefreshAfter =
          ↑(event.now + config.jwksRefreshCooldown))) ∨
    (fetchStarts (step externals config state event).2 = [event.now] ∧
      state.client.unknownKidRefreshAfter ≤ event.now ∧
      (step externals config state event).1.client.unknownKidRefreshAfter =
        ↑(event.now + config.jwksRefreshCooldown)) := by
  have hstep : Stepped externals config state event _ := step_cases state event
  generalize step externals config state event = result at hstep ⊢
  cases hstep with
  | ignored | cached | queued | locked | abandoned | interrupted => exact .inl ⟨rfl, .inl rfl⟩
  | started haction htask hlock hlocked =>
    have hguards := getKeyLocked_fetching hlocked
    exact .inr ⟨rfl, hguards.2.2.1, by rw [hguards.2.2.2]; rfl⟩
  | @failed _ _ _ exn haction htask hfetch =>
    refine .inl ⟨rfl, .inl ?_⟩
    cases exn <;> rfl
  | @loaded kid algorithm _ keys haction htask hfetch =>
    refine .inl ⟨rfl, ?_⟩
    cases hlookup : keys.lookup kid with
    | none => exact .inr (by simp [getKeyFetched, hlookup, State.unlocked, State.setTask])
    | some signingKey =>
      exact .inl (by simp [getKeyFetched, hlookup, State.unlocked, State.setTask])

/-- Every start lies in the past, and the cool-down it armed is still armed or over. -/
structure Spaced (config : KeycloakConfig T) (past : List (Event T)) (log : List (Effect T K))
    (client : JwksClient T K) : Prop where
  started : ∀ start ∈ fetchStarts log, ∃ event ∈ past, event.now = start
  cooling : ∀ start ∈ fetchStarts log,
    ↑(start + config.jwksRefreshCooldown) ≤ client.unknownKidRefreshAfter
  apart : (fetchStarts log).Pairwise fun a b => a + config.jwksRefreshCooldown ≤ b

theorem spaced_step {past : List (Event T)} {log : List (Effect T K)} {state : State T K}
    {event : Event T}
    (hpast : ∀ before ∈ past, before.now ≤ event.now)
    (h : Spaced config past log state.client) :
    Spaced config (past ++ [event]) (log ++ (step externals config state event).2)
      (step externals config state event).1.client := by
  have hstarted : ∀ start ∈ fetchStarts log, ∃ before ∈ past ++ [event], before.now = start := by
    intro start hstart
    obtain ⟨before, hbefore, hnow⟩ := h.started start hstart
    exact ⟨before, List.mem_append_left _ hbefore, hnow⟩
  have hrearmed : ∀ start ∈ fetchStarts log, (↑(start + config.jwksRefreshCooldown) : WithBot T) ≤
      ↑(event.now + config.jwksRefreshCooldown) := by
    intro start hstart
    obtain ⟨before, hbefore, rfl⟩ := h.started start hstart
    exact WithBot.coe_le_coe.mpr (Clock.add_le_add_right (hpast before hbefore) _)
  rcases @step_fetchStarts T K _ externals config state event with
    ⟨hnone, harmed⟩ | ⟨hstart, hpassed, harmed⟩
  · refine ⟨?_, ?_, ?_⟩
    · rw [fetchStarts_append, hnone, List.append_nil]
      exact hstarted
    · rw [fetchStarts_append, hnone, List.append_nil]
      intro start hstart
      rcases harmed with hsame | hagain
      · rw [hsame]
        exact h.cooling start hstart
      · rw [hagain]
        exact hrearmed start hstart
    · rw [fetchStarts_append, hnone, List.append_nil]
      exact h.apart
  · refine ⟨?_, ?_, ?_⟩
    · rw [fetchStarts_append, hstart]
      intro start hmem
      rcases List.mem_append.mp hmem with hmem | hmem
      · exact hstarted start hmem
      · exact ⟨event, by simp, (List.mem_singleton.mp hmem).symm⟩
    · rw [fetchStarts_append, hstart, harmed]
      intro start hmem
      rcases List.mem_append.mp hmem with hmem | hmem
      · exact hrearmed start hmem
      · rw [List.mem_singleton.mp hmem]
    · rw [fetchStarts_append, hstart, List.pairwise_append]
      refine ⟨h.apart, List.pairwise_singleton _ _, ?_⟩
      intro start hmem next hnext
      rw [List.mem_singleton.mp hnext]
      exact WithBot.coe_le_coe.mp ((h.cooling start hmem).trans hpassed)

theorem spaced {events : List (Event T)} (h : Monotonic events) :
    Spaced config events ((machine externals config).emitted .init events)
      ((machine externals config).after .init events).client := by
  have hguarded := Machine.guarded_of_ordered (m := machine externals config) h
  refine hguarded.invariant (I := fun past log state => Spaced config past log state.client) ?_ ?_
  · exact ⟨by simp [fetchStarts], by simp [fetchStarts], List.Pairwise.nil⟩
  · intro past log state event hpast hspaced
    exact spaced_step hpast hspaced

/-- At most one fetch is in flight, and fetches start at least a cool-down apart. -/
theorem fetches_alone_and_spaced {events : List (Event T)} (h : Monotonic events) :
    (∀ task other kid algorithm kid' algorithm',
      ((machine externals config).after .init events).tasks task = .fetching kid algorithm →
      ((machine externals config).after .init events).tasks other = .fetching kid' algorithm' →
      task = other) ∧
    (fetchStarts ((machine externals config).emitted .init events)).Pairwise
      fun a b => a + config.jwksRefreshCooldown ≤ b := by
  refine ⟨?_, (spaced h).apart⟩
  intro task other kid algorithm kid' algorithm' htask hother
  have hholder := (@reached T K _ externals config events).1
  have hsame := (hholder.lock_of_fetching htask).symm.trans (hholder.lock_of_fetching hother)
  exact Option.some.inj hsame

theorem cancelledRun_fetches_alone_and_spaced :
    fetchStarts ((machine sampleExternals .default).emitted .init
      (cancelledRun 5 ++ [⟨5, 2, .enter⟩])) = [0, 5] ∧
    (fetchStarts ((machine sampleExternals .default).emitted .init
      (cancelledRun 5 ++ [⟨5, 2, .enter⟩]))).Pairwise
        fun a b => a + KeycloakConfig.default.jwksRefreshCooldown ≤ b := by
  refine ⟨?_, (fetches_alone_and_spaced ?_).2⟩
  · decide +kernel
  · simp [Monotonic, cancelledRun, firstFetch]

/-! Refreshes that fail. -/

/-- The event ends a refresh that brought no keys, for a reason the client foresees:
the exchange, its size, its JSON or its key set. -/
structure RefreshFailed (externals : Externals K) (config : KeycloakConfig T) (state : State T K)
    (event : Event T) (kid algorithm : String) (exchange : Exchange) (exn : Exn) : Prop where
  action : event.action = .finish exchange
  task : state.tasks event.task = .fetching kid algorithm
  failed : fetchKeys externals config exchange = .error exn
  foreseen : exn ≠ .otherError

/-- A lookup of the kid cannot be answered from a snapshot that is still fresh. -/
def NeedsRefresh (config : KeycloakConfig T) (client : JwksClient T K) (now : T) (kid : String) :
    Prop :=
  ¬ ((isFresh config client now).awaited = true ∧
    ∃ signingKey, client.keys.lookup kid = some signingKey)

/-- The event starts no fetch, and a lookup that needs a refresh goes on to the lock
or, holding it, is told that Keycloak is unavailable. -/
def Refuses (externals : Externals K) (config : KeycloakConfig T) (state : State T K)
    (event : Event T) : Prop :=
  fetchStarts (step externals config state event).2 = [] ∧
  ∀ kid algorithm, cacheLookup config state event = some (kid, algorithm) →
    NeedsRefresh config state.client event.now kid →
    (event.action = .call kid algorithm ∧ step externals config state event =
        (state.setTask event.task (.waiting kid algorithm), [])) ∨
      (event.action = .enter ∧ ∃ message, (step externals config state event).2 =
        [.answered .locked kid algorithm event.now (.error (.keycloakUnavailableError message))])

/-- How a failed refresh should end, and what should hold during its cool-down. -/
structure FailsSafe (externals : Externals K) (config : KeycloakConfig T) (state : State T K)
    (event : Event T) (kid algorithm : String) (during : List (Event T)) : Prop where
  raised : ∃ message, (step externals config state event).2 =
    [.answered .fetched kid algorithm event.now (.error (.keycloakUnavailableError message))]
  keys : (step externals config state event).1.client.keys = state.client.keys
  loadedAt : (step externals config state event).1.client.loadedAt = state.client.loadedAt
  retryAfter : (step externals config state event).1.client.retryAfter =
    ↑(event.now + config.jwksRefreshCooldown)
  refuses : ∀ x ∈ (machine externals config).steps (step externals config state event).1 during,
    Refuses externals config x.1 x.2

/-- A lookup finds its kid in a snapshot that is no longer fresh. -/
def StaleHit (config : KeycloakConfig T) (state : State T K) (event : Event T) : Prop :=
  ∃ kid algorithm signingKey, cacheLookup config state event = some (kid, algorithm) ∧
    state.client.keys.lookup kid = some signingKey ∧
    (isFresh config state.client event.now).awaited = false

structure Cooling (deadline : WithBot T) (state : State T K) : Prop where
  holder : HolderFetches state
  lock : state.refreshLock = none
  retryAfter : state.client.retryAfter = deadline

omit [Clock T] in
theorem Cooling.not_fetching {deadline : WithBot T} {state : State T K} (h : Cooling deadline state)
    {task : Nat} {kid algorithm : String} : state.tasks task ≠ .fetching kid algorithm := by
  intro htask
  have hlock := h.holder.lock_of_fetching htask
  simp [h.lock] at hlock

theorem Cooling.step {deadline : WithBot T} {state : State T K} {event : Event T}
    (h : Cooling deadline state) (hnow : (event.now : WithBot T) < deadline) :
    Cooling deadline (step externals config state event).1 ∧
      fetchStarts (step externals config state event).2 = [] := by
  have hholder := @holderFetches_step T K _ externals config state event h.holder
  have hstep : Stepped externals config state event _ := step_cases state event
  generalize Keycloak.step externals config state event = result at hstep hholder ⊢
  cases hstep with
  | ignored | cached | queued | locked | abandoned =>
    exact ⟨⟨hholder, h.lock, h.retryAfter⟩, rfl⟩
  | started haction htask hlock hlocked =>
    have hretry := (getKeyLocked_fetching hlocked).2.1
    rw [h.retryAfter] at hretry
    exact absurd hnow (not_lt.mpr hretry)
  | failed haction htask | loaded haction htask | interrupted haction htask =>
    exact absurd htask h.not_fetching

theorem Cooling.after {deadline : WithBot T} {during : List (Event T)} {state : State T K}
    (h : Cooling deadline state) (hduring : ∀ later ∈ during, (later.now : WithBot T) < deadline) :
    Cooling deadline ((machine externals config).after state during) := by
  induction during generalizing state with
  | nil => exact h
  | cons event during ih =>
    apply ih (h.step (hduring event (by simp))).1
    intro later hlater
    exact hduring later (by simp [hlater])

/-- During a cool-down only a stale hit is answered that should be refused. -/
theorem Cooling.refuses_iff {deadline : WithBot T} {state : State T K} {event : Event T}
    (h : Cooling deadline state) (hnow : (event.now : WithBot T) < deadline) :
    Refuses externals config state event ↔ ¬ StaleHit config state event := by
  constructor
  · rintro ⟨-, hrefused⟩ ⟨kid, algorithm, signingKey, hlookup, hfound, hstale⟩
    obtain ⟨path, -, -, hstep⟩ :=
      @step_of_cacheLookup T K _ externals config _ _ _ _ _ hlookup hfound
    rcases hrefused kid algorithm hlookup (by simp [NeedsRefresh, hstale]) with
      ⟨-, hqueued⟩ | ⟨-, message, hunavailable⟩
    · simp [hqueued] at hstep
    · rw [hunavailable] at hstep
      simp only [List.cons.injEq, Effect.answered.injEq, and_true, true_and] at hstep
      have herror := selectAlgorithm_error hstep.2.symm
      simp at herror
  · intro hstale
    refine ⟨(h.step hnow).2, ?_⟩
    intro kid algorithm hlookup hneeds
    have hmissing : state.client.keys.lookup kid = none := by
      cases hfound : state.client.keys.lookup kid with
      | none => rfl
      | some signingKey =>
        have hawaited : (isFresh config state.client event.now).awaited = false := by
          by_contra hfresh
          exact hneeds ⟨by simpa using hfresh, signingKey, hfound⟩
        exact absurd ⟨kid, algorithm, signingKey, hlookup, hfound, hawaited⟩ hstale
    unfold cacheLookup at hlookup
    split at hlookup
    · rename_i found requested haction htask
      rw [Option.ite_none_right_eq_some, Option.some.injEq, Prod.mk.injEq] at hlookup
      obtain ⟨⟨hkid, halg⟩, rfl, rfl⟩ := hlookup
      have hcached : getKeyCached config state.client event.now found requested = none := by
        simp [getKeyCached, hkid, halg, hmissing, isFresh_truthy]
      exact .inl ⟨haction, by simp only [Keycloak.step, haction, htask, hcached]⟩
    · rename_i found requested haction htask
      rw [Option.ite_none_right_eq_some, Option.some.injEq, Prod.mk.injEq] at hlookup
      obtain ⟨hlock, rfl, rfl⟩ := hlookup
      have hlocked : getKeyLocked config state.client event.now found requested = .answered
          (.error (.keycloakUnavailableError "JWKS refresh is temporarily unavailable")) := by
        rw [getKeyLocked_eq, hmissing, h.retryAfter]
        simp only [if_pos hnow]
      refine .inr ⟨haction, "JWKS refresh is temporarily unavailable", ?_⟩
      simp only [Keycloak.step, haction, htask, hlock, hlocked, if_true]
    · contradiction

theorem RefreshFailed.step_eq {state : State T K} {event : Event T} {kid algorithm : String}
    {exchange : Exchange} {exn : Exn}
    (h : RefreshFailed externals config state event kid algorithm exchange exn) :
    step externals config state event =
      ({ state with client := (getKeyFetched config state.client event.now kid algorithm
          (.error exn)).1 }.unlocked.setTask event.task .finished,
        [.answered .fetched kid algorithm event.now (.error exn)]) := by
  have hsame := @getKeyFetched_error_keys T K _ config state.client event.now kid algorithm exn
  simp only [step, h.action, h.task, h.failed, List.nil_append, hsame.2.2]

/-- A failed refresh is handled as it should be exactly when the failure came before
the key set parser and no lookup of its cool-down hits a stale snapshot. -/
theorem failsSafe_iff {past during : List (Event T)} {event : Event T} {kid algorithm : String}
    {exchange : Exchange} {exn : Exn}
    (h : RefreshFailed externals config ((machine externals config).after .init past) event
      kid algorithm exchange exn)
    (hduring : ∀ later ∈ during, later.now < event.now + config.jwksRefreshCooldown) :
    FailsSafe externals config ((machine externals config).after .init past) event kid algorithm
        during ↔
      (∃ message, fetchDocument externals config exchange =
          .error (.keycloakUnavailableError message)) ∧
        ∀ x ∈ (machine externals config).steps
          (step externals config ((machine externals config).after .init past) event).1 during,
          ¬ StaleHit config x.1 x.2 := by
  have hreached := (@reached T K _ externals config past).1
  generalize (machine externals config).after .init past = state at h hreached
  have hnext := @holderFetches_step T K _ externals config state event hreached
  have hrefuses : (step externals config state event).1.client.retryAfter =
      ↑(event.now + config.jwksRefreshCooldown) →
      ∀ x ∈ (machine externals config).steps (step externals config state event).1 during,
        (Refuses externals config x.1 x.2 ↔ ¬ StaleHit config x.1 x.2) := by
    intro hretry x hx
    have hcooling : Cooling ↑(event.now + config.jwksRefreshCooldown)
        (step externals config state event).1 := ⟨hnext, by rw [h.step_eq]; rfl, hretry⟩
    obtain ⟨before, rest, rfl, hstate⟩ := (Machine.mem_steps _).mp hx
    have hbefore : ∀ later ∈ before, (later.now : WithBot T) <
        ↑(event.now + config.jwksRefreshCooldown) := by
      intro later hlater
      exact WithBot.coe_lt_coe.mpr (hduring later (by simp [hlater]))
    rw [hstate]
    exact (hcooling.after hbefore).refuses_iff (WithBot.coe_lt_coe.mpr (hduring x.2 (by simp)))
  constructor
  · intro hsafe
    refine ⟨?_, fun x hx => (hrefuses hsafe.retryAfter x hx).mp (hsafe.refuses x hx)⟩
    obtain ⟨message, hraised⟩ := hsafe.raised
    rw [h.step_eq] at hraised
    simp only [List.cons.injEq, Effect.answered.injEq, Except.error.injEq, and_true,
      true_and] at hraised
    refine ⟨message, ?_⟩
    have hfailed := h.failed
    unfold fetchKeys at hfailed
    split at hfailed
    · rename_i hdocument
      rw [hdocument, Except.error.inj hfailed, hraised]
    · obtain ⟨text, hvalue⟩ := parseJwks_error externals config hfailed
      simp [hvalue] at hraised
  · rintro ⟨⟨message, hdocument⟩, hhits⟩
    have hexn : exn = .keycloakUnavailableError message := by
      have hfailed := h.failed
      simp only [fetchKeys, hdocument, Except.error.injEq] at hfailed
      exact hfailed.symm
    have hstep : step externals config state event = _ := h.step_eq
    have hretry : (step externals config state event).1.client.retryAfter =
        ↑(event.now + config.jwksRefreshCooldown) := by
      rw [hstep, hexn]
      rfl
    refine ⟨⟨message, ?_⟩, ?_, ?_, hretry, fun x hx => (hrefuses hretry x hx).mpr (hhits x hx)⟩
    · rw [hstep, hexn]
    · rw [hstep, hexn]
      rfl
    · rw [hstep, hexn]
      rfl

theorem firstFetch_failed {exchange : Exchange} {exn : Exn}
    (hfailed : fetchKeys externals .default exchange = .error exn) (hforeseen : exn ≠ .otherError) :
    RefreshFailed externals .default
      ((machine externals .default).after .init (firstFetch 1 "k1" "RS256" 0))
      ⟨1, 1, .finish exchange⟩ "k1" "RS256" exchange exn := by
  have hfirst := @firstFetch_run ℚ K _ externals .default 1 "k1" "RS256" 0 (by decide) (by decide)
  refine ⟨rfl, ?_, hfailed, hforeseen⟩
  rw [hfirst.1]
  rfl

/-- The first fetch times out, and a second call is refused while the cool-down lasts. -/
theorem timeout_failsSafe :
    FailsSafe sampleExternals .default
      ((machine sampleExternals .default).after .init (firstFetch 1 "k1" "RS256" 0))
      ⟨1, 1, .finish (.failed .timeoutError)⟩ "k1" "RS256"
      [⟨2, 2, .call "k1" "RS256"⟩, ⟨3, 2, .enter⟩] := by
  have hfailed := @firstFetch_failed String sampleExternals (.failed .timeoutError)
    (.keycloakUnavailableError "Unable to fetch Keycloak signing keys") rfl (by simp)
  refine (failsSafe_iff hfailed ?_).mpr ⟨⟨_, rfl⟩, ?_⟩
  · norm_num [KeycloakConfig.default]
  · have hfirst := @firstFetch_run ℚ String _ sampleExternals .default 1 "k1" "RS256" 0 (by decide)
      (by decide)
    have hqueued : ∀ client : JwksClient ℚ String, client.keys = [] →
        getKeyCached .default client 2 "k1" "RS256" = none := by
      intro client hkeys
      simp [getKeyCached, isFresh_truthy, hkeys, KeycloakConfig.algorithmNames, Algorithm.value,
        KeycloakConfig.default]
    rw [hfailed.step_eq, hfirst.1]
    simp [Machine.steps, machine, step, hqueued, StaleHit, getKeyFetched, State.unlocked,
      State.setTask]

def emptyExchange : Exchange := .response 200 none [asciiBytes "\x7b\x7d"] none

theorem fetchKeys_empty : fetchKeys sampleExternals .default emptyExchange =
    .error (.valueError "Invalid JWKS document") := by
  have hne : asciiBytes "\x7b\x7d" ≠ sampleBody := by
    intro hequal
    have hlength := congrArg List.length hequal
    rw [sampleBody_length] at hlength
    revert hlength
    decide
  have hif : ∀ data, sampleExternals.loads data =
      if data = sampleBody then some (.obj [("keys", .arr [.obj sampleEntry])])
      else if data = asciiBytes "\x7b\x7d" then some (.obj []) else none := fun _ => rfl
  have hloads : sampleExternals.loads (asciiBytes "\x7b\x7d") = some (.obj []) := by
    rw [hif, if_neg hne, if_pos rfl]
  rw [emptyExchange, fetchKeys_single (by decide) hloads]
  rfl

/-- Its first call ends in `ValueError`, and no cool-down is armed. -/
theorem failsSafe_fails :
    ¬ ∀ past event kid algorithm exchange exn during,
      RefreshFailed sampleExternals .default ((machine sampleExternals .default).after .init past)
        event kid algorithm exchange exn →
      (∀ later ∈ during, later.now < event.now + KeycloakConfig.default.jwksRefreshCooldown) →
      FailsSafe sampleExternals .default ((machine sampleExternals .default).after .init past)
        event kid algorithm during := by
  intro h
  have hfailed := firstFetch_failed fetchKeys_empty (by simp)
  obtain ⟨message, hraised⟩ :=
    (h (firstFetch 1 "k1" "RS256" 0) _ _ _ _ _ [] hfailed (by simp)).raised
  rw [hfailed.step_eq] at hraised
  simp at hraised

end DddFramework.Keycloak
