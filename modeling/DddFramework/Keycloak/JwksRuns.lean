import DddFramework.Keycloak.JwksClient
import DddFramework.Keycloak.UsableKeys

/-! What one event can do, said once, and what follows for every run: the lock is
held exactly by the call that fetches, and the snapshot in the client is the one
the last load brought, so it is empty only while nothing has been loaded. -/
namespace DddFramework.Keycloak
open Library

variable {T K : Type} [Clock T] {externals : Externals K} {config : KeycloakConfig T}

/-- The coroutine object is true whatever `_is_fresh` would answer. -/
theorem isFresh_truthy (client : JwksClient T K) (now : T) :
    (isFresh config client now).truthy = true := rfl

theorem getKeyCached_eq_some {client : JwksClient T K} {now : T} {kid algorithm : String}
    {outcome : Except Exn K} (hkid : kid ≠ "") (halg : algorithm ∈ config.algorithmNames) :
    getKeyCached config client now kid algorithm = some outcome ↔
      ∃ key, client.keys.lookup kid = some key ∧ outcome = selectAlgorithm key algorithm := by
  unfold getKeyCached
  rw [if_neg hkid, if_neg (not_not.mpr halg), if_pos (isFresh_truthy client now),
    Option.map_eq_some_iff]
  exact exists_congr fun key => and_congr_right fun _ => eq_comm

theorem getKeyLocked_eq (client : JwksClient T K) (now : T) (kid algorithm : String) :
    getKeyLocked config client now kid algorithm =
      match client.keys.lookup kid with
      | some key => .answered (selectAlgorithm key algorithm)
      | none =>
        if (now : WithBot T) < client.retryAfter then
          .answered (.error (.keycloakUnavailableError "JWKS refresh is temporarily unavailable"))
        else if (now : WithBot T) < client.unknownKidRefreshAfter then
          .answered (.error (.invalidTokenError "Unknown signing key"))
        else
          .fetching
            { client with unknownKidRefreshAfter := ↑(now + config.jwksRefreshCooldown) } :=
  rfl

theorem getKeyLocked_fetching {client next : JwksClient T K} {now : T} {kid algorithm : String}
    (h : getKeyLocked config client now kid algorithm = .fetching next) :
    client.keys.lookup kid = none ∧ client.retryAfter ≤ now ∧
      client.unknownKidRefreshAfter ≤ now ∧
      next = { client with unknownKidRefreshAfter := ↑(now + config.jwksRefreshCooldown) } := by
  rw [getKeyLocked_eq] at h
  cases hlookup : client.keys.lookup kid with
  | some key => simp [hlookup] at h
  | none =>
    simp only [hlookup] at h
    split at h
    · contradiction
    · rename_i hretry
      split at h
      · contradiction
      · rename_i hunknown
        exact ⟨rfl, not_lt.mp hretry, not_lt.mp hunknown, (Locked.fetching.inj h).symm⟩

theorem getKeyCached_eq_ok {client : JwksClient T K} {now : T} {kid algorithm : String} {key : K}
    (h : getKeyCached config client now kid algorithm = some (.ok key)) :
    kid ≠ "" ∧ algorithm ∈ config.algorithmNames ∧ ∃ signingKey,
      client.keys.lookup kid = some signingKey ∧
        selectAlgorithm signingKey algorithm = .ok key := by
  by_cases hkid : kid = ""
  · simp [getKeyCached, hkid] at h
  · by_cases halg : algorithm ∈ config.algorithmNames
    · obtain ⟨signingKey, hlookup, houtcome⟩ := (getKeyCached_eq_some hkid halg).mp h
      exact ⟨hkid, halg, signingKey, hlookup, houtcome.symm⟩
    · simp [getKeyCached, hkid, halg] at h

theorem getKeyLocked_answered {client : JwksClient T K} {now : T} {kid algorithm : String}
    {outcome : Except Exn K}
    (h : getKeyLocked config client now kid algorithm = .answered outcome) :
    (∃ signingKey, client.keys.lookup kid = some signingKey ∧
      outcome = selectAlgorithm signingKey algorithm) ∨
    (client.keys.lookup kid = none ∧ (now : WithBot T) < client.retryAfter ∧ outcome =
      .error (.keycloakUnavailableError "JWKS refresh is temporarily unavailable")) ∨
    (client.keys.lookup kid = none ∧ client.retryAfter ≤ now ∧
      (now : WithBot T) < client.unknownKidRefreshAfter ∧
      outcome = .error (.invalidTokenError "Unknown signing key")) := by
  rw [getKeyLocked_eq] at h
  cases hlookup : client.keys.lookup kid with
  | some signingKey =>
    simp only [hlookup, Locked.answered.injEq] at h
    exact .inl ⟨signingKey, rfl, h.symm⟩
  | none =>
    simp only [hlookup] at h
    split at h
    · rename_i hretry
      exact .inr (.inl ⟨rfl, hretry, (Locked.answered.inj h).symm⟩)
    · rename_i hretry
      split at h
      · rename_i hunknown
        exact .inr (.inr ⟨rfl, not_lt.mp hretry, hunknown, (Locked.answered.inj h).symm⟩)
      · contradiction

/-- Everything one event can do: the segment taken, with its guards and effects. -/
inductive Stepped (externals : Externals K) (config : KeycloakConfig T) (state : State T K)
    (event : Event T) : State T K × List (Effect T K) → Prop
  | ignored : Stepped externals config state event (state, [])
  | cached {kid algorithm outcome} (haction : event.action = .call kid algorithm)
      (htask : state.tasks event.task = .idle)
      (hcached : getKeyCached config state.client event.now kid algorithm = some outcome) :
      Stepped externals config state event (state.setTask event.task .finished,
        [.answered .cached kid algorithm event.now outcome])
  | queued {kid algorithm} (haction : event.action = .call kid algorithm)
      (htask : state.tasks event.task = .idle)
      (hcached : getKeyCached config state.client event.now kid algorithm = none) :
      Stepped externals config state event
        (state.setTask event.task (.waiting kid algorithm), [])
  | locked {kid algorithm outcome} (haction : event.action = .enter)
      (htask : state.tasks event.task = .waiting kid algorithm)
      (hlock : state.refreshLock = none)
      (hlocked : getKeyLocked config state.client event.now kid algorithm = .answered outcome) :
      Stepped externals config state event (state.setTask event.task .finished,
        [.answered .locked kid algorithm event.now outcome])
  | started {kid algorithm client} (haction : event.action = .enter)
      (htask : state.tasks event.task = .waiting kid algorithm)
      (hlock : state.refreshLock = none)
      (hlocked : getKeyLocked config state.client event.now kid algorithm = .fetching client) :
      Stepped externals config state event
        ({ state with client := client, refreshLock := some event.task }.setTask event.task
          (.fetching kid algorithm), [.fetchStarted event.now])
  | failed {kid algorithm exchange exn} (haction : event.action = .finish exchange)
      (htask : state.tasks event.task = .fetching kid algorithm)
      (hfetch : fetchKeys externals config exchange = .error exn) :
      Stepped externals config state event
        ({ state with client := (getKeyFetched config state.client event.now kid algorithm
            (.error exn)).1 }.unlocked.setTask event.task .finished,
          [.answered .fetched kid algorithm event.now
            (getKeyFetched config state.client event.now kid algorithm (.error exn)).2])
  | loaded {kid algorithm exchange keys} (haction : event.action = .finish exchange)
      (htask : state.tasks event.task = .fetching kid algorithm)
      (hfetch : fetchKeys externals config exchange = .ok keys) :
      Stepped externals config state event
        ({ state with client := (getKeyFetched config state.client event.now kid algorithm
            (.ok keys)).1 }.unlocked.setTask event.task .finished,
          [.loaded event.now exchange keys, .answered .fetched kid algorithm event.now
            (getKeyFetched config state.client event.now kid algorithm (.ok keys)).2])
  | abandoned {kid algorithm} (haction : event.action = .cancel)
      (htask : state.tasks event.task = .waiting kid algorithm) :
      Stepped externals config state event (state.setTask event.task .finished,
        [.answered .cancelled kid algorithm event.now (.error .cancelledError)])
  | interrupted {kid algorithm} (haction : event.action = .cancel)
      (htask : state.tasks event.task = .fetching kid algorithm) :
      Stepped externals config state event (state.unlocked.setTask event.task .finished,
        [.answered .cancelled kid algorithm event.now (.error .cancelledError)])

theorem step_cases (state : State T K) (event : Event T) :
    Stepped externals config state event (step externals config state event) := by
  unfold step
  split
  · rename_i kid algorithm haction htask
    split
    · exact .cached haction htask ‹_›
    · exact .queued haction htask ‹_›
  · rename_i kid algorithm haction htask
    split
    · rename_i hlock
      split
      · exact .locked haction htask hlock ‹_›
      · exact .started haction htask hlock ‹_›
    · exact .ignored
  · rename_i exchange kid algorithm haction htask
    cases hfetch : fetchKeys externals config exchange with
    | error exn => exact .failed haction htask hfetch
    | ok keys => exact .loaded haction htask hfetch
  · exact .abandoned ‹_› ‹_›
  · exact .interrupted ‹_› ‹_›
  · exact .ignored

/-! The refresh lock. -/

section lock
omit [Clock T]

/-- The holder of the lock is the one call with a fetch in flight. -/
def HolderFetches (state : State T K) : Prop :=
  ∀ task, state.refreshLock = some task ↔
    ∃ kid algorithm, state.tasks task = .fetching kid algorithm

theorem setTask_tasks (state : State T K) (task other : Nat) (value : Task) :
    (state.setTask task value).tasks other = if other = task then value else state.tasks other :=
  Function.update_apply ..

theorem HolderFetches.lock_of_fetching {state : State T K} (h : HolderFetches state) {task : Nat}
    {kid algorithm : String} (htask : state.tasks task = .fetching kid algorithm) :
    state.refreshLock = some task :=
  (h task).mpr ⟨kid, algorithm, htask⟩

theorem HolderFetches.setTask {state : State T K} (h : HolderFetches state) {task : Nat}
    {value : Task} (hlock : state.refreshLock ≠ some task)
    (hvalue : ∀ kid algorithm, value ≠ .fetching kid algorithm) :
    HolderFetches (state.setTask task value) := by
  intro other
  rw [setTask_tasks]
  by_cases hother : other = task
  · rw [if_pos hother, hother]
    exact ⟨fun hholds => absurd hholds hlock,
      fun ⟨kid, algorithm, hfetching⟩ => absurd hfetching (hvalue kid algorithm)⟩
  · rw [if_neg hother]
    exact h other

theorem HolderFetches.release {state : State T K} (h : HolderFetches state) {task : Nat}
    (hlock : state.refreshLock = some task) (client : JwksClient T K) :
    HolderFetches ({ state with client := client }.unlocked.setTask task .finished) := by
  intro other
  rw [setTask_tasks]
  by_cases hother : other = task
  · simp [State.unlocked, State.setTask, hother]
  · rw [if_neg hother]
    have hfree : ¬ ∃ kid algorithm, state.tasks other = .fetching kid algorithm := by
      rw [← h other, hlock]
      exact fun heq => hother (Option.some.inj heq).symm
    simpa [State.unlocked, State.setTask] using hfree

theorem HolderFetches.acquire {state : State T K} (h : HolderFetches state) {task : Nat}
    {kid algorithm : String} (hlock : state.refreshLock = none) (client : JwksClient T K) :
    HolderFetches ({ state with client := client, refreshLock := some task }.setTask task
      (.fetching kid algorithm)) := by
  intro other
  rw [setTask_tasks]
  by_cases hother : other = task
  · simp [State.setTask, hother]
  · rw [if_neg hother]
    have hfree : ¬ ∃ kid algorithm, state.tasks other = .fetching kid algorithm := by
      rw [← h other, hlock]
      simp
    have hne : some task ≠ some other := fun heq => hother (Option.some.inj heq).symm
    exact ⟨fun hholds => absurd hholds hne, fun hfetching => absurd hfetching hfree⟩

end lock

theorem holderFetches_step {state : State T K} {event : Event T} (h : HolderFetches state) :
    HolderFetches (step externals config state event).1 := by
  have hfree : ∀ value, state.tasks event.task = value →
      (∀ kid algorithm, value ≠ .fetching kid algorithm) →
      state.refreshLock ≠ some event.task := by
    intro value htask hvalue hlock
    have hholder := (h event.task).mp hlock
    cases hholder with
    | intro kid hholder =>
      cases hholder with
      | intro algorithm hfetching => exact hvalue kid algorithm (htask ▸ hfetching)
  have hstep : Stepped externals config state event _ := step_cases state event
  generalize step externals config state event = result at hstep ⊢
  cases hstep with
  | ignored => exact h
  | cached haction htask hcached => exact h.setTask (hfree _ htask (by simp)) (by simp)
  | queued haction htask hcached => exact h.setTask (hfree _ htask (by simp)) (by simp)
  | locked haction htask hlock hlocked => exact h.setTask (by simp [hlock]) (by simp)
  | started haction htask hlock hlocked => exact h.acquire hlock _
  | failed haction htask hfetch => exact h.release (h.lock_of_fetching htask) _
  | loaded haction htask hfetch => exact h.release (h.lock_of_fetching htask) _
  | abandoned haction htask => exact h.setTask (hfree _ htask (by simp)) (by simp)
  | interrupted haction htask => exact h.release (h.lock_of_fetching htask) state.client

/-! The fetch and the segment after it. -/

theorem readChunks_error {data : List UInt8} {chunks : List (List UInt8)} {exn : Exn}
    (h : readChunks config data chunks = .error exn) :
    ∃ message, exn = .keycloakUnavailableError message := by
  induction chunks generalizing data with
  | nil => simp [readChunks] at h
  | cons chunk rest ih =>
    unfold readChunks at h
    split at h
    · exact ⟨_, (Except.error.inj h).symm⟩
    · exact ih h

theorem raised_cases (error : TransportError) :
    (∃ message, error.raised = .keycloakUnavailableError message) ∨ error.raised = .otherError := by
  cases error <;> simp [TransportError.raised]

theorem readBody_error {exchange : Exchange} {exn : Exn}
    (h : readBody config exchange = .error exn) :
    (∃ message, exn = .keycloakUnavailableError message) ∨ exn = .otherError := by
  unfold readBody at h
  split at h
  · rw [← Except.error.inj h]
    exact raised_cases _
  · split at h
    · exact .inl ⟨_, (Except.error.inj h).symm⟩
    · split at h
      · exact .inl ⟨_, (Except.error.inj h).symm⟩
      · split at h
        · rename_i hchunks
          rw [← Except.error.inj h]
          exact .inl (readChunks_error hchunks)
        · split at h
          · rw [← Except.error.inj h]
            exact raised_cases _
          · contradiction

theorem fetchDocument_error {exchange : Exchange} {exn : Exn}
    (h : fetchDocument externals config exchange = .error exn) :
    (∃ message, exn = .keycloakUnavailableError message) ∨ exn = .otherError := by
  unfold fetchDocument at h
  split at h
  · rename_i hbody
    rw [← Except.error.inj h]
    exact readBody_error hbody
  · split at h
    · exact .inl ⟨_, (Except.error.inj h).symm⟩
    · contradiction

theorem fetchKeys_eq_ok {exchange : Exchange} {keys : List (String × SigningKey K)} :
    fetchKeys externals config exchange = .ok keys ↔
      ∃ document, fetchDocument externals config exchange = .ok document ∧
        parseJwks externals config document = .ok keys := by
  unfold fetchKeys
  cases fetchDocument externals config exchange <;> simp

theorem fetchKeys_error {exchange : Exchange} {exn : Exn}
    (h : fetchKeys externals config exchange = .error exn) :
    (∃ message, exn = .keycloakUnavailableError message) ∨
      (∃ message, exn = .valueError message) ∨ exn = .otherError := by
  unfold fetchKeys at h
  split at h
  · rename_i hdocument
    rw [← Except.error.inj h]
    rcases fetchDocument_error hdocument with hmapped | hother
    · exact .inl hmapped
    · exact .inr (.inr hother)
  · exact .inr (.inl (parseJwks_error externals config h))

theorem fetchKeys_ne_nil {exchange : Exchange} {keys : List (String × SigningKey K)}
    (h : fetchKeys externals config exchange = .ok keys) : keys ≠ [] := by
  obtain ⟨document, -, hparse⟩ := fetchKeys_eq_ok.mp h
  obtain ⟨_, _, _, _, _, _, hne, _⟩ := (parseJwks_eq_ok externals config).mp hparse
  exact hne

theorem getKeyFetched_error_keys (client : JwksClient T K) (now : T) (kid algorithm : String)
    (exn : Exn) :
    (getKeyFetched config client now kid algorithm (.error exn)).1.keys = client.keys ∧
      (getKeyFetched config client now kid algorithm (.error exn)).1.loadedAt = client.loadedAt ∧
      (getKeyFetched config client now kid algorithm (.error exn)).2 = .error exn := by
  cases exn <;> exact ⟨rfl, rfl, rfl⟩

theorem getKeyFetched_ok_keys (client : JwksClient T K) (now : T) (kid algorithm : String)
    (keys : List (String × SigningKey K)) :
    (getKeyFetched config client now kid algorithm (.ok keys)).1.keys = keys ∧
      (getKeyFetched config client now kid algorithm (.ok keys)).1.loadedAt = now := by
  unfold getKeyFetched
  cases hlookup : keys.lookup kid <;> simp [hlookup]

theorem getKeyFetched_ok_outcome (client : JwksClient T K) (now : T) (kid algorithm : String)
    (keys : List (String × SigningKey K)) :
    (getKeyFetched config client now kid algorithm (.ok keys)).2 =
      match keys.lookup kid with
      | none => .error (.invalidTokenError "Unknown signing key")
      | some key => selectAlgorithm key algorithm := by
  unfold getKeyFetched
  cases hlookup : keys.lookup kid <;> simp [hlookup]

theorem selectAlgorithm_eq_ok {signingKey : SigningKey K} {algorithm : String} {key : K} :
    selectAlgorithm signingKey algorithm = .ok key ↔
      algorithm ∈ signingKey.algorithms ∧ signingKey.publicKey = key := by
  unfold selectAlgorithm
  by_cases hmem : algorithm ∈ signingKey.algorithms <;> simp [hmem]

theorem selectAlgorithm_error {signingKey : SigningKey K} {algorithm : String} {exn : Exn}
    (h : selectAlgorithm signingKey algorithm = .error exn) :
    exn = .invalidTokenError "Signing algorithm is not allowed for this key" := by
  unfold selectAlgorithm at h
  split at h
  · contradiction
  · exact (Except.error.inj h).symm

/-! The snapshot. -/

structure Load (T K : Type) where
  now : T
  exchange : Exchange
  keys : List (String × SigningKey K)

def Effect.load? : Effect T K → Option (Load T K)
  | .loaded now exchange keys => some ⟨now, exchange, keys⟩
  | _ => none

def loads (log : List (Effect T K)) : List (Load T K) := log.filterMap Effect.load?

omit [Clock T] in
@[simp] theorem loads_append (log rest : List (Effect T K)) :
    loads (log ++ rest) = loads log ++ loads rest :=
  List.filterMap_append

/-- The client holds the snapshot of the last load, or none before the first one. -/
def HoldsLast (externals : Externals K) (config : KeycloakConfig T) (log : List (Effect T K))
    (client : JwksClient T K) : Prop :=
  match (loads log).getLast? with
  | none => client.keys = [] ∧ client.loadedAt = ⊥
  | some load => client.keys = load.keys ∧ client.loadedAt = load.now ∧
      fetchKeys externals config load.exchange = .ok load.keys

theorem HoldsLast.same {log out : List (Effect T K)} {client next : JwksClient T K}
    (h : HoldsLast externals config log client) (hout : loads out = [])
    (hkeys : next.keys = client.keys) (hloaded : next.loadedAt = client.loadedAt) :
    HoldsLast externals config (log ++ out) next := by
  unfold HoldsLast at h ⊢
  rw [loads_append, hout, List.append_nil, hkeys, hloaded]
  exact h

theorem holdsLast_step {log : List (Effect T K)} {state : State T K} {event : Event T}
    (h : HoldsLast externals config log state.client) :
    HoldsLast externals config (log ++ (step externals config state event).2)
      (step externals config state event).1.client := by
  have hstep : Stepped externals config state event _ := step_cases state event
  generalize step externals config state event = result at hstep ⊢
  cases hstep with
  | ignored => exact h.same rfl rfl rfl
  | cached haction htask hcached => exact h.same rfl rfl rfl
  | queued haction htask hcached => exact h.same rfl rfl rfl
  | locked haction htask hlock hlocked => exact h.same rfl rfl rfl
  | started haction htask hlock hlocked =>
    rw [(getKeyLocked_fetching hlocked).2.2.2]
    exact h.same rfl rfl rfl
  | failed haction htask hfetch =>
    have hsame := @getKeyFetched_error_keys T K _ config state.client event.now
    exact h.same rfl (hsame _ _ _).1 (hsame _ _ _).2.1
  | loaded haction htask hfetch =>
    have hnew := @getKeyFetched_ok_keys T K _ config state.client event.now
    unfold HoldsLast
    rw [loads_append]
    simp only [loads, Effect.load?, List.filterMap_cons, List.filterMap_nil,
      List.getLast?_append, List.getLast?_singleton, Option.some_or]
    exact ⟨(hnew _ _ _).1, (hnew _ _ _).2, hfetch⟩
  | abandoned haction htask => exact h.same rfl rfl rfl
  | interrupted haction htask => exact h.same rfl rfl rfl

/-- What holds after every run, whatever the clock shows. -/
theorem reached (events : List (Event T)) :
    HolderFetches ((machine externals config).after .init events) ∧
      HoldsLast externals config ((machine externals config).emitted .init events)
        ((machine externals config).after .init events).client := by
  have hrun : (machine externals config).Guarded (fun _ _ _ => True) events :=
    fun _ _ _ _ => trivial
  refine hrun.invariant (I := fun _ log state => HolderFetches state ∧
    HoldsLast externals config log state.client) ?_ ?_
  · exact ⟨fun task => by simp [machine, State.init], rfl, rfl⟩
  · intro past log state event _ h
    exact ⟨holderFetches_step h.1, holdsLast_step h.2⟩

end DddFramework.Keycloak
