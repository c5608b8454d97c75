import DddFramework.Keycloak.JwksFreshness
import DddFramework.Keycloak.JwksOutcome

/-! What a returned key is bound to. The chain runs from an untrusted list of entries
through the parser and the snapshot of the last load to the three return paths. It also
runs backwards: a call that the last load can answer is answered with its key, unless the
call is cancelled. -/
namespace DddFramework.Keycloak
open Library

variable {T K : Type} [Clock T] {externals : Externals K} {config : KeycloakConfig T}

/-- The document of an exchange has exactly one usable entry for the kid; its key is
`key`, and it may be used with the algorithm. -/
def Binds (externals : Externals K) (config : KeycloakConfig T) (exchange : Exchange)
    (kid algorithm : String) (key : K) : Prop :=
  ∃ document entries fields, fetchDocument externals config exchange = .ok (.obj document) ∧
    Json.get document "keys" = some (.arr entries) ∧
    OnlyUsable externals config entries fields kid key ∧ AllowsAlgorithm config fields algorithm

theorem binds_of_lookup {exchange : Exchange} {keys : List (String × SigningKey K)}
    {kid algorithm : String} {signingKey : SigningKey K} {key : K}
    (hfetch : fetchKeys externals config exchange = .ok keys)
    (hlookup : keys.lookup kid = some signingKey)
    (hselect : selectAlgorithm signingKey algorithm = .ok key) :
    Binds externals config exchange kid algorithm key := by
  obtain ⟨value, hdocument, hparse⟩ := fetchKeys_eq_ok.mp hfetch
  obtain ⟨document, entries, rfl, hentries, -, rfl, -, hnodup⟩ :=
    (parseJwks_eq_ok externals config).mp hparse
  obtain ⟨fields, honly, halgorithms⟩ :=
    onlyUsable_of_lookup externals config hnodup hlookup
  obtain ⟨hmem, rfl⟩ := selectAlgorithm_eq_ok.mp hselect
  exact ⟨document, entries, fields, hdocument, hentries, honly,
    ((entryAlgorithms_eq_some config halgorithms).2 algorithm).mp hmem⟩

theorem lookup_of_binds {exchange : Exchange} {keys : List (String × SigningKey K)}
    {kid algorithm : String} {key : K} (hfetch : fetchKeys externals config exchange = .ok keys)
    (h : Binds externals config exchange kid algorithm key) :
    ∃ signingKey, keys.lookup kid = some signingKey ∧
      selectAlgorithm signingKey algorithm = .ok key := by
  obtain ⟨document, entries, fields, hdocument, hentries, ⟨before, behind, rfl, husable, -⟩,
    hallows⟩ := h
  obtain ⟨value, hvalue, hparse⟩ := fetchKeys_eq_ok.mp hfetch
  obtain rfl := Except.ok.inj (hdocument.symm.trans hvalue)
  obtain ⟨found, hfound, haccepts, rfl⟩ := parseJwks_eq_ok_iff.mp hparse
  have hsame := documentKeys_eq_some.mpr ⟨document, rfl, hentries⟩
  obtain rfl := Option.some.inj (hsame.symm.trans hfound)
  obtain ⟨algorithms, halgorithms⟩ := entryAlgorithms_isSome config husable.alg
  have hparsed : parseKey externals config (.obj fields) = some (kid, ⟨key, algorithms⟩) :=
    (parseKey_eq_some externals config).mpr ⟨fields, rfl, husable, halgorithms⟩
  have hmem := ((entryAlgorithms_eq_some config halgorithms).2 algorithm).mpr hallows
  exact ⟨_, (lookup_usableKeys haccepts).mpr ⟨_, by simp, hparsed⟩,
    selectAlgorithm_eq_ok.mpr ⟨hmem, rfl⟩⟩

theorem binds_iff {exchange : Exchange} {keys : List (String × SigningKey K)}
    {kid algorithm : String} {key : K} (hfetch : fetchKeys externals config exchange = .ok keys) :
    Binds externals config exchange kid algorithm key ↔ ∃ signingKey,
      keys.lookup kid = some signingKey ∧ selectAlgorithm signingKey algorithm = .ok key := by
  refine ⟨lookup_of_binds hfetch, ?_⟩
  rintro ⟨signingKey, hlookup, hselect⟩
  exact binds_of_lookup hfetch hlookup hselect

/-- Every key returned was found in the snapshot of the last load before it. -/
theorem returned_from_last_load {events : List (Event T)} {path : Path} {kid algorithm : String}
    {now : T} {key : K} {earlier later : List (Effect T K)}
    (h : (machine externals config).emitted .init events =
      earlier ++ .answered path kid algorithm now (.ok key) :: later) :
    ∃ load signingKey, (loads earlier).getLast? = some load ∧
      fetchKeys externals config load.exchange = .ok load.keys ∧
      load.keys.lookup kid = some signingKey ∧ selectAlgorithm signingKey algorithm = .ok key := by
  obtain ⟨past, event, rest, before, behind, hsplit, hstep, hearlier⟩ :=
    Machine.exists_step_of_emitted _ h
  obtain ⟨-, signingKey, hselect, hserved⟩ := returned_cases hstep
  rcases hserved with ⟨-, rfl, -, hfound⟩ | ⟨-, exchange, keys, hfetch, rfl, hfound⟩
  · have hlast := (@reached T K _ externals config past).2
    unfold HoldsLast at hlast
    rw [hearlier, List.append_nil]
    split at hlast
    · simp [hlast.1] at hfound
    · rename_i load hload
      exact ⟨load, signingKey, hload, hlast.2.2, hlast.1 ▸ hfound, hselect⟩
  · refine ⟨⟨event.now, exchange, keys⟩, signingKey, ?_, hfetch, hfound, hselect⟩
    rw [hearlier, loads_append]
    simp [loads, Effect.load?]

/-! Calls that the last load can answer. -/

/-- The last load of the log has one usable key for the kid and the algorithm. -/
def LastBinds (externals : Externals K) (config : KeycloakConfig T) (log : List (Effect T K))
    (kid algorithm : String) (key : K) : Prop :=
  ∃ load, (loads log).getLast? = some load ∧
    Binds externals config load.exchange kid algorithm key

theorem HoldsLast.lastBinds_iff {log : List (Effect T K)} {client : JwksClient T K}
    (h : HoldsLast externals config log client) {kid algorithm : String} {key : K} :
    LastBinds externals config log kid algorithm key ↔ ∃ signingKey,
      client.keys.lookup kid = some signingKey ∧
        selectAlgorithm signingKey algorithm = .ok key := by
  unfold HoldsLast at h
  unfold LastBinds
  cases hlast : (loads log).getLast? with
  | none =>
    rw [hlast] at h
    simp [h.1]
  | some load =>
    rw [hlast] at h
    simp only [Option.some.injEq, exists_eq_left', h.1, binds_iff h.2.2]

theorem lastBinds_loaded {log : List (Effect T K)} {now : T} {exchange : Exchange}
    {keys : List (String × SigningKey K)} {kid algorithm : String} {key : K}
    (hfetch : fetchKeys externals config exchange = .ok keys) :
    LastBinds externals config (log ++ [.loaded now exchange keys]) kid algorithm key ↔
      ∃ signingKey, keys.lookup kid = some signingKey ∧
        selectAlgorithm signingKey algorithm = .ok key := by
  have hlast : (loads (log ++ [.loaded now exchange keys])).getLast? =
      some ⟨now, exchange, keys⟩ := by
    rw [loads_append, List.getLast?_append]
    rfl
  simp only [LastBinds, hlast, Option.some.injEq, exists_eq_left', binds_iff hfetch]

omit [Clock T] in
theorem loads_answered (log : List (Effect T K)) (path : Path) (kid algorithm : String) (now : T)
    (answer : Except Exn K) :
    loads (log ++ [.answered path kid algorithm now answer]) = loads log := by
  rw [loads_append]
  exact List.append_nil _

theorem lastBinds_answered {log : List (Effect T K)} {path : Path} {kid algorithm kid' : String}
    {algorithm' : String} {now : T} {answer : Except Exn K} {key : K} :
    LastBinds externals config (log ++ [.answered path kid algorithm now answer]) kid' algorithm'
      key ↔ LastBinds externals config log kid' algorithm' key := by
  rw [LastBinds, loads_answered, LastBinds]

theorem LastBinds.valid {log : List (Effect T K)} {kid algorithm : String} {key : K}
    (h : LastBinds externals config log kid algorithm key) :
    kid ≠ "" ∧ algorithm ∈ config.algorithmNames := by
  obtain ⟨load, -, document, entries, fields, -, -, ⟨before, behind, -, husable, -⟩, hallows⟩ := h
  exact ⟨husable.kid_nonempty, hallows.1⟩

def FetchesMissing (state : State T K) : Prop :=
  ∀ task kid algorithm, state.tasks task = .fetching kid algorithm →
    state.client.keys.lookup kid = none

omit [Clock T] in
theorem FetchesMissing.setTask {state next : State T K} (h : FetchesMissing state) {task : Nat}
    {value : Task} (hkeys : next.client.keys = state.client.keys)
    (htasks : next.tasks = state.tasks) (hvalue : ∀ kid algorithm,
      value = .fetching kid algorithm → state.client.keys.lookup kid = none) :
    FetchesMissing (next.setTask task value) := by
  intro other kid algorithm hother
  change next.client.keys.lookup kid = none
  rw [setTask_tasks, htasks] at hother
  rw [hkeys]
  split at hother
  · exact hvalue kid algorithm hother
  · exact h other kid algorithm hother

theorem fetchesMissing_step {state : State T K} {event : Event T} (hholder : HolderFetches state)
    (h : FetchesMissing state) : FetchesMissing (step externals config state event).1 := by
  have hstep : Stepped externals config state event _ := step_cases state event
  generalize step externals config state event = result at hstep ⊢
  cases hstep with
  | ignored => exact h
  | cached | queued | locked | abandoned => exact h.setTask rfl rfl nofun
  | interrupted => exact h.setTask rfl rfl nofun
  | started haction htask hlock hlocked =>
    obtain ⟨hmissing, -, -, rfl⟩ := getKeyLocked_fetching hlocked
    apply h.setTask rfl rfl
    intro kid algorithm hfetching
    obtain ⟨rfl, -⟩ := Task.fetching.inj hfetching
    exact hmissing
  | failed haction htask hfetch =>
    exact h.setTask (getKeyFetched_error_keys ..).1 rfl nofun
  | @loaded kid algorithm exchange keys haction htask hfetch =>
    -- only the holder of the lock fetches, and it is done
    intro other otherKid otherAlgorithm hother
    rw [setTask_tasks] at hother
    split at hother
    · contradiction
    · rename_i hne
      have hsame := (hholder.lock_of_fetching htask).symm.trans (hholder.lock_of_fetching hother)
      exact absurd (Option.some.inj hsame).symm hne

theorem fetchesMissing (events : List (Event T)) :
    FetchesMissing ((machine externals config).after .init events) := by
  have hrun : (machine externals config).Guarded (fun _ _ _ => True) events :=
    fun _ _ _ _ => trivial
  refine (hrun.invariant (I := fun _ _ state => HolderFetches state ∧ FetchesMissing state)
    ?_ ?_).2
  · exact ⟨fun task => by simp [machine, State.init], nofun⟩
  · intro past log state event _ h
    exact ⟨holderFetches_step h.1, fetchesMissing_step h.1 h.2⟩

/-! What each segment answers, against the last load of the log. -/
section answers
variable {log : List (Effect T K)} {client : JwksClient T K} {kid algorithm : String} {now : T}
  {answer : Except Exn K} {key : K}

theorem cached_ok_iff (hlast : HoldsLast externals config log client)
    (h : getKeyCached config client now kid algorithm = some answer) :
    answer = .ok key ↔ LastBinds externals config log kid algorithm key := by
  constructor
  · rintro rfl
    obtain ⟨-, -, hfound⟩ := getKeyCached_eq_ok h
    exact hlast.lastBinds_iff.mpr hfound
  · intro hbinds
    obtain ⟨hkid, halgorithm⟩ := hbinds.valid
    obtain ⟨signingKey, hlookup, hselect⟩ := hlast.lastBinds_iff.mp hbinds
    obtain ⟨found, hfound, rfl⟩ := (getKeyCached_eq_some hkid halgorithm).mp h
    obtain rfl := Option.some.inj (hlookup.symm.trans hfound)
    exact hselect

theorem locked_ok_iff (hlast : HoldsLast externals config log client)
    (h : getKeyLocked config client now kid algorithm = .answered answer) :
    answer = .ok key ↔ LastBinds externals config log kid algorithm key := by
  rw [hlast.lastBinds_iff]
  rcases getKeyLocked_answered h with ⟨signingKey, hlookup, rfl⟩ | ⟨hnone, -, rfl⟩ |
    ⟨hnone, -, -, rfl⟩
  · simp [hlookup]
  · simp [hnone]
  · simp [hnone]

theorem failed_ok_iff {exn : Exn} (hlast : HoldsLast externals config log client)
    (hmissing : client.keys.lookup kid = none) :
    (getKeyFetched config client now kid algorithm (.error exn)).2 = .ok key ↔
      LastBinds externals config log kid algorithm key := by
  rw [hlast.lastBinds_iff, hmissing, (getKeyFetched_error_keys ..).2.2]
  simp

theorem loaded_ok_iff {exchange : Exchange} {keys : List (String × SigningKey K)}
    (hfetch : fetchKeys externals config exchange = .ok keys) :
    (getKeyFetched config client now kid algorithm (.ok keys)).2 = .ok key ↔
      LastBinds externals config (log ++ [.loaded now exchange keys]) kid algorithm key := by
  rw [lastBinds_loaded hfetch, getKeyFetched_ok_outcome]
  cases hlookup : keys.lookup kid <;> simp

omit [Clock T] in
theorem answered_of_single {path path' : Path} {kid' algorithm' : String} {now' : T}
    {answer' : Except Exn K} {before behind : List (Effect T K)}
    (h : [.answered path kid algorithm now answer] =
      before ++ .answered path' kid' algorithm' now' answer' :: behind) :
    before = [] ∧ kid = kid' ∧ algorithm = algorithm' ∧ answer = answer' := by
  cases before with
  | nil =>
    obtain ⟨-, rfl, rfl, -, rfl⟩ := Effect.answered.inj (List.cons.inj h).1
    exact ⟨rfl, rfl, rfl, rfl⟩
  | cons first before => simp at h

omit [Clock T] in
theorem answered_of_loaded {path path' : Path} {kid' algorithm' : String} {loadedAt now' : T}
    {exchange : Exchange} {keys : List (String × SigningKey K)} {answer' : Except Exn K}
    {before behind : List (Effect T K)}
    (h : [.loaded loadedAt exchange keys, .answered path kid algorithm now answer] =
      before ++ .answered path' kid' algorithm' now' answer' :: behind) :
    before = [.loaded loadedAt exchange keys] ∧ kid = kid' ∧ algorithm = algorithm' ∧
      answer = answer' := by
  cases before with
  | nil => simp at h
  | cons first before =>
    obtain ⟨rfl, hrest⟩ := List.cons.inj h
    obtain ⟨rfl, hsame⟩ := answered_of_single hrest
    exact ⟨rfl, hsame⟩

end answers

/-- A call is answered with a key just when the last load has it, and the call was not
cancelled: the cool-downs refuse no kid that is there. -/
theorem answered_ok_iff {past : List (Event T)} {event : Event T} {path : Path}
    {kid algorithm : String} {now : T} {answer : Except Exn K} {before behind : List (Effect T K)}
    (h : (step externals config ((machine externals config).after .init past) event).2 =
      before ++ .answered path kid algorithm now answer :: behind) (key : K) :
    answer = .ok key ↔ event.action ≠ .cancel ∧
      LastBinds externals config ((machine externals config).emitted .init past ++ before)
        kid algorithm key := by
  have hlast := (@reached T K _ externals config past).2
  have hmissing := @fetchesMissing T K _ externals config past
  generalize (machine externals config).emitted .init past = log at hlast ⊢
  generalize (machine externals config).after .init past = state at h hlast hmissing
  have hstep : Stepped externals config state event _ := step_cases state event
  generalize step externals config state event = result at hstep h
  cases hstep with
  | ignored | queued | started => simp [List.cons_eq_append_iff] at h
  | cached haction htask hcached =>
    obtain ⟨rfl, rfl, rfl, rfl⟩ := answered_of_single h
    rw [List.append_nil, haction, and_iff_right (by simp)]
    exact cached_ok_iff hlast hcached
  | locked haction htask hlock hlocked =>
    obtain ⟨rfl, rfl, rfl, rfl⟩ := answered_of_single h
    rw [List.append_nil, haction, and_iff_right (by simp)]
    exact locked_ok_iff hlast hlocked
  | failed haction htask hfetch =>
    obtain ⟨rfl, rfl, rfl, rfl⟩ := answered_of_single h
    rw [List.append_nil, haction, and_iff_right (by simp)]
    exact failed_ok_iff hlast (hmissing _ _ _ htask)
  | loaded haction htask hfetch =>
    obtain ⟨rfl, rfl, rfl, rfl⟩ := answered_of_loaded h
    rw [haction, and_iff_right (by simp)]
    exact loaded_ok_iff hfetch
  | abandoned haction htask | interrupted haction htask =>
    obtain ⟨-, -, -, rfl⟩ := answered_of_single h
    simp [haction]

theorem returned_binds {events : List (Event T)} {path : Path} {kid algorithm : String}
    {now : T} {key : K} {earlier later : List (Effect T K)}
    (h : (machine externals config).emitted .init events =
      earlier ++ .answered path kid algorithm now (.ok key) :: later) :
    ∃ load, (loads earlier).getLast? = some load ∧
      Binds externals config load.exchange kid algorithm key := by
  obtain ⟨load, signingKey, hload, hfetch, hlookup, hselect⟩ := returned_from_last_load h
  exact ⟨load, hload, binds_of_lookup hfetch hlookup hselect⟩

theorem sampleRun_returned_binds :
    ∃ load : Load ℚ String,
      (loads [.fetchStarted 0, .loaded 1 sampleExchange sampleKeys]).getLast? = some load ∧
      Binds sampleExternals .default load.exchange "k1" "RS256" sampleModulus :=
  @returned_binds ℚ String _ sampleExternals .default sampleRun .fetched "k1" "RS256" 1
    sampleModulus [.fetchStarted 0, .loaded 1 sampleExchange sampleKeys] [] sampleRun_run.2

end DddFramework.Keycloak
