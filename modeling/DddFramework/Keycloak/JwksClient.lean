import DddFramework.Keycloak.Jwks
import DddFramework.Library.Machine
import Mathlib.Order.WithBot
import Mathlib.Logic.Function.Basic

/-! The JWKS client as asyncio runs it. A `get_key` call is cut at its awaits into
three segments, each atomic and each reading the clock once: the cache lookup, the
double check once the refresh lock is held, and what follows the fetch. A run is
any interleaving of such segments, with cancellations and any fetch outcome. -/
namespace DddFramework.Keycloak

inductive TransportError where
  | clientError
  | timeoutError
  | other
deriving DecidableEq

/-- One HTTP exchange: no response, or a response whose body arrives in chunks
and may break off after them. -/
inductive Exchange where
  | failed (error : TransportError)
  | response (status : Nat) (contentLength : Option Nat) (chunks : List (List UInt8))
      (ending : Option TransportError)
deriving DecidableEq

/-- The handler around the exchange lets other exceptions through. -/
def TransportError.raised : TransportError → Exn
  | .clientError | .timeoutError =>
      .keycloakUnavailableError "Unable to fetch Keycloak signing keys"
  | .other => .otherError

section
variable {T K : Type} [Clock T] (externals : Externals K) (config : KeycloakConfig T)

def readChunks : List UInt8 → List (List UInt8) → Except Exn (List UInt8)
  | data, [] => .ok data
  | data, chunk :: rest =>
    if (data ++ chunk).length > config.maxJwksBytes then
      .error (.keycloakUnavailableError "JWKS document exceeds size limit")
    else readChunks (data ++ chunk) rest

def readBody (exchange : Exchange) : Except Exn (List UInt8) :=
  match exchange with
  | .failed error => .error error.raised
  | .response status contentLength chunks ending =>
    if status ≠ 200 then
      .error (.keycloakUnavailableError "Unable to fetch Keycloak signing keys")
    else if contentLength.any (config.maxJwksBytes < ·) then
      .error (.keycloakUnavailableError "JWKS document exceeds size limit")
    else
      match readChunks config [] chunks with
      | .error exn => .error exn
      | .ok data =>
        match ending with
        | some error => .error error.raised
        | none => .ok data

/-- `_fetch_keys` up to the key set parser, which runs in the `else` of its `try`. -/
def fetchDocument (exchange : Exchange) : Except Exn Json :=
  match readBody config exchange with
  | .error exn => .error exn
  | .ok data =>
    match externals.loads data with
    | none => .error (.keycloakUnavailableError "Keycloak returned invalid signing keys")
    | some document => .ok document

def fetchKeys (exchange : Exchange) : Except Exn (List (String × SigningKey K)) :=
  match fetchDocument externals config exchange with
  | .error exn => .error exn
  | .ok document => parseJwks externals config document
end

structure Coroutine (α : Type) where
  awaited : α

/-- A coroutine object defines neither `__bool__` nor `__len__`, so it is true. -/
def Coroutine.truthy {α : Type} (_ : Coroutine α) : Bool := true

/-- The mutable fields of the client. `⊥` is `_NEGATIVE_INF`. -/
structure JwksClient (T K : Type) where
  keys : List (String × SigningKey K)
  loadedAt : WithBot T
  retryAfter : WithBot T
  unknownKidRefreshAfter : WithBot T

def JwksClient.init {T K : Type} : JwksClient T K := ⟨[], ⊥, ⊥, ⊥⟩

section
variable {T K : Type} [Clock T] (config : KeycloakConfig T)

/-- Declared `async`: its call sites get the coroutine, not the answer. -/
def isFresh (client : JwksClient T K) (now : T) : Coroutine Bool where
  awaited := !client.keys.isEmpty &&
    match client.loadedAt with
    | ⊥ => false
    | (loadedAt : T) => decide (now - loadedAt < config.jwksCacheTtl)

/-- `get_key` up to the refresh lock; `none` goes on to wait for the lock. -/
def getKeyCached (client : JwksClient T K) (now : T) (kid algorithm : String) :
    Option (Except Exn K) :=
  if kid = "" then some (.error (.invalidTokenError "Missing signing key ID"))
  else if algorithm ∉ config.algorithmNames then
    some (.error (.invalidTokenError "Unsupported signing algorithm"))
  else if (isFresh config client now).truthy then
    (client.keys.lookup kid).map fun key => selectAlgorithm key algorithm
  else none

inductive Locked (T K : Type) where
  | answered (outcome : Except Exn K)
  | fetching (client : JwksClient T K)

/-- `get_key` from the acquired refresh lock to the await of `_fetch_keys`. -/
def getKeyLocked (client : JwksClient T K) (now : T) (kid algorithm : String) : Locked T K :=
  let fresh := isFresh config client now
  match if fresh.truthy then client.keys.lookup kid else none with
  | some key => .answered (selectAlgorithm key algorithm)
  | none =>
    if (now : WithBot T) < client.retryAfter then
      .answered (.error (.keycloakUnavailableError "JWKS refresh is temporarily unavailable"))
    else if fresh.truthy then
      if (now : WithBot T) < client.unknownKidRefreshAfter then
        .answered (.error (.invalidTokenError "Unknown signing key"))
      else
        .fetching { client with unknownKidRefreshAfter := ↑(now + config.jwksRefreshCooldown) }
    else .fetching client

/-- `get_key` from the end of `_fetch_keys` on. Only `KeycloakUnavailableError`
passes through the handler that arms `_retry_after`. -/
def getKeyFetched (client : JwksClient T K) (now : T) (kid algorithm : String)
    (fetched : Except Exn (List (String × SigningKey K))) : JwksClient T K × Except Exn K :=
  match fetched with
  | .error (.keycloakUnavailableError message) =>
    ({ client with retryAfter := ↑(now + config.jwksRefreshCooldown) },
      .error (.keycloakUnavailableError message))
  | .error exn => (client, .error exn)
  | .ok keys =>
    let client := { client with keys := keys, loadedAt := ↑now, retryAfter := ⊥ }
    match keys.lookup kid with
    | none =>
      ({ client with unknownKidRefreshAfter := ↑(now + config.jwksRefreshCooldown) },
        .error (.invalidTokenError "Unknown signing key"))
    | some key => (client, selectAlgorithm key algorithm)
end

inductive Task where
  | idle
  | waiting (kid algorithm : String)
  | fetching (kid algorithm : String)
  | finished
deriving DecidableEq

inductive Action where
  | call (kid algorithm : String)
  | enter
  | finish (exchange : Exchange)
  | cancel

structure Event (T : Type) where
  now : T
  task : Nat
  action : Action

inductive Path where
  | cached
  | locked
  | fetched
  | cancelled
deriving DecidableEq

inductive Effect (T K : Type) where
  | fetchStarted (now : T)
  | loaded (now : T) (exchange : Exchange) (keys : List (String × SigningKey K))
  | answered (path : Path) (kid algorithm : String) (now : T) (outcome : Except Exn K)

structure State (T K : Type) where
  client : JwksClient T K
  refreshLock : Option Nat
  tasks : Nat → Task

namespace State
variable {T K : Type}

def init : State T K := ⟨.init, none, fun _ => .idle⟩

def setTask (state : State T K) (task : Nat) (value : Task) : State T K :=
  { state with tasks := Function.update state.tasks task value }

def unlocked (state : State T K) : State T K := { state with refreshLock := none }

end State

/-- One segment of one call. An event the call cannot take is ignored. -/
def step {T K : Type} [Clock T] (externals : Externals K) (config : KeycloakConfig T)
    (state : State T K) (event : Event T) : State T K × List (Effect T K) :=
  match event.action, state.tasks event.task with
  | .call kid algorithm, .idle =>
    match getKeyCached config state.client event.now kid algorithm with
    | some outcome =>
      (state.setTask event.task .finished,
        [.answered .cached kid algorithm event.now outcome])
    | none => (state.setTask event.task (.waiting kid algorithm), [])
  | .enter, .waiting kid algorithm =>
    if state.refreshLock = none then
      match getKeyLocked config state.client event.now kid algorithm with
      | .answered outcome =>
        (state.setTask event.task .finished,
          [.answered .locked kid algorithm event.now outcome])
      | .fetching client =>
        ({ state with client := client, refreshLock := some event.task }.setTask event.task
          (.fetching kid algorithm), [.fetchStarted event.now])
    else (state, [])
  | .finish exchange, .fetching kid algorithm =>
    let fetched := fetchKeys externals config exchange
    let ended := getKeyFetched config state.client event.now kid algorithm fetched
    let loads : List (Effect T K) := match fetched with
      | .ok keys => [.loaded event.now exchange keys]
      | .error _ => []
    ({ state with client := ended.1 }.unlocked.setTask event.task .finished,
      loads ++ [.answered .fetched kid algorithm event.now ended.2])
  | .cancel, .waiting kid algorithm =>
    (state.setTask event.task .finished,
      [.answered .cancelled kid algorithm event.now (.error .cancelledError)])
  | .cancel, .fetching kid algorithm =>
    (state.unlocked.setTask event.task .finished,
      [.answered .cancelled kid algorithm event.now (.error .cancelledError)])
  | _, _ => (state, [])

def machine {T K : Type} [Clock T] (externals : Externals K) (config : KeycloakConfig T) :
    Library.Machine (State T K) (Event T) (Effect T K) where
  init := .init
  step := step externals config

def Monotonic {T : Type} [Clock T] (events : List (Event T)) : Prop :=
  (events.map Event.now).Pairwise (· ≤ ·)

end DddFramework.Keycloak
