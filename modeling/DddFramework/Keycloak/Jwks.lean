import Mathlib.Algebra.Order.Ring.Rat
import Mathlib.Tactic.NormNum

/-! Configuration, exceptions and the JWKS parser. A document is the value the
JSON library returned, from an untrusted provider: every shape of it is handled.
RSA key construction belongs to a library and is a partial function of the entry. -/
namespace DddFramework.Keycloak

inductive Json where
  | null
  | bool (value : Bool)
  | num (value : ℚ)
  | str (value : String)
  | arr (items : List Json)
  | obj (fields : List (String × Json))

namespace Json

/-- `dict.get`, whose result is `None` for a missing field and for a JSON null. -/
def get (fields : List (String × Json)) (name : String) : Option Json :=
  match fields.lookup name with
  | none => none
  | some .null => none
  | some value => some value

/-- `field in raw`, which a field holding null satisfies. -/
def has (fields : List (String × Json)) (name : String) : Bool :=
  (fields.lookup name).isSome

def isStr : Json → Bool
  | .str _ => true
  | _ => false

def eqStr (text : String) : Json → Bool
  | .str value => value == text
  | _ => false

theorem isStr_iff {value : Json} : value.isStr = true ↔ ∃ text, value = .str text := by
  cases value <;> simp [isStr]

theorem eqStr_iff {text : String} {value : Json} :
    value.eqStr text = true ↔ value = .str text := by
  cases value <;> simp [eqStr]

end Json

inductive Exn where
  | invalidTokenError (message : String)
  | keycloakUnavailableError (message : String)
  | valueError (message : String)
  | cancelledError
  | otherError
deriving DecidableEq

inductive Algorithm where
  | RS256
  | RS384
  | RS512
deriving DecidableEq

def Algorithm.value : Algorithm → String
  | .RS256 => "RS256"
  | .RS384 => "RS384"
  | .RS512 => "RS512"

/-- Readings of a clock and the spans between them. Sums and differences may be rounded, as
those of floats are. -/
class Clock (T : Type) extends LinearOrder T, Zero T, Add T, Sub T where
  sub_self (t : T) : t - t = 0
  add_le_add_right {s t : T} (h : s ≤ t) (span : T) : s + span ≤ t + span

instance : Clock ℚ where
  sub_self _ := sub_eq_zero_of_eq rfl
  add_le_add_right h _ := add_le_add h le_rfl

/-- The settings the JWKS client reads, with the bounds their fields declare. -/
structure KeycloakConfig (T : Type) [Clock T] where
  algorithms : List Algorithm
  algorithms_nonempty : algorithms ≠ []
  jwksCacheTtl : T
  jwksCacheTtl_pos : 0 < jwksCacheTtl
  jwksRefreshCooldown : T
  jwksRefreshCooldown_pos : 0 < jwksRefreshCooldown
  maxJwksBytes : Nat
  maxJwksBytes_pos : 0 < maxJwksBytes
  maxJwksKeys : Nat
  maxJwksKeys_pos : 0 < maxJwksKeys
  minRsaKeyBits : Nat
  minRsaKeyBits_ge : 2048 ≤ minRsaKeyBits

def KeycloakConfig.algorithmNames {T : Type} [Clock T] (config : KeycloakConfig T) : List String :=
  config.algorithms.map Algorithm.value

def KeycloakConfig.default : KeycloakConfig ℚ where
  algorithms := [.RS256]
  algorithms_nonempty := by decide
  jwksCacheTtl := 300
  jwksCacheTtl_pos := by norm_num
  jwksRefreshCooldown := 5
  jwksRefreshCooldown_pos := by norm_num
  maxJwksBytes := 256 * 1024
  maxJwksBytes_pos := by norm_num
  maxJwksKeys := 128
  maxJwksKeys_pos := by norm_num
  minRsaKeyBits := 2048
  minRsaKeyBits_ge := le_refl _

/-- What `RSAAlgorithm.from_jwk` builds: only a public key is ever used. -/
inductive RsaKey (K : Type) where
  | publicKey (key : K)
  | privateKey
deriving DecidableEq

/-- The libraries the client calls. `none` is any exception it catches from them. -/
structure Externals (K : Type) where
  loads : List UInt8 → Option Json
  fromJwk : List (String × Json) → Option (RsaKey K)
  keySize : K → Nat

structure SigningKey (K : Type) where
  publicKey : K
  algorithms : List String
deriving DecidableEq

def privateRsaFields : List String := ["d", "p", "q", "dp", "dq", "qi", "oth"]

def useAllowed (fields : List (String × Json)) : Bool :=
  match Json.get fields "use" with
  | none => true
  | some value => value.eqStr "sig"

def keyOpsAllowed (fields : List (String × Json)) : Bool :=
  match Json.get fields "key_ops" with
  | none => true
  | some (.arr keyOps) => keyOps.all Json.isStr && keyOps.any (Json.eqStr "verify")
  | some _ => false

variable {T K : Type} [Clock T]

/-- The algorithms the entry may be used with; `none` rejects the entry. -/
def entryAlgorithms (config : KeycloakConfig T) (fields : List (String × Json)) :
    Option (List String) :=
  match Json.get fields "alg" with
  | none => some config.algorithmNames
  | some (.str declaredAlg) =>
      if declaredAlg ∈ config.algorithmNames then some [declaredAlg] else none
  | some _ => none

variable (externals : Externals K) (config : KeycloakConfig T)

def rsaPublicKey (fields : List (String × Json)) : Option K :=
  match externals.fromJwk fields with
  | some (.publicKey key) =>
      if externals.keySize key < config.minRsaKeyBits then none else some key
  | _ => none

def parseKey (raw : Json) : Option (String × SigningKey K) :=
  match raw with
  | .obj fields =>
    match Json.get fields "kid" with
    | some (.str kid) =>
      if kid = "" ∨ ¬ (Json.get fields "kty").any (Json.eqStr "RSA") then none
      else if privateRsaFields.any (Json.has fields) then none
      else if ¬ useAllowed fields then none
      else if ¬ keyOpsAllowed fields then none
      else
        match entryAlgorithms config fields with
        | none => none
        | some algorithms =>
          match rsaPublicKey externals config fields with
          | none => none
          | some publicKey => some (kid, ⟨publicKey, algorithms⟩)
    | _ => none
  | _ => none

/-- The loop over the entries: unusable ones are skipped, a repeated kid fails. -/
def collectKeys : List Json → List (String × SigningKey K) →
    Except Exn (List (String × SigningKey K))
  | [], keys => .ok keys
  | raw :: rest, keys =>
    match parseKey externals config raw with
    | none => collectKeys rest keys
    | some (kid, signingKey) =>
      if (keys.lookup kid).isSome then
        .error (.valueError "JWKS contains duplicate signing key IDs")
      else collectKeys rest (keys ++ [(kid, signingKey)])

def parseJwks (document : Json) : Except Exn (List (String × SigningKey K)) :=
  match document with
  | .obj fields =>
    match Json.get fields "keys" with
    | some (.arr rawKeys) =>
      if rawKeys.length > config.maxJwksKeys then
        .error (.valueError "JWKS contains too many keys")
      else
        match collectKeys externals config rawKeys [] with
        | .error exn => .error exn
        | .ok [] => .error (.valueError "JWKS contains no usable signing keys")
        | .ok keys => .ok keys
    | _ => .error (.valueError "Invalid JWKS document")
  | _ => .error (.valueError "Invalid JWKS document")

def selectAlgorithm (key : SigningKey K) (algorithm : String) : Except Exn K :=
  if algorithm ∈ key.algorithms then .ok key.publicKey
  else .error (.invalidTokenError "Signing algorithm is not allowed for this key")

end DddFramework.Keycloak
