import DddFramework.Keycloak.Jwks
import DddFramework.Library.Fallible
import Mathlib.Data.List.DropRight

/-! One access token, before its signing key is known and after. The JOSE library is a
parameter: it reads a header without trusting it, and decodes a token under a key and
the options given. What verification adds to it is checked here field by field. -/
namespace DddFramework.Keycloak
open Library.Fallible

inductive PyFloat where
  | finite (value : ℚ)
  | infinity (negative : Bool)
  | nan
deriving DecidableEq

inductive ClaimValue where
  | null
  | bool (value : Bool)
  | int (value : Int)
  | float (value : PyFloat)
  | str (value : String)
  | arr (items : List ClaimValue)
  | obj (fields : List (String × ClaimValue))

abbrev Claims := List (String × ClaimValue)

/-- What a library may raise; the last case is any exception no handler names. -/
inductive PyError where
  | pyJwtError
  | valueError
  | typeError
  | overflowError
  | other
deriving DecidableEq

inductive VerifyExn where
  | raised (exn : Exn)
  | escaped (error : PyError)
deriving DecidableEq

def invalidToken {α : Type} (message : String) : Except VerifyExn α :=
  .error (.raised (.invalidTokenError message))

inductive TokenType where
  | Bearer
deriving DecidableEq

def TokenType.value : TokenType → String
  | .Bearer => "Bearer"

structure VerifierConfig (T : Type) [Clock T] extends KeycloakConfig T where
  issuerUrl : String
  audience : String
  audience_nonempty : audience ≠ ""
  expectedTokenType : TokenType
  clockSkew : ℚ
  clockSkew_nonneg : 0 ≤ clockSkew
  clockSkew_le : clockSkew ≤ 60
  maxTokenBytes : Nat
  maxTokenBytes_pos : 0 < maxTokenBytes

def VerifierConfig.default (issuerUrl audience : String) (h : audience ≠ "") :
    VerifierConfig ℚ where
  toKeycloakConfig := .default
  issuerUrl := issuerUrl
  audience := audience
  audience_nonempty := h
  expectedTokenType := .Bearer
  clockSkew := 5
  clockSkew_nonneg := by norm_num
  clockSkew_le := by norm_num
  maxTokenBytes := 32 * 1024
  maxTokenBytes_pos := by norm_num

structure DecodeOptions where
  require : List String
  verifySignature : Bool
  verifyExp : Bool
  verifyIat : Bool
  verifyNbf : Bool
  verifyIss : Bool
  verifyAud : Bool
deriving DecidableEq

structure DecodeCall where
  algorithms : List String
  audience : String
  issuer : String
  leeway : ℚ
  options : DecodeOptions
deriving DecidableEq

def requiredClaims : List String := ["exp", "iat", "iss", "aud", "sub"]

def VerifierConfig.issuer {T : Type} [Clock T] (config : VerifierConfig T) : String :=
  String.ofList (config.issuerUrl.toList.rdropWhile (· == '/'))

def decodeCall {T : Type} [Clock T] (config : VerifierConfig T) : DecodeCall where
  algorithms := config.algorithmNames
  audience := config.audience
  issuer := config.issuer
  leeway := config.clockSkew
  options := ⟨requiredClaims, true, true, true, true, true, true⟩

/-- The JOSE library. Decoding also reads the wall clock. -/
structure JoseLibrary (K : Type) where
  getUnverifiedHeader : String → Except PyError (List (String × Json))
  decode : String → K → DecodeCall → ℚ → Except PyError Claims

structure VerifiedToken where
  subject : String
  issuer : String
  audience : List String
  claims : Claims

inductive Argument where
  | str (text : String)
  | notStr
deriving DecidableEq

section
variable {T K : Type} [Clock T] (library : JoseLibrary K) (config : VerifierConfig T)

def b64IsFalse (header : List (String × Json)) : Bool :=
  match header.lookup "b64" with
  | some (.bool false) => true
  | _ => false

def getSigningHeader (token : String) (allowedAlgorithms : List String) :
    Except VerifyExn (String × String) :=
  match library.getUnverifiedHeader token with
  | .error .pyJwtError => invalidToken "Invalid token header"
  | .error error => .error (.escaped error)
  | .ok header =>
    if Json.has header "crit" || b64IsFalse header then invalidToken "Unsupported JOSE header"
    else
      match header.lookup "kid" with
      | some (.str kid) =>
        if kid = "" then invalidToken "Missing signing key ID"
        else
          match header.lookup "alg" with
          | some (.str algorithm) =>
            if algorithm ∈ allowedAlgorithms then .ok (kid, algorithm)
            else invalidToken "Unsupported signing algorithm"
          | _ => invalidToken "Unsupported signing algorithm"
      | _ => invalidToken "Missing signing key ID"

def ClaimValue.text? : ClaimValue → Option String
  | .str value => if value = "" then none else some value
  | _ => none

def parseAudience (value : Option ClaimValue) : Except VerifyExn (List String) :=
  match value with
  | some (.str value) => if value = "" then invalidToken "Invalid audience claim" else .ok [value]
  | some (.arr (first :: rest)) =>
    match (first :: rest).mapM ClaimValue.text? with
    | some audience => .ok audience
    | none => invalidToken "Invalid audience claim"
  | _ => invalidToken "Invalid audience claim"

/-- Halfway from the largest double to the next power of two, `(2 ^ 54 - 1) * 2 ^ 970`. From
here on an integer does not convert to a double, and `math.isfinite` raises. -/
def doubleBound : Nat := (2 ^ 54 - 1) * (2 ^ 97) ^ 10

theorem lt_doubleBound {number : Nat} (h : number < 2 ^ 54 - 1) : number < doubleBound :=
  h.trans_le (Nat.le_mul_of_pos_right _ (Nat.pow_pos (Nat.two_pow_pos 97)))

def checkNumericDate (name : String) (value : ClaimValue) : Except VerifyExn Unit :=
  match value with
  | .int value => if value.natAbs < doubleBound then .ok () else .error (.escaped .overflowError)
  | .float (.finite _) => .ok ()
  | _ => invalidToken ("Invalid " ++ name ++ " claim")

def dateClaims : List String := ["exp", "iat", "nbf"]

/-- The loop over the names; a claim that is not there is passed over. -/
def validateNumericDates (claims : Claims) : List String → Except VerifyExn Unit
  | [] => .ok ()
  | name :: rest =>
    match claims.lookup name with
    | none => validateNumericDates claims rest
    | some value =>
      match checkNumericDate name value with
      | .error exn => .error exn
      | .ok () => validateNumericDates claims rest

def requiredText (claims : Claims) (name message : String) : Except VerifyExn String :=
  match (claims.lookup name).bind ClaimValue.text? with
  | some text => .ok text
  | none => invalidToken message

def typIs (claims : Claims) (expected : String) : Bool :=
  match claims.lookup "typ" with
  | some (.str value) => value == expected
  | _ => false

def verifyClaims (claims : Claims) : Except VerifyExn VerifiedToken := do
  let subject ← requiredText claims "sub" "Invalid subject claim"
  let issuer ← requiredText claims "iss" "Invalid issuer claim"
  let audience ← parseAudience (claims.lookup "aud")
  if ¬ typIs claims config.expectedTokenType.value then invalidToken "Unexpected token type"
  else
    validateNumericDates claims dateClaims
    return ⟨subject, issuer, audience, claims⟩

def isascii (text : String) : Bool := text.toList.all fun char => char.toNat < 128

def checkToken (argument : Argument) : Except VerifyExn String :=
  match argument with
  | .notStr => invalidToken "Invalid access token"
  | .str token =>
    if token = "" ∨ ¬ isascii token ∨ token.length > config.maxTokenBytes then
      invalidToken "Invalid access token"
    else .ok token

/-- `verify` up to its call of `get_key`: the token, its key ID and its algorithm. -/
def verifyStart (argument : Argument) : Except VerifyExn (String × String × String) := do
  let token ← checkToken config argument
  let header ← getSigningHeader library token config.algorithmNames
  return (token, header)

/-- `verify` from the answer of `get_key` on. -/
def verifyEnd (token : String) (wall : ℚ) (answer : Except Exn K) :
    Except VerifyExn VerifiedToken :=
  match answer with
  | .error exn => .error (.raised exn)
  | .ok key =>
    match library.decode token key (decodeCall config) wall with
    | .error .other => .error (.escaped .other)
    | .error _ => invalidToken "Invalid access token"
    | .ok claims => verifyClaims config claims
end

/-! What the checks amount to. -/

structure SigningHeader {T K : Type} [Clock T] (library : JoseLibrary K) (config : VerifierConfig T)
    (token kid algorithm : String) : Prop where
  header : ∃ header, library.getUnverifiedHeader token = .ok header ∧
    header.lookup "crit" = none ∧ (∀ value, header.lookup "b64" = some (.bool value) → value) ∧
    header.lookup "kid" = some (.str kid) ∧ header.lookup "alg" = some (.str algorithm)
  kid_nonempty : kid ≠ ""
  algorithm_allowed : algorithm ∈ config.algorithmNames

/-- An audience is one name, or a list of at least one. -/
def IsAudience (value : ClaimValue) (audience : List String) : Prop :=
  audience ≠ [] ∧ (∀ name ∈ audience, name ≠ "") ∧
    (value = .arr (audience.map .str) ∨ ∃ name, value = .str name ∧ audience = [name])

def IsTimestamp (value : ClaimValue) : Prop :=
  (∃ number : Int, value = .int number ∧ number.natAbs < doubleBound) ∨
    ∃ number, value = .float (.finite number)

structure AccessToken {T : Type} [Clock T] (config : VerifierConfig T) (claims : Claims)
    (verified : VerifiedToken) : Prop where
  subject : claims.lookup "sub" = some (.str verified.subject)
  subject_nonempty : verified.subject ≠ ""
  issuer : claims.lookup "iss" = some (.str verified.issuer)
  issuer_nonempty : verified.issuer ≠ ""
  audience : ∃ value, claims.lookup "aud" = some value ∧ IsAudience value verified.audience
  type : claims.lookup "typ" = some (.str config.expectedTokenType.value)
  dates : ∀ name ∈ dateClaims, ∀ value, claims.lookup name = some value → IsTimestamp value
  claims_eq : verified.claims = claims

variable {T K : Type} [Clock T] {library : JoseLibrary K} {config : VerifierConfig T}

@[simp] theorem invalidToken_ne_ok {α : Type} {message : String} {value : α} :
    invalidToken message ≠ .ok value := nofun

theorem text?_eq_some {value : ClaimValue} {text : String} :
    value.text? = some text ↔ value = .str text ∧ text ≠ "" := by
  cases value with
  | str found =>
    by_cases hempty : found = ""
    · simp only [ClaimValue.text?, if_pos hempty, reduceCtorEq, ClaimValue.str.injEq, false_iff]
      rintro ⟨rfl, hne⟩
      exact hne hempty
    · simp only [ClaimValue.text?, if_neg hempty, Option.some.injEq, ClaimValue.str.injEq]
      exact ⟨fun h => ⟨h, h ▸ hempty⟩, fun h => h.1⟩
  | null | bool | int | float | arr | obj => simp [ClaimValue.text?]

theorem requiredText_eq_ok {claims : Claims} {name message text : String} :
    requiredText claims name message = .ok text ↔
      claims.lookup name = some (.str text) ∧ text ≠ "" := by
  unfold requiredText
  cases claims.lookup name with
  | none => simp
  | some value =>
    rw [Option.bind_some, Option.some.injEq, ← text?_eq_some]
    cases value.text? <;> simp

theorem mapM_text?_eq_some {items : List ClaimValue} {texts : List String} :
    items.mapM ClaimValue.text? = some texts ↔
      items = texts.map .str ∧ ∀ text ∈ texts, text ≠ "" := by
  induction items generalizing texts with
  | nil => cases texts <;> simp
  | cons item items ih =>
    rw [List.mapM_cons]
    cases texts with
    | nil => cases hitem : item.text? <;> simp [Option.bind_eq_some_iff]
    | cons text texts =>
      simp only [Option.bind_eq_bind, Option.bind_eq_some_iff, Option.pure_def, Option.some.injEq,
        List.cons.injEq, List.map_cons, List.forall_mem_cons]
      constructor
      · rintro ⟨first, hfirst, rest, hrest, rfl, rfl⟩
        obtain ⟨hitems, hnonempty⟩ := ih.mp hrest
        exact ⟨⟨(text?_eq_some.mp hfirst).1, hitems⟩, (text?_eq_some.mp hfirst).2, hnonempty⟩
      · rintro ⟨⟨hitem, hitems⟩, htext, hnonempty⟩
        exact ⟨text, text?_eq_some.mpr ⟨hitem, htext⟩, texts, ih.mpr ⟨hitems, hnonempty⟩, rfl, rfl⟩

theorem isAudience_str {name : String} {audience : List String} :
    IsAudience (.str name) audience ↔ name ≠ "" ∧ audience = [name] := by
  unfold IsAudience
  simp only [reduceCtorEq, ClaimValue.str.injEq, false_or, exists_eq_left']
  constructor
  · rintro ⟨-, hnonempty, rfl⟩
    exact ⟨hnonempty name (List.mem_singleton_self name), rfl⟩
  · rintro ⟨hname, rfl⟩
    exact ⟨List.cons_ne_nil _ _, List.forall_mem_singleton.mpr hname, rfl⟩

theorem isAudience_arr {items : List ClaimValue} {audience : List String} :
    IsAudience (.arr items) audience ↔
      items ≠ [] ∧ items.mapM ClaimValue.text? = some audience := by
  unfold IsAudience
  simp only [mapM_text?_eq_some, ClaimValue.arr.injEq, reduceCtorEq, false_and, exists_false,
    or_false]
  constructor
  · rintro ⟨hne, hnonempty, rfl⟩
    exact ⟨List.map_eq_nil_iff.not.mpr hne, rfl, hnonempty⟩
  · rintro ⟨hne, rfl, hnonempty⟩
    exact ⟨List.map_eq_nil_iff.not.mp hne, hnonempty, rfl⟩

theorem parseAudience_eq_ok {value : Option ClaimValue} {audience : List String} :
    parseAudience value = .ok audience ↔
      ∃ found, value = some found ∧ IsAudience found audience := by
  cases value with
  | none => simp [parseAudience]
  | some found =>
    simp only [Option.some.injEq, exists_eq_left']
    cases found with
    | str name =>
      rw [isAudience_str, parseAudience]
      by_cases hempty : name = ""
      · rw [if_pos hempty]
        exact iff_of_false invalidToken_ne_ok fun h => h.1 hempty
      · simp [hempty, eq_comm]
    | arr items =>
      rw [isAudience_arr]
      cases items with
      | nil => simp [parseAudience]
      | cons first rest =>
        simp only [parseAudience, ne_eq, List.cons_ne_nil, not_false_eq_true, true_and]
        cases (first :: rest).mapM ClaimValue.text? <;> simp
    | null | bool | int | float | obj => simp [parseAudience, IsAudience]

theorem checkNumericDate_eq_ok {name : String} {value : ClaimValue} :
    checkNumericDate name value = .ok () ↔ IsTimestamp value := by
  unfold checkNumericDate IsTimestamp
  cases value with
  | int number => by_cases hsmall : number.natAbs < doubleBound <;> simp [hsmall]
  | float number => cases number <;> simp
  | null | bool | str | arr | obj => simp

theorem validateNumericDates_eq_ok {claims : Claims} {names : List String} :
    validateNumericDates claims names = .ok () ↔
      ∀ name ∈ names, ∀ value, claims.lookup name = some value → IsTimestamp value := by
  induction names with
  | nil => simp [validateNumericDates]
  | cons name rest ih =>
    rw [List.forall_mem_cons, ← ih, validateNumericDates]
    cases hlookup : claims.lookup name with
    | none => simp
    | some value =>
      have hcheck : checkNumericDate name value = .ok () ↔ IsTimestamp value :=
        checkNumericDate_eq_ok
      simp only [Option.some.injEq, forall_eq', ← hcheck]
      cases checkNumericDate name value <;> simp

theorem typIs_iff {claims : Claims} {expected : String} :
    typIs claims expected = true ↔ claims.lookup "typ" = some (.str expected) := by
  unfold typIs
  cases claims.lookup "typ" with
  | none => simp
  | some value => cases value <;> simp

theorem verifyClaims_eq_ok {claims : Claims} {verified : VerifiedToken} :
    verifyClaims config claims = .ok verified ↔ AccessToken config claims verified := by
  unfold verifyClaims
  constructor
  · intro h
    obtain ⟨subject, hsubject, h⟩ := bind_eq_ok.mp h
    obtain ⟨issuer, hissuer, h⟩ := bind_eq_ok.mp h
    obtain ⟨audience, haudience, h⟩ := bind_eq_ok.mp h
    split at h
    · exact absurd h invalidToken_ne_ok
    · rename_i htyp
      obtain ⟨⟨⟩, hdates, h⟩ := bind_eq_ok.mp h
      rw [requiredText_eq_ok] at hsubject hissuer
      obtain rfl := Except.ok.inj h
      exact ⟨hsubject.1, hsubject.2, hissuer.1, hissuer.2, parseAudience_eq_ok.mp haudience,
        typIs_iff.mp (not_not.mp htyp), validateNumericDates_eq_ok.mp hdates, rfl⟩
  · intro h
    have htyp := typIs_iff.mpr h.type
    rw [requiredText_eq_ok.mpr ⟨h.subject, h.subject_nonempty⟩,
      requiredText_eq_ok.mpr ⟨h.issuer, h.issuer_nonempty⟩, parseAudience_eq_ok.mpr h.audience]
    simp only [bind, Except.bind, htyp, not_true_eq_false, if_false,
      validateNumericDates_eq_ok.mpr h.dates, pure, Except.pure]
    rw [← h.claims_eq]

theorem getSigningHeader_eq_ok {token kid algorithm : String} :
    getSigningHeader library token config.algorithmNames = .ok (kid, algorithm) ↔
      SigningHeader library config token kid algorithm := by
  unfold getSigningHeader
  constructor
  · intro h
    split at h
    · exact absurd h invalidToken_ne_ok
    · contradiction
    · rename_i header hheader
      split at h
      · exact absurd h invalidToken_ne_ok
      · rename_i hjose
        rw [Bool.or_eq_true, not_or] at hjose
        split at h
        · rename_i found hkid
          split at h
          · exact absurd h invalidToken_ne_ok
          · rename_i hnonempty
            split at h
            · rename_i used halg
              split at h
              · rename_i hallowed
                obtain ⟨rfl, rfl⟩ := Prod.mk.inj (Except.ok.inj h)
                refine ⟨⟨header, hheader, ?_, ?_, hkid, halg⟩, hnonempty, hallowed⟩
                · exact Option.not_isSome_iff_eq_none.mp hjose.1
                · intro value hb64
                  cases value with
                  | true => rfl
                  | false => simp [b64IsFalse, hb64] at hjose
              · exact absurd h invalidToken_ne_ok
            · exact absurd h invalidToken_ne_ok
        · exact absurd h invalidToken_ne_ok
  · rintro ⟨⟨header, hheader, hcrit, hb64, hkid, halg⟩, hnonempty, hallowed⟩
    have hfalse : b64IsFalse header = false := by
      unfold b64IsFalse
      split
      · rename_i hfound
        exact absurd (hb64 false hfound) (by decide)
      · rfl
    simp [hheader, Json.has, hcrit, hfalse, hkid, hnonempty, halg, hallowed]

theorem checkToken_eq_ok {argument : Argument} {token : String} :
    checkToken config argument = .ok token ↔ argument = .str token ∧ token ≠ "" ∧
      isascii token = true ∧ token.length ≤ config.maxTokenBytes := by
  cases argument with
  | notStr => simp [checkToken]
  | str text =>
    simp only [checkToken]
    split
    · rename_i hrefused
      refine iff_of_false invalidToken_ne_ok ?_
      rintro ⟨htext, hnonempty, hascii, hlength⟩
      obtain rfl := Argument.str.inj htext
      rcases hrefused with h | h | h
      · exact hnonempty h
      · exact h hascii
      · omega
    · rename_i haccepted
      rw [not_or, not_or, not_not, not_lt] at haccepted
      rw [Except.ok.injEq, Argument.str.injEq]
      exact ⟨fun h => h ▸ ⟨rfl, haccepted⟩, fun h => h.1⟩

theorem verifyStart_eq_ok {argument : Argument} {token kid algorithm : String} :
    verifyStart library config argument = .ok (token, kid, algorithm) ↔
      argument = .str token ∧ token ≠ "" ∧ isascii token = true ∧
        token.length ≤ config.maxTokenBytes ∧ SigningHeader library config token kid algorithm := by
  unfold verifyStart
  constructor
  · intro h
    obtain ⟨text, htext, h⟩ := bind_eq_ok.mp h
    obtain ⟨header, hheader, h⟩ := bind_eq_ok.mp h
    obtain ⟨rfl, rfl⟩ := Prod.mk.inj (Except.ok.inj h)
    obtain ⟨hargument, hnonempty, hascii, hlength⟩ := checkToken_eq_ok.mp htext
    exact ⟨hargument, hnonempty, hascii, hlength, getSigningHeader_eq_ok.mp hheader⟩
  · rintro ⟨hargument, hnonempty, hascii, hlength, hheader⟩
    exact bind_eq_ok.mpr ⟨token, checkToken_eq_ok.mpr ⟨hargument, hnonempty, hascii, hlength⟩,
      bind_eq_ok.mpr ⟨(kid, algorithm), getSigningHeader_eq_ok.mpr hheader, rfl⟩⟩

theorem verifyEnd_eq_ok {token : String} {wall : ℚ} {answer : Except Exn K}
    {verified : VerifiedToken} :
    verifyEnd library config token wall answer = .ok verified ↔
      ∃ key claims, answer = .ok key ∧
        library.decode token key (decodeCall config) wall = .ok claims ∧
        AccessToken config claims verified := by
  cases answer with
  | error exn => simp [verifyEnd]
  | ok key =>
    simp only [Except.ok.injEq, exists_and_left, exists_eq_left', verifyEnd]
    cases library.decode token key (decodeCall config) wall with
    | error error => cases error <;> simp
    | ok claims => simp [verifyClaims_eq_ok]

/-! How a call fails. -/

def IsInvalidToken (exn : VerifyExn) : Prop :=
  ∃ message, exn = .raised (.invalidTokenError message)

def HugeDate (claims : Claims) : Prop :=
  ∃ name ∈ dateClaims, ∃ number, claims.lookup name = some (.int number) ∧
    doubleBound ≤ number.natAbs

theorem failsOnly_invalidToken {α : Type} {P : VerifyExn → Prop} {message : String}
    (h : ∀ exn, IsInvalidToken exn → P exn) :
    FailsOnly P (invalidToken message : Except VerifyExn α) :=
  failsOnly_error.mpr (h _ ⟨message, rfl⟩)

theorem requiredText_fails {claims : Claims} {name message : String} :
    FailsOnly IsInvalidToken (requiredText claims name message) := by
  unfold requiredText
  split
  · exact failsOnly_ok
  · exact failsOnly_invalidToken fun _ => id

theorem parseAudience_fails {value : Option ClaimValue} :
    FailsOnly IsInvalidToken (parseAudience value) := by
  unfold parseAudience
  split
  · split
    · exact failsOnly_invalidToken fun _ => id
    · exact failsOnly_ok
  · split
    · exact failsOnly_ok
    · exact failsOnly_invalidToken fun _ => id
  · exact failsOnly_invalidToken fun _ => id

theorem checkNumericDate_fails {name : String} {value : ClaimValue} :
    FailsOnly (fun exn => IsInvalidToken exn ∨ exn = .escaped .overflowError ∧
      ∃ number, value = .int number ∧ doubleBound ≤ number.natAbs)
      (checkNumericDate name value) := by
  unfold checkNumericDate
  split
  · split
    · exact failsOnly_ok
    · rename_i number hlarge
      exact failsOnly_error.mpr (.inr ⟨rfl, number, rfl, not_lt.mp hlarge⟩)
  · exact failsOnly_ok
  · exact failsOnly_invalidToken fun _ => .inl

theorem validateNumericDates_fails {claims : Claims} {names : List String} :
    FailsOnly (fun exn => IsInvalidToken exn ∨ exn = .escaped .overflowError ∧
      ∃ name ∈ names, ∃ number, claims.lookup name = some (.int number) ∧
        doubleBound ≤ number.natAbs)
      (validateNumericDates claims names) := by
  induction names with
  | nil => exact failsOnly_ok
  | cons name rest ih =>
    have hrest : FailsOnly (fun exn => IsInvalidToken exn ∨ exn = .escaped .overflowError ∧
        ∃ found ∈ name :: rest, ∃ number, claims.lookup found = some (.int number) ∧
          doubleBound ≤ number.natAbs)
        (validateNumericDates claims rest) := by
      intro exn hexn
      refine (ih exn hexn).imp_right (And.imp_right ?_)
      rintro ⟨found, hfound, hnumber⟩
      exact ⟨found, List.mem_cons_of_mem _ hfound, hnumber⟩
    unfold validateNumericDates
    split
    · exact hrest
    · rename_i value hlookup
      split
      · rename_i exn hcheck
        refine failsOnly_error.mpr ((checkNumericDate_fails exn hcheck).imp_right ?_)
        rintro ⟨hexn, number, rfl, hlarge⟩
        exact ⟨hexn, name, List.mem_cons_self, number, hlookup, hlarge⟩
      · exact hrest

theorem verifyClaims_fails {claims : Claims} :
    FailsOnly (fun exn => IsInvalidToken exn ∨ exn = .escaped .overflowError ∧ HugeDate claims)
      (verifyClaims config claims) := by
  intro exn h
  unfold verifyClaims at h
  rcases bind_eq_error.mp h with h | ⟨subject, -, h⟩
  · exact .inl (requiredText_fails exn h)
  · rcases bind_eq_error.mp h with h | ⟨issuer, -, h⟩
    · exact .inl (requiredText_fails exn h)
    · rcases bind_eq_error.mp h with h | ⟨audience, -, h⟩
      · exact .inl (parseAudience_fails exn h)
      · split at h
        · exact .inl (failsOnly_invalidToken (fun _ => id) exn h)
        · rcases bind_eq_error.mp h with h | ⟨_, -, h⟩
          · exact validateNumericDates_fails exn h
          · cases h

theorem getSigningHeader_fails {token : String} {allowedAlgorithms : List String} :
    FailsOnly (fun exn => IsInvalidToken exn ∨ ∃ error, exn = .escaped error ∧
      error ≠ .pyJwtError ∧ library.getUnverifiedHeader token = .error error)
      (getSigningHeader library token allowedAlgorithms) := by
  unfold getSigningHeader
  split
  · exact failsOnly_invalidToken fun _ => .inl
  · rename_i error hother hheader
    refine failsOnly_error.mpr (.inr ⟨error, rfl, ?_, hheader⟩)
    rintro rfl
    exact hother rfl
  · split
    · exact failsOnly_invalidToken fun _ => .inl
    · split
      · split
        · exact failsOnly_invalidToken fun _ => .inl
        · split
          · split
            · exact failsOnly_ok
            · exact failsOnly_invalidToken fun _ => .inl
          · exact failsOnly_invalidToken fun _ => .inl
      · exact failsOnly_invalidToken fun _ => .inl

theorem verifyStart_fails {argument : Argument} :
    FailsOnly (fun exn => IsInvalidToken exn ∨ ∃ error token, exn = .escaped error ∧
      error ≠ .pyJwtError ∧ library.getUnverifiedHeader token = .error error)
      (verifyStart library config argument) := by
  intro exn h
  unfold verifyStart at h
  rcases bind_eq_error.mp h with h | ⟨token, -, h⟩
  · left
    unfold checkToken at h
    split at h
    · exact failsOnly_invalidToken (fun _ => id) exn h
    · split at h
      · exact failsOnly_invalidToken (fun _ => id) exn h
      · cases h
  · rcases bind_eq_error.mp h with h | ⟨header, -, h⟩
    · refine (getSigningHeader_fails exn h).imp_right ?_
      rintro ⟨error, hexn, hne, hraised⟩
      exact ⟨error, token, hexn, hne, hraised⟩
    · cases h

theorem verifyEnd_fails {token : String} {wall : ℚ} {answer : Except Exn K} :
    FailsOnly (fun exn => IsInvalidToken exn ∨
      (∃ raised, answer = .error raised ∧ exn = .raised raised) ∨
      (∃ key, answer = .ok key ∧
        library.decode token key (decodeCall config) wall = .error .other ∧
        exn = .escaped .other) ∨
      ∃ key claims, answer = .ok key ∧
        library.decode token key (decodeCall config) wall = .ok claims ∧
        exn = .escaped .overflowError ∧ HugeDate claims)
      (verifyEnd library config token wall answer) := by
  unfold verifyEnd
  split
  · rename_i raised
    exact failsOnly_error.mpr (.inr (.inl ⟨raised, rfl, rfl⟩))
  · rename_i key
    split
    · rename_i hother
      exact failsOnly_error.mpr (.inr (.inr (.inl ⟨key, rfl, hother, rfl⟩)))
    · exact failsOnly_invalidToken fun _ => .inl
    · rename_i claims hclaims
      intro exn hexn
      refine (verifyClaims_fails exn hexn).imp_right fun hhuge => .inr (.inr ?_)
      exact ⟨key, claims, rfl, hclaims, hhuge⟩

end DddFramework.Keycloak
