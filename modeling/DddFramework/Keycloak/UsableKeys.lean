import DddFramework.Library.Lookup
import DddFramework.Keycloak.Jwks
import Mathlib.Data.List.Nodup
import Mathlib.Data.List.Induction

/-! What the parser accepts, stated without its control flow. An entry is usable
for a kid when it meets every requirement on a verification key; a document is
accepted when its usable entries carry pairwise distinct kids, and the snapshot
is then exactly the map from these kids to their keys. -/
namespace DddFramework.Keycloak
open Library

variable {T K : Type} [Clock T] (externals : Externals K) (config : KeycloakConfig T)

/-- The requirements on an entry that may verify tokens signed under `kid`.
A field is absent when `dict.get` gives `None`. -/
structure Usable (fields : List (String × Json)) (kid : String) (key : K) : Prop where
  kid_eq : Json.get fields "kid" = some (.str kid)
  kid_nonempty : kid ≠ ""
  kty : Json.get fields "kty" = some (.str "RSA")
  no_private : ∀ name ∈ privateRsaFields, fields.lookup name = none
  use : Json.get fields "use" = none ∨ Json.get fields "use" = some (.str "sig")
  key_ops : Json.get fields "key_ops" = none ∨
    ∃ keyOps, Json.get fields "key_ops" = some (.arr keyOps) ∧
      (∀ item ∈ keyOps, ∃ text, item = .str text) ∧ .str "verify" ∈ keyOps
  alg : Json.get fields "alg" = none ∨
    ∃ algorithm ∈ config.algorithmNames, Json.get fields "alg" = some (.str algorithm)
  from_jwk : externals.fromJwk fields = some (.publicKey key)
  size : config.minRsaKeyBits ≤ externals.keySize key

/-- An algorithm the entry does not exclude: its own, or any configured one. -/
def AllowsAlgorithm (fields : List (String × Json)) (algorithm : String) : Prop :=
  algorithm ∈ config.algorithmNames ∧
    ∀ declaredAlg, Json.get fields "alg" = some (.str declaredAlg) → declaredAlg = algorithm

theorem useAllowed_iff {fields : List (String × Json)} :
    useAllowed fields = true ↔
      Json.get fields "use" = none ∨ Json.get fields "use" = some (.str "sig") := by
  unfold useAllowed
  cases Json.get fields "use" with
  | none => simp
  | some value => simp [Json.eqStr_iff]

theorem keyOpsAllowed_iff {fields : List (String × Json)} :
    keyOpsAllowed fields = true ↔ Json.get fields "key_ops" = none ∨
      ∃ keyOps, Json.get fields "key_ops" = some (.arr keyOps) ∧
        (∀ item ∈ keyOps, ∃ text, item = .str text) ∧ .str "verify" ∈ keyOps := by
  unfold keyOpsAllowed
  cases Json.get fields "key_ops" with
  | none => simp
  | some value => cases value <;> simp [Json.isStr_iff, Json.eqStr_iff]

theorem entryAlgorithms_eq_some {fields : List (String × Json)} {algorithms : List String}
    (h : entryAlgorithms config fields = some algorithms) :
    (Json.get fields "alg" = none ∨
      ∃ algorithm ∈ config.algorithmNames, Json.get fields "alg" = some (.str algorithm)) ∧
    ∀ algorithm, algorithm ∈ algorithms ↔ AllowsAlgorithm config fields algorithm := by
  unfold entryAlgorithms at h
  unfold AllowsAlgorithm
  cases halg : Json.get fields "alg" with
  | none =>
    simp only [halg, Option.some.injEq] at h
    simp [← h]
  | some value =>
    cases value with
    | str declaredAlg =>
      simp only [halg] at h
      by_cases hmem : declaredAlg ∈ config.algorithmNames
      · rw [if_pos hmem, Option.some.injEq] at h
        refine ⟨.inr ⟨declaredAlg, hmem, rfl⟩, fun algorithm => ?_⟩
        simp only [← h, List.mem_singleton, Option.some.injEq, Json.str.injEq, forall_eq']
        exact ⟨fun heq => ⟨heq ▸ hmem, heq.symm⟩, fun hboth => hboth.2.symm⟩
      · simp [if_neg hmem] at h
    | null | bool | num | arr | obj => simp [halg] at h

theorem entryAlgorithms_isSome {fields : List (String × Json)}
    (h : Json.get fields "alg" = none ∨
      ∃ algorithm ∈ config.algorithmNames, Json.get fields "alg" = some (.str algorithm)) :
    ∃ algorithms, entryAlgorithms config fields = some algorithms := by
  rcases h with halg | ⟨algorithm, hmem, halg⟩
  · exact ⟨config.algorithmNames, by simp [entryAlgorithms, halg]⟩
  · exact ⟨[algorithm], by simp [entryAlgorithms, halg, hmem]⟩

theorem rsaPublicKey_eq_some {fields : List (String × Json)} {key : K} :
    rsaPublicKey externals config fields = some key ↔
      externals.fromJwk fields = some (.publicKey key) ∧
        config.minRsaKeyBits ≤ externals.keySize key := by
  unfold rsaPublicKey
  cases externals.fromJwk fields with
  | none => simp
  | some rsaKey =>
    cases rsaKey with
    | privateKey => simp
    | publicKey built =>
      simp only [Option.some.injEq, RsaKey.publicKey.injEq]
      by_cases hsize : externals.keySize built < config.minRsaKeyBits
      · rw [if_pos hsize]
        simp only [reduceCtorEq, false_iff, not_and, not_le]
        intro heq
        rwa [← heq]
      · rw [if_neg hsize, Option.some.injEq]
        exact ⟨fun heq => ⟨heq, heq ▸ not_lt.mp hsize⟩, fun hboth => hboth.1⟩

theorem parseKey_eq_some {raw : Json} {kid : String} {signingKey : SigningKey K} :
    parseKey externals config raw = some (kid, signingKey) ↔
      ∃ fields, raw = .obj fields ∧ Usable externals config fields kid signingKey.publicKey ∧
        entryAlgorithms config fields = some signingKey.algorithms := by
  cases raw with
  | null | bool | num | str | arr => simp [parseKey]
  | obj fields =>
    have hkty : (Json.get fields "kty").any (Json.eqStr "RSA") = true ↔
        Json.get fields "kty" = some (.str "RSA") := by
      cases Json.get fields "kty" <;> simp [Json.eqStr_iff]
    have hprivate : privateRsaFields.any (Json.has fields) = true ↔
        ¬ ∀ name ∈ privateRsaFields, fields.lookup name = none := by
      simp [Json.has, Option.isSome_iff_ne_none]
    simp only [Json.obj.injEq, exists_eq_left']
    constructor
    · intro h
      simp only [parseKey] at h
      cases hkid : Json.get fields "kid" with
      | none => simp [hkid] at h
      | some value =>
        cases value with
        | null | bool | num | arr | obj => simp [hkid] at h
        | str found =>
          simp only [hkid, Option.ite_none_left_eq_some] at h
          obtain ⟨hfirst, hnoPrivate, huse, hops, h⟩ := h
          cases halg : entryAlgorithms config fields with
          | none => simp [halg] at h
          | some algorithms =>
            cases hpublic : rsaPublicKey externals config fields with
            | none => simp [halg, hpublic] at h
            | some publicKey =>
              simp only [halg, hpublic, Option.some.injEq, Prod.mk.injEq] at h
              obtain ⟨rfl, rfl⟩ := h
              obtain ⟨hjwk, hsize⟩ := (rsaPublicKey_eq_some externals config).mp hpublic
              simp only [not_or, not_not] at hfirst huse hops
              rw [hprivate, not_not] at hnoPrivate
              exact ⟨⟨hkid, hfirst.1, hkty.mp hfirst.2, hnoPrivate, useAllowed_iff.mp huse,
                keyOpsAllowed_iff.mp hops, (entryAlgorithms_eq_some config halg).1,
                hjwk, hsize⟩, rfl⟩
    · rintro ⟨husable, halg⟩
      have hpublic := (rsaPublicKey_eq_some externals config).mpr ⟨husable.from_jwk, husable.size⟩
      have hfirst : ¬ (kid = "" ∨ ¬ (Json.get fields "kty").any (Json.eqStr "RSA") = true) := by
        simp [husable.kid_nonempty, hkty.mpr husable.kty]
      simp only [parseKey, husable.kid_eq]
      rw [if_neg hfirst, if_neg (by rw [hprivate, not_not]; exact husable.no_private),
        if_neg (by rw [not_not]; exact useAllowed_iff.mpr husable.use),
        if_neg (by rw [not_not]; exact keyOpsAllowed_iff.mpr husable.key_ops)]
      simp only [halg, hpublic]

theorem collectKeys_eq_ok {raws : List Json} {keys collected : List (String × SigningKey K)}
    (hkeys : (keys.map Prod.fst).Nodup) :
    collectKeys externals config raws keys = .ok collected ↔
      collected = keys ++ raws.filterMap (parseKey externals config) ∧
        (collected.map Prod.fst).Nodup := by
  induction raws generalizing keys with
  | nil =>
    simp only [collectKeys, Except.ok.injEq, List.filterMap_nil, List.append_nil]
    exact ⟨fun heq => ⟨heq.symm, heq ▸ hkeys⟩, fun hboth => hboth.1.symm⟩
  | cons raw rest ih =>
    unfold collectKeys
    cases hparsed : parseKey externals config raw with
    | none => simp only [ih hkeys, List.filterMap_cons, hparsed]
    | some parsed =>
      obtain ⟨kid, signingKey⟩ := parsed
      simp only [List.filterMap_cons, hparsed]
      by_cases hdup : (keys.lookup kid).isSome = true
      · rw [if_pos hdup]
        simp only [reduceCtorEq, false_iff, not_and]
        rintro rfl hnodup
        rw [List.lookup_isSome_iff] at hdup
        obtain ⟨pair, hpair, hkid⟩ := hdup
        have hmem : kid ∈ keys.map Prod.fst := by
          rw [beq_iff_eq.mp hkid]
          exact List.mem_map_of_mem hpair
        rw [List.map_append, List.map_cons, List.nodup_append] at hnodup
        exact hnodup.2.2 kid hmem kid (by simp) rfl
      · rw [if_neg hdup, ih, List.append_assoc, List.singleton_append]
        rw [List.map_append, List.nodup_append]
        refine ⟨hkeys, by simp, ?_⟩
        intro first hfirst second hsecond heq
        obtain ⟨pair, hpair, rfl⟩ := List.mem_map.mp hfirst
        apply hdup
        rw [List.lookup_isSome_iff]
        refine ⟨pair, hpair, ?_⟩
        simp only [List.map_cons, List.map_nil, List.mem_singleton] at hsecond
        simp [heq, hsecond]

theorem collectKeys_error {raws : List Json} {keys : List (String × SigningKey K)} {exn : Exn}
    (h : collectKeys externals config raws keys = .error exn) :
    exn = .valueError "JWKS contains duplicate signing key IDs" := by
  induction raws generalizing keys with
  | nil => simp [collectKeys] at h
  | cons raw rest ih =>
    unfold collectKeys at h
    split at h
    · exact ih h
    · split at h
      · exact (Except.error.inj h).symm
      · exact ih h

def documentKeys : Json → Option (List Json)
  | .obj fields =>
    match Json.get fields "keys" with
    | some (.arr items) => some items
    | _ => none
  | _ => none

def usableKeys (entries : List Json) : List (String × SigningKey K) :=
  entries.filterMap (parseKey externals config)

def parseEntries (entries : List Json) : Except Exn (List (String × SigningKey K)) :=
  if entries.length > config.maxJwksKeys then
    .error (.valueError "JWKS contains too many keys")
  else
    match collectKeys externals config entries [] with
    | .error exn => .error exn
    | .ok [] => .error (.valueError "JWKS contains no usable signing keys")
    | .ok keys => .ok keys

section entries
variable {externals config} {entries : List Json}

theorem documentKeys_eq_some {document : Json} :
    documentKeys document = some entries ↔
      ∃ fields, document = .obj fields ∧ Json.get fields "keys" = some (.arr entries) := by
  cases document with
  | null | bool | num | str | arr => simp [documentKeys]
  | obj fields =>
    simp only [documentKeys, Json.obj.injEq, exists_eq_left']
    cases Json.get fields "keys" with
    | none => simp
    | some value => cases value <;> simp

theorem parseJwks_eq (document : Json) :
    parseJwks externals config document =
      match documentKeys document with
      | none => .error (.valueError "Invalid JWKS document")
      | some entries => parseEntries externals config entries := by
  cases document with
  | null | bool | num | str | arr => rfl
  | obj fields =>
    simp only [parseJwks, documentKeys]
    cases Json.get fields "keys" with
    | none => rfl
    | some value => cases value <;> rfl

theorem parseJwks_of_entries {document : Json} (h : documentKeys document = some entries) :
    parseJwks externals config document = parseEntries externals config entries := by
  rw [parseJwks_eq, h]

theorem collectKeys_nil :
    collectKeys externals config entries [] =
      if ((usableKeys externals config entries).map Prod.fst).Nodup then
        .ok (usableKeys externals config entries)
      else .error (.valueError "JWKS contains duplicate signing key IDs") := by
  have hcollect : ∀ keys, collectKeys externals config entries [] = .ok keys ↔
      keys = usableKeys externals config entries ∧ (keys.map Prod.fst).Nodup :=
    fun keys => collectKeys_eq_ok externals config (by simp)
  split
  · rename_i hnodup
    exact (hcollect _).mpr ⟨rfl, hnodup⟩
  · rename_i hnodup
    cases hresult : collectKeys externals config entries [] with
    | error exn => rw [collectKeys_error externals config hresult]
    | ok keys =>
      obtain ⟨rfl, hkeys⟩ := (hcollect keys).mp hresult
      exact absurd hkeys hnodup

theorem parseEntries_eq :
    parseEntries externals config entries =
      if entries.length > config.maxJwksKeys then
        .error (.valueError "JWKS contains too many keys")
      else if ((usableKeys externals config entries).map Prod.fst).Nodup then
        if usableKeys externals config entries = [] then
          .error (.valueError "JWKS contains no usable signing keys")
        else .ok (usableKeys externals config entries)
      else .error (.valueError "JWKS contains duplicate signing key IDs") := by
  unfold parseEntries
  rw [collectKeys_nil]
  by_cases hnodup : ((usableKeys externals config entries).map Prod.fst).Nodup
  · rw [if_pos hnodup, if_pos hnodup]
    cases usableKeys externals config entries <;> simp
  · rw [if_neg hnodup, if_neg hnodup]

theorem parseEntries_eq_ok {keys : List (String × SigningKey K)} :
    parseEntries externals config entries = .ok keys ↔ entries.length ≤ config.maxJwksKeys ∧
      keys = usableKeys externals config entries ∧ keys ≠ [] ∧ (keys.map Prod.fst).Nodup := by
  rw [parseEntries_eq]
  split_ifs with hmany hnodup hempty
  · simp [not_le.mpr hmany]
  · simp only [false_iff]
    rintro ⟨-, rfl, hkeys, -⟩
    exact hkeys hempty
  · simp only [Except.ok.injEq]
    apply Iff.intro
    · rintro rfl
      exact ⟨not_lt.mp hmany, rfl, hempty, hnodup⟩
    · exact fun h => h.2.1.symm
  · simp only [false_iff]
    rintro ⟨-, rfl, -, hkeys⟩
    exact hnodup hkeys

end entries

theorem parseJwks_eq_ok {document : Json} {keys : List (String × SigningKey K)} :
    parseJwks externals config document = .ok keys ↔
      ∃ fields rawKeys, document = .obj fields ∧ Json.get fields "keys" = some (.arr rawKeys) ∧
        rawKeys.length ≤ config.maxJwksKeys ∧
        keys = rawKeys.filterMap (parseKey externals config) ∧ keys ≠ [] ∧
        (keys.map Prod.fst).Nodup := by
  apply Iff.intro
  · intro h
    cases hdocument : documentKeys document with
    | none => simp [parseJwks_eq, hdocument] at h
    | some entries =>
      rw [parseJwks_of_entries hdocument, parseEntries_eq_ok] at h
      obtain ⟨fields, hfields, hkeys⟩ := documentKeys_eq_some.mp hdocument
      exact ⟨fields, entries, hfields, hkeys, h⟩
  · rintro ⟨fields, entries, hfields, hkeys, h⟩
    rw [parseJwks_of_entries (documentKeys_eq_some.mpr ⟨fields, hfields, hkeys⟩)]
    exact parseEntries_eq_ok.mpr h

theorem parseJwks_error {document : Json} {exn : Exn}
    (h : parseJwks externals config document = .error exn) :
    ∃ message, exn = .valueError message := by
  cases hdocument : documentKeys document with
  | none =>
    rw [parseJwks_eq, hdocument] at h
    exact ⟨_, (Except.error.inj h).symm⟩
  | some entries =>
    rw [parseJwks_of_entries hdocument, parseEntries_eq] at h
    split_ifs at h
    · exact ⟨_, (Except.error.inj h).symm⟩
    · exact ⟨_, (Except.error.inj h).symm⟩
    · exact ⟨_, (Except.error.inj h).symm⟩

/-- Exactly one entry of the list is usable for the kid, and its key is `key`. -/
def OnlyUsable (entries : List Json) (fields : List (String × Json)) (kid : String)
    (key : K) : Prop :=
  ∃ before behind, entries = before ++ .obj fields :: behind ∧
    Usable externals config fields kid key ∧
    ∀ other ∈ before ++ behind, ∀ otherFields otherKey, other = .obj otherFields →
      ¬ Usable externals config otherFields kid otherKey

theorem onlyUsable_of_lookup {rawKeys : List Json} {kid : String} {signingKey : SigningKey K}
    (hnodup : ((rawKeys.filterMap (parseKey externals config)).map Prod.fst).Nodup)
    (h : (rawKeys.filterMap (parseKey externals config)).lookup kid = some signingKey) :
    ∃ fields, OnlyUsable externals config rawKeys fields kid signingKey.publicKey ∧
      entryAlgorithms config fields = some signingKey.algorithms := by
  obtain ⟨raw, hraw, hparsed⟩ := List.mem_filterMap.mp (mem_of_lookup h)
  obtain ⟨before, behind, rfl⟩ := List.append_of_mem hraw
  obtain ⟨fields, rfl, husable, halg⟩ := (parseKey_eq_some externals config).mp hparsed
  refine ⟨fields, ⟨before, behind, rfl, husable, ?_⟩, halg⟩
  rintro other hother otherFields otherKey rfl hotherUsable
  -- a second usable entry would put the kid twice among the collected ones
  obtain ⟨algorithms, halgorithms⟩ := entryAlgorithms_isSome config hotherUsable.alg
  have hotherParsed : parseKey externals config (.obj otherFields) =
      some (kid, ⟨otherKey, algorithms⟩) :=
    (parseKey_eq_some externals config).mpr ⟨otherFields, rfl, hotherUsable, halgorithms⟩
  have hagain : kid ∈ ((before ++ behind).filterMap (parseKey externals config)).map Prod.fst :=
    List.mem_map.mpr ⟨_, List.mem_filterMap.mpr ⟨_, hother, hotherParsed⟩, rfl⟩
  simp only [List.filterMap_append, List.filterMap_cons, hparsed, List.map_append,
    List.map_cons, List.nodup_middle, List.nodup_cons] at hnodup
  rw [List.filterMap_append, List.map_append] at hagain
  exact hnodup.1 hagain

end DddFramework.Keycloak
