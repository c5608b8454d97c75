import DddFramework.Keycloak.UsableKeys

/-! The outcome of the parser, a map or a failure, as a function of the usable entries of a
document: neither their order nor the entries between them have a part in it. -/
namespace DddFramework.Keycloak
open Library

variable {T K : Type} [Clock T] (externals : Externals K) (config : KeycloakConfig T)

structure Accepts (entries : List Json) : Prop where
  few : entries.length ≤ config.maxJwksKeys
  usable : ∃ raw ∈ entries, parseKey externals config raw ≠ none
  distinct : ((usableKeys externals config entries).map Prod.fst).Nodup

def outcome (document : Json) : Except Exn (String → Option (SigningKey K)) :=
  (parseJwks externals config document).map fun keys kid => keys.lookup kid

inductive Rearranged : List Json → List Json → Prop where
  | perm {entries others : List Json} : entries.Perm others → Rearranged entries others
  | inserted {before behind : List Json} {raw : Json} : parseKey externals config raw = none →
      Rearranged (before ++ behind) (before ++ raw :: behind)
  | removed {before behind : List Json} {raw : Json} : parseKey externals config raw = none →
      Rearranged (before ++ raw :: behind) (before ++ behind)
  | trans {entries between others : List Json} : Rearranged entries between →
      Rearranged between others → Rearranged entries others

variable {externals config} {entries others : List Json}

theorem usableKeys_insert {before behind : List Json} {raw : Json}
    (h : parseKey externals config raw = none) :
    usableKeys externals config (before ++ raw :: behind) =
      usableKeys externals config (before ++ behind) := by
  unfold usableKeys
  rw [List.filterMap_append, List.filterMap_cons_none h, List.filterMap_append]

theorem Rearranged.usableKeys_perm (h : Rearranged externals config entries others) :
    (usableKeys externals config entries).Perm (usableKeys externals config others) := by
  induction h with
  | perm hperm => exact hperm.filterMap _
  | inserted hraw => rw [usableKeys_insert hraw]
  | removed hraw => rw [usableKeys_insert hraw]
  | trans _ _ ih₁ ih₂ => exact ih₁.trans ih₂

theorem usableKeys_ne_nil :
    usableKeys externals config entries ≠ [] ↔
      ∃ raw ∈ entries, parseKey externals config raw ≠ none := by
  rw [usableKeys, Ne, List.filterMap_eq_nil_iff]
  push Not
  rfl

theorem parseJwks_eq_ok_iff {document : Json} {keys : List (String × SigningKey K)} :
    parseJwks externals config document = .ok keys ↔
      ∃ entries, documentKeys document = some entries ∧
        Accepts externals config entries ∧ keys = usableKeys externals config entries := by
  rw [parseJwks_eq_ok]
  apply Iff.intro
  · intro h
    obtain ⟨fields, entries, hdocument, hkeys, hfew, rfl, hne, hnodup⟩ := h
    have haccepts : Accepts externals config entries := ⟨hfew, usableKeys_ne_nil.mp hne, hnodup⟩
    exact ⟨entries, documentKeys_eq_some.mpr ⟨fields, hdocument, hkeys⟩, haccepts, rfl⟩
  · intro h
    obtain ⟨entries, hentries, haccepts, rfl⟩ := h
    obtain ⟨fields, hdocument, hkeys⟩ := documentKeys_eq_some.mp hentries
    have hne := usableKeys_ne_nil.mpr haccepts.usable
    exact ⟨fields, entries, hdocument, hkeys, haccepts.few, rfl, hne, haccepts.distinct⟩

theorem lookup_usableKeys (h : Accepts externals config entries) {kid : String}
    {signingKey : SigningKey K} :
    (usableKeys externals config entries).lookup kid = some signingKey ↔
      ∃ raw ∈ entries, parseKey externals config raw = some (kid, signingKey) := by
  rw [lookup_eq_some_iff_mem h.distinct]
  exact List.mem_filterMap

theorem parseEntries_eq_of_perm
    (hcount : entries.length ≤ config.maxJwksKeys ↔ others.length ≤ config.maxJwksKeys)
    (hperm : (usableKeys externals config entries).Perm (usableKeys externals config others)) :
    (parseEntries externals config entries).map (fun keys kid => keys.lookup kid) =
      (parseEntries externals config others).map (fun keys kid => keys.lookup kid) := by
  have hmany := not_congr hcount
  rw [not_le, not_le] at hmany
  have hdistinct := (hperm.map Prod.fst).nodup_iff
  have hempty : usableKeys externals config entries = [] ↔
      usableKeys externals config others = [] := by
    rw [← List.length_eq_zero_iff, hperm.length_eq, List.length_eq_zero_iff]
  simp only [parseEntries_eq, gt_iff_lt, hmany, hdistinct, hempty]
  split_ifs with hlength hnodup
  · rfl
  · rfl
  · apply congrArg Except.ok
    funext kid
    exact lookup_eq_of_perm (hdistinct.mpr hnodup) hperm kid
  · rfl

/-- What a document parses to depends on its usable entries only: on their being there, with
distinct kids, in a list within the bound. -/
theorem parseJwks_usable_entries :
    (∀ document, (∃ keys, parseJwks externals config document = .ok keys) ↔
      ∃ entries, documentKeys document = some entries ∧ Accepts externals config entries) ∧
    (∀ document entries keys, documentKeys document = some entries →
      parseJwks externals config document = .ok keys →
        ∀ kid signingKey, keys.lookup kid = some signingKey ↔
          ∃ raw ∈ entries, parseKey externals config raw = some (kid, signingKey)) ∧
    ∀ document other entries others, documentKeys document = some entries →
      documentKeys other = some others → Rearranged externals config entries others →
        (entries.length ≤ config.maxJwksKeys ↔ others.length ≤ config.maxJwksKeys) →
          outcome externals config document = outcome externals config other := by
  refine ⟨?_, ?_, ?_⟩
  · intro document
    simp only [parseJwks_eq_ok_iff]
    apply Iff.intro
    · intro h
      obtain ⟨keys, entries, hentries, haccepts, -⟩ := h
      exact ⟨entries, hentries, haccepts⟩
    · intro h
      obtain ⟨entries, hentries, haccepts⟩ := h
      exact ⟨_, entries, hentries, haccepts, rfl⟩
  · intro document entries keys hentries hkeys kid signingKey
    obtain ⟨found, hfound, haccepts, rfl⟩ := parseJwks_eq_ok_iff.mp hkeys
    obtain rfl := Option.some.inj (hentries.symm.trans hfound)
    exact lookup_usableKeys haccepts
  · intro document other entries others hentries hothers hrearranged hcount
    rw [outcome, outcome, parseJwks_of_entries hentries, parseJwks_of_entries hothers]
    exact parseEntries_eq_of_perm hcount hrearranged.usableKeys_perm

end DddFramework.Keycloak
