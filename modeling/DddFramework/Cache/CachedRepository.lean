import DddFramework.Library.CacheAside
import Mathlib.Algebra.Order.Ring.Int
import Mathlib.Data.List.Basic

/-! `CachedRepository` over any repository and any cache. Its keys tell apart both the
prefixes and the ids, so that repositories of different prefixes can share a cache. -/
namespace DddFramework.Cache
open Library

abbrev Uuid := Fin (2 ^ 128)

instance uuidCount : NeZero (2 ^ 128) := ⟨by decide⟩

def hexDigits : Nat → Nat → List Char
  | 0, _ => []
  | count + 1, n => hexDigits count (n / 16) ++ [Nat.digitChar (n % 16)]

def hyphenate (digits : List Char) : List Char :=
  digits.take 8 ++ '-' :: (digits.drop 8).take 4 ++ '-' :: (digits.drop 12).take 4 ++
    '-' :: (digits.drop 16).take 4 ++ '-' :: digits.drop 20

def Uuid.text (uid : Uuid) : List Char := hyphenate (hexDigits 32 uid)

def buildCacheKey (keyPrefix : String) (uid : Uuid) : String :=
  keyPrefix ++ ":" ++ String.ofList uid.text

@[simp] theorem length_hexDigits (count n : Nat) : (hexDigits count n).length = count := by
  induction count generalizing n with
  | zero => rfl
  | succ count ih => rw [hexDigits, List.length_append, ih, List.length_singleton]

theorem digitChar_inj {n m : Nat} (hn : n < 16) (hm : m < 16)
    (h : Nat.digitChar n = Nat.digitChar m) : n = m := by
  have hall : ∀ a b : Fin 16, Nat.digitChar a = Nat.digitChar b → a = b := by decide
  exact congrArg Fin.val (hall ⟨n, hn⟩ ⟨m, hm⟩ h)

theorem hexDigits_inj {count n m : Nat} (hn : n < 16 ^ count) (hm : m < 16 ^ count)
    (h : hexDigits count n = hexDigits count m) : n = m := by
  induction count generalizing n m with
  | zero => omega
  | succ count ih =>
    rw [hexDigits, hexDigits] at h
    obtain ⟨hinit, hlast⟩ := List.append_inj' h rfl
    rw [Nat.pow_succ] at hn hm
    have hquotient : n / 16 = m / 16 := ih (by omega) (by omega) hinit
    have hdigit : n % 16 = m % 16 :=
      digitChar_inj (Nat.mod_lt _ (by decide)) (Nat.mod_lt _ (by decide)) (List.cons.inj hlast).1
    omega

theorem hyphen_notMem_hexDigits (count n : Nat) : '-' ∉ hexDigits count n := by
  induction count generalizing n with
  | zero => exact List.not_mem_nil
  | succ count ih =>
    have hall : ∀ digit : Fin 16, '-' ≠ Nat.digitChar digit := by decide
    rw [hexDigits, List.mem_append, List.mem_singleton]
    exact fun hmem => hmem.elim (ih _) (hall ⟨n % 16, Nat.mod_lt _ (by decide)⟩)

theorem filter_hyphenate {digits : List Char} (h : '-' ∉ digits) :
    (hyphenate digits).filter (· ≠ '-') = digits := by
  have hpart : ∀ part : List Char, part.Sublist digits → part.filter (· ≠ '-') = part := by
    intro part hpart
    rw [List.filter_eq_self]
    intro c hc
    have hne : c ≠ '-' := fun heq => h (heq ▸ hpart.subset hc)
    simpa using hne
  have htake : ∀ n, ((digits.drop n).take 4).Sublist digits := fun n =>
    (List.take_sublist _ _).trans (List.drop_sublist _ _)
  have hjoin : ∀ n, (digits.drop n).take 4 ++ digits.drop (n + 4) = digits.drop n := by
    intro n
    rw [← List.drop_drop, List.take_append_drop]
  simp only [hyphenate, List.filter_append, List.filter_cons, ne_eq, not_true_eq_false,
    decide_false, Bool.false_eq_true, if_false]
  simp only [← ne_eq, hpart _ (List.take_sublist 8 digits), hpart _ (htake _),
    hpart _ (List.drop_sublist 20 digits), List.append_assoc]
  rw [hjoin 16, hjoin 12, hjoin 8, List.take_append_drop]

theorem length_hyphenate {digits : List Char} (h : digits.length = 32) :
    (hyphenate digits).length = 36 := by
  simp [hyphenate, h]

theorem Uuid.text_inj {uid other : Uuid} (h : uid.text = other.text) : uid = other := by
  have hdigits := congrArg (List.filter (· ≠ '-')) h
  rw [Uuid.text, Uuid.text, filter_hyphenate (hyphen_notMem_hexDigits _ _),
    filter_hyphenate (hyphen_notMem_hexDigits _ _)] at hdigits
  have hpow : 2 ^ 128 = 16 ^ 32 := by decide
  exact Fin.ext (hexDigits_inj (Nat.lt_of_lt_of_eq uid.isLt hpow)
    (Nat.lt_of_lt_of_eq other.isLt hpow) hdigits)

theorem buildCacheKey_inj {keyPrefix otherPrefix : String} {uid other : Uuid} :
    buildCacheKey keyPrefix uid = buildCacheKey otherPrefix other ↔
      keyPrefix = otherPrefix ∧ uid = other := by
  constructor
  · intro h
    have hchars := congrArg String.toList h
    simp only [buildCacheKey, String.toList_append, String.toList_ofList] at hchars
    have hlength : uid.text.length = other.text.length := by
      rw [Uuid.text, Uuid.text, length_hyphenate (length_hexDigits _ _),
        length_hyphenate (length_hexDigits _ _)]
    obtain ⟨hprefixes, htexts⟩ := List.append_inj' hchars hlength
    exact ⟨String.toList_inj.mp (List.append_cancel_right hprefixes), Uuid.text_inj htexts⟩
  · rintro ⟨rfl, rfl⟩
    rfl

theorem buildCacheKey_ne {keyPrefix : String} {uid other : Uuid} (h : other ≠ uid) :
    buildCacheKey keyPrefix other ≠ buildCacheKey keyPrefix uid :=
  fun heq => h (buildCacheKey_inj.mp heq).2

structure Entity (D : Type) where
  id : Uuid
  data : D
deriving DecidableEq

/-- A repository with the state `R`: what it returns, none where it raises, and the state
after it. It reads back what `create` has returned, and no call changes what is read of
another id, or changes anything when it raises. -/
structure Repository (R D : Type) where
  create : R → Entity D → Option (Entity D) × R
  read : R → Uuid → Option (Entity D)
  update : R → Entity D → Option Unit × R
  delete : R → Uuid → Option Unit × R
  exists_ : R → Uuid → Bool
  read_create : ∀ {r entity created}, (create r entity).1 = some created →
    read (create r entity).2 created.id = some created
  read_create_of_ne : ∀ {r entity created uid}, (create r entity).1 = some created →
    uid ≠ created.id → read (create r entity).2 uid = read r uid
  read_create_of_none : ∀ {r entity}, (create r entity).1 = none →
    read (create r entity).2 = read r
  read_update_of_ne : ∀ {r entity uid}, uid ≠ entity.id → read (update r entity).2 uid = read r uid
  read_update_of_none : ∀ {r entity}, (update r entity).1 = none →
    read (update r entity).2 = read r
  read_delete_of_ne : ∀ {r uid other}, other ≠ uid → read (delete r uid).2 other = read r other
  read_delete_of_none : ∀ {r uid}, (delete r uid).1 = none → read (delete r uid).2 = read r

namespace CachedRepository
variable {R C D I : Type} (repo : Repository R D) (cache : Cache C String (Entity D))
  (keyPrefix : String)

def create (s : R × C) (entity : Entity D) : Option (Entity D) × (R × C) :=
  match repo.create s.1 entity with
  | (some created, r) =>
    (some created, (r, cache.set s.2 (buildCacheKey keyPrefix created.id) created))
  | (none, r) => (none, (r, s.2))

def read (s : R × C) (uid : Uuid) : Option (Entity D) × (R × C) :=
  match cache.get s.2 (buildCacheKey keyPrefix uid) with
  | (some entity, c) => (some entity, (s.1, c))
  | (none, c) =>
    match repo.read s.1 uid with
    | some entity => (some entity, (s.1, cache.set c (buildCacheKey keyPrefix uid) entity))
    | none => (none, (s.1, c))

def update (s : R × C) (entity : Entity D) : Option Unit × (R × C) :=
  match repo.update s.1 entity with
  | (some done, r) => (some done, (r, cache.delete s.2 (buildCacheKey keyPrefix entity.id)))
  | (none, r) => (none, (r, s.2))

def delete (s : R × C) (uid : Uuid) : Option Unit × (R × C) :=
  match repo.delete s.1 uid with
  | (some done, r) => (some done, (r, cache.delete s.2 (buildCacheKey keyPrefix uid)))
  | (none, r) => (none, (r, s.2))

/-- `exists` does not use the cache. -/
def exists_ (s : R × C) (uid : Uuid) : Bool := repo.exists_ s.1 uid

variable {repo cache keyPrefix} {key : I → String} {place : Uuid → I}
  {store store' : I → Option (Entity D)} {s : R × C}

/-- The items that share a cache, among them those of this repository. The store has of each
of these what the repository reads. -/
structure Shares (repo : Repository R D) (keyPrefix : String) (key : I → String) (place : Uuid → I)
    (store : I → Option (Entity D)) (r : R) : Prop where
  key_inj : Function.Injective key
  key_place : ∀ uid, key (place uid) = buildCacheKey keyPrefix uid
  reads : ∀ uid, store (place uid) = repo.read r uid

def Others (place : Uuid → I) (store store' : I → Option (Entity D)) : Prop :=
  ∀ i, (∀ uid, i ≠ place uid) → store' i = store i

theorem Shares.frame {r r' : R} (h : Shares repo keyPrefix key place store r)
    (h' : Shares repo keyPrefix key place store' r') (hothers : Others place store store')
    {uid : Uuid} (hread : ∀ other, other ≠ uid → repo.read r' other = repo.read r other) :
    ∀ i, i ≠ place uid → store' i = store i := by
  intro i hi
  by_cases hplace : ∃ other, i = place other
  · obtain ⟨other, rfl⟩ := hplace
    rw [h.reads, h'.reads]
    exact hread other fun heq => hi (congrArg place heq)
  · exact hothers i fun other heq => hplace ⟨other, heq⟩

theorem Shares.same {r r' : R} (h : Shares repo keyPrefix key place store r)
    (h' : Shares repo keyPrefix key place store' r') (hothers : Others place store store')
    (hread : repo.read r' = repo.read r) : store' = store := by
  funext i
  by_cases hplace : ∃ other, i = place other
  · obtain ⟨other, rfl⟩ := hplace
    rw [h.reads, h'.reads, hread]
  · exact hothers i fun other heq => hplace ⟨other, heq⟩

section coherence
variable (hshares : Shares repo keyPrefix key place store s.1)
  (h : cache.Coherent key store s.2)
include hshares h

theorem read_eq (uid : Uuid) : (read repo cache keyPrefix s uid).1 = repo.read s.1 uid := by
  unfold read
  split
  case h_1 entity c hhit =>
    rw [← hshares.reads, h.hit (i := place uid) (by rw [hshares.key_place, hhit])]
  case h_2 =>
    split
    case h_1 entity hread => exact hread.symm
    case h_2 hread => exact hread.symm

omit hshares h in
theorem read_repo (uid : Uuid) : (read repo cache keyPrefix s uid).2.1 = s.1 := by
  unfold read
  split
  · rfl
  · split <;> rfl

omit hshares h in
theorem create_eq (entity : Entity D) :
    (create repo cache keyPrefix s entity).1 = (repo.create s.1 entity).1 ∧
      (create repo cache keyPrefix s entity).2.1 = (repo.create s.1 entity).2 := by
  unfold create
  split
  case h_1 heq => simp [heq]
  case h_2 heq => simp [heq]

omit hshares h in
theorem update_eq (entity : Entity D) :
    (update repo cache keyPrefix s entity).1 = (repo.update s.1 entity).1 ∧
      (update repo cache keyPrefix s entity).2.1 = (repo.update s.1 entity).2 := by
  unfold update
  split
  case h_1 heq => simp [heq]
  case h_2 heq => simp [heq]

omit hshares h in
theorem delete_eq (uid : Uuid) :
    (delete repo cache keyPrefix s uid).1 = (repo.delete s.1 uid).1 ∧
      (delete repo cache keyPrefix s uid).2.1 = (repo.delete s.1 uid).2 := by
  unfold delete
  split
  case h_1 heq => simp [heq]
  case h_2 heq => simp [heq]

theorem coherent_read (uid : Uuid) :
    cache.Coherent key store (read repo cache keyPrefix s uid).2.2 := by
  have hget := h.get (buildCacheKey keyPrefix uid)
  unfold read
  split
  case h_1 entity c hhit =>
    rw [hhit] at hget
    exact hget
  case h_2 c hmiss =>
    rw [hmiss] at hget
    split
    case h_1 entity hread =>
      rw [← hshares.key_place]
      exact hget.set hshares.key_inj ((hshares.reads uid).trans hread)
    case h_2 => exact hget

theorem coherent_create (entity : Entity D)
    (hshares' : Shares repo keyPrefix key place store' (create repo cache keyPrefix s entity).2.1)
    (hothers : Others place store store') :
    cache.Coherent key store' (create repo cache keyPrefix s entity).2.2 := by
  revert hshares'
  unfold create
  split
  case h_1 created r hcreated =>
    intro hshares'
    have hreturned : (repo.create s.1 entity).1 = some created := by rw [hcreated]
    have hnext : (repo.create s.1 entity).2 = r := by rw [hcreated]
    rw [← hshares.key_place]
    apply h.write hshares.key_inj
    · rw [hshares'.reads, ← hnext]
      exact repo.read_create hreturned
    · apply hshares.frame hshares' hothers
      intro other hne
      rw [← hnext]
      exact repo.read_create_of_ne hreturned hne
  case h_2 r hcreated =>
    intro hshares'
    have hread : repo.read r = repo.read s.1 := by
      have hraised := repo.read_create_of_none (r := s.1) (congrArg Prod.fst hcreated)
      rwa [hcreated] at hraised
    rwa [hshares.same hshares' hothers hread]

theorem coherent_update (entity : Entity D)
    (hshares' : Shares repo keyPrefix key place store' (update repo cache keyPrefix s entity).2.1)
    (hothers : Others place store store') :
    cache.Coherent key store' (update repo cache keyPrefix s entity).2.2 := by
  revert hshares'
  unfold update
  split
  case h_1 r hupdated =>
    intro hshares'
    have hnext : (repo.update s.1 entity).2 = r := by rw [hupdated]
    rw [← hshares.key_place]
    apply h.delete
    apply hshares.frame hshares' hothers
    intro other hne
    rw [← hnext]
    exact repo.read_update_of_ne hne
  case h_2 r hupdated =>
    intro hshares'
    have hread : repo.read r = repo.read s.1 := by
      have hraised := repo.read_update_of_none (r := s.1) (congrArg Prod.fst hupdated)
      rwa [hupdated] at hraised
    rwa [hshares.same hshares' hothers hread]

theorem coherent_delete (uid : Uuid)
    (hshares' : Shares repo keyPrefix key place store' (delete repo cache keyPrefix s uid).2.1)
    (hothers : Others place store store') :
    cache.Coherent key store' (delete repo cache keyPrefix s uid).2.2 := by
  revert hshares'
  unfold delete
  split
  case h_1 r hdeleted =>
    intro hshares'
    have hnext : (repo.delete s.1 uid).2 = r := by rw [hdeleted]
    rw [← hshares.key_place]
    apply h.delete
    apply hshares.frame hshares' hothers
    intro other hne
    rw [← hnext]
    exact repo.read_delete_of_ne hne
  case h_2 r hdeleted =>
    intro hshares'
    have hread : repo.read r = repo.read s.1 := by
      have hraised := repo.read_delete_of_none (r := s.1) (congrArg Prod.fst hdeleted)
      rwa [hdeleted] at hraised
    rwa [hshares.same hshares' hothers hread]

end coherence
end CachedRepository
end DddFramework.Cache
