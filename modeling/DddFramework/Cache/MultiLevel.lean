import DddFramework.Cache.Races

/-! `MultiLevelCache` over levels that may drop any of their entries at any moment, and
`CachedRepository` instances of different prefixes that share it. One client cannot tell them
from their bare repositories. -/
namespace DddFramework.Cache
open Library

/-- What the levels hold, and how many calls of a level there have been. -/
structure Levels (V : Type) where
  levels : Nat → String → Option V
  time : Nat

/-- Which entries each level drops before which call. -/
abbrev Drops := Nat → Nat → String → Bool

namespace Levels
variable {V : Type} (drops : Drops)

def empty : Levels V := ⟨fun _ _ => none, 0⟩

def forget (s : Levels V) : Levels V where
  levels level key := if drops s.time level key then none else s.levels level key
  time := s.time + 1

def look (s : Levels V) (level : Nat) (key : String) : Option V × Levels V :=
  ((s.forget drops).levels level key, s.forget drops)

def write (key : String) (value : Option V) (s : Levels V) (level : Nat) : Levels V :=
  { s.forget drops with
    levels := Function.update (s.forget drops).levels level
      (Function.update ((s.forget drops).levels level) key value) }

def gather (key : String) (value : Option V) (levels : List Nat) (s : Levels V) : Levels V :=
  levels.foldl (write drops key value) s

/-- The loop of `get`, with the `missed_caches` so far. -/
def search (key : String) : List Nat → List Nat → Levels V → Option V × Levels V
  | _, [], s => (none, s)
  | missed, level :: levels, s =>
    match s.look drops level key with
    | (some value, s) => (some value, gather drops key (some value) missed s)
    | (none, s) => search key (missed ++ [level]) levels s

variable {drops} {s : Levels V} {key other : String} {level : Nat} {v : V}

theorem levels_forget (h : (s.forget drops).levels level key = some v) :
    s.levels level key = some v := by
  simp only [forget] at h
  split at h
  · cases h
  · exact h

theorem levels_write {value : Option V} {target : Nat}
    (h : (write drops key value s target).levels level other = some v) :
    level = target ∧ other = key ∧ value = some v ∨
      ¬(level = target ∧ other = key) ∧ s.levels level other = some v := by
  simp only [write] at h
  by_cases hlevel : level = target
  · subst hlevel
    rw [Function.update_self] at h
    by_cases hother : other = key
    · subst hother
      rw [Function.update_self] at h
      exact .inl ⟨rfl, rfl, h⟩
    · rw [Function.update_of_ne hother] at h
      exact .inr ⟨fun hsame => hother hsame.2, levels_forget h⟩
  · rw [Function.update_of_ne hlevel] at h
    exact .inr ⟨fun hsame => hlevel hsame.1, levels_forget h⟩

theorem levels_gather {value : Option V} {targets : List Nat}
    (h : (gather drops key value targets s).levels level other = some v) :
    level ∈ targets ∧ other = key ∧ value = some v ∨
      ¬(level ∈ targets ∧ other = key) ∧ s.levels level other = some v := by
  induction targets generalizing s with
  | nil => exact .inr ⟨fun hsame => List.not_mem_nil hsame.1, h⟩
  | cons target targets ih =>
    rcases ih h with ⟨hmem, hrest⟩ | ⟨hnot, hbefore⟩
    · exact .inl ⟨List.mem_cons_of_mem _ hmem, hrest⟩
    · rcases levels_write hbefore with ⟨rfl, hrest⟩ | ⟨hne, hold⟩
      · exact .inl ⟨List.mem_cons_self, hrest⟩
      · refine .inr ⟨fun hsame => ?_, hold⟩
        rcases List.mem_cons.mp hsame.1 with heq | hmem
        · exact hne ⟨heq, hsame.2⟩
        · exact hnot ⟨hmem, hsame.2⟩

theorem search_eq {missed levels : List Nat}
    (h : (search drops key missed levels s).1 = some v) :
    ∃ level ∈ levels, s.levels level key = some v := by
  induction levels generalizing missed s with
  | nil => cases h
  | cons level levels ih =>
    unfold search at h
    split at h
    case h_1 value s' hlook =>
      cases h
      exact ⟨level, List.mem_cons_self, levels_forget (congrArg Prod.fst hlook)⟩
    case h_2 s' hlook =>
      obtain ⟨found, hfound, hvalue⟩ := ih h
      have hnext : s.forget drops = s' := congrArg Prod.snd hlook
      subst hnext
      exact ⟨found, List.mem_cons_of_mem _ hfound, levels_forget hvalue⟩

theorem levels_search {missed levels : List Nat}
    (h : (search drops key missed levels s).2.levels level other = some v) :
    s.levels level other = some v ∨
      other = key ∧ (search drops key missed levels s).1 = some v := by
  induction levels generalizing missed s with
  | nil => exact .inl h
  | cons target levels ih =>
    unfold search at h ⊢
    split at h
    case h_1 value s' hlook =>
      have hnext : s.forget drops = s' := congrArg Prod.snd hlook
      subst hnext
      rcases levels_gather h with ⟨-, hkey, hvalue⟩ | ⟨-, hold⟩
      · exact .inr ⟨hkey, hvalue⟩
      · exact .inl (levels_forget hold)
    case h_2 s' hlook =>
      have hnext : s.forget drops = s' := congrArg Prod.snd hlook
      subst hnext
      exact (ih h).imp_left levels_forget

end Levels

def multiLevelCache (V : Type) (count : Nat) (drops : Drops) : Cache (Levels V) String V where
  get s key := s.search drops key [] (List.range count)
  set s key value := s.gather drops key (some value) (List.range count)
  delete s key := s.gather drops key none (List.range count)
  Holds s key v := ∃ level < count, s.levels level key = some v
  holds_of_get_eq h := by
    obtain ⟨level, hlevel, hvalue⟩ := Levels.search_eq h
    exact ⟨level, List.mem_range.mp hlevel, hvalue⟩
  holds_of_get {s key other v} h := by
    obtain ⟨level, hlevel, hvalue⟩ := h
    rcases Levels.levels_search hvalue with hold | ⟨rfl, hfound⟩
    · exact ⟨level, hlevel, hold⟩
    · obtain ⟨source, hsource, hvalue⟩ := Levels.search_eq hfound
      exact ⟨source, List.mem_range.mp hsource, hvalue⟩
  holds_of_set {s key value other v} h := by
    obtain ⟨level, hlevel, hvalue⟩ := h
    rcases Levels.levels_gather hvalue with ⟨-, hkey, hsame⟩ | ⟨hnot, hold⟩
    · exact .inl ⟨hkey, (Option.some.inj hsame).symm⟩
    · exact .inr ⟨fun hkey => hnot ⟨List.mem_range.mpr hlevel, hkey⟩, level, hlevel, hold⟩
  holds_of_delete {s key other v} h := by
    obtain ⟨level, hlevel, hvalue⟩ := h
    rcases Levels.levels_gather hvalue with ⟨-, -, hnone⟩ | ⟨hnot, hold⟩
    · cases hnone
    · exact ⟨fun hkey => hnot ⟨List.mem_range.mpr hlevel, hkey⟩, level, hlevel, hold⟩

inductive Call (D : Type) where
  | create (entity : Entity D)
  | read (uid : Uuid)
  | update (entity : Entity D)
  | delete (uid : Uuid)
  | exists_ (uid : Uuid)

/-- What a call returns; none where it raises, or has read nothing. -/
inductive Reply (D : Type) where
  | entity (entity : Option (Entity D))
  | done (done : Option Unit)
  | found (found : Bool)
deriving DecidableEq

section calls
variable {R C D : Type} (repo : Repository R D) (cache : Cache C String (Entity D))
  (keyPrefix : String)

def Call.bare (r : R) : Call D → Reply D × R
  | .create entity => (.entity (repo.create r entity).1, (repo.create r entity).2)
  | .read uid => (.entity (repo.read r uid), r)
  | .update entity => (.done (repo.update r entity).1, (repo.update r entity).2)
  | .delete uid => (.done (repo.delete r uid).1, (repo.delete r uid).2)
  | .exists_ uid => (.found (repo.exists_ r uid), r)

def Call.cached (s : R × C) : Call D → Reply D × (R × C)
  | .create entity =>
    let (created, s) := CachedRepository.create repo cache keyPrefix s entity
    (.entity created, s)
  | .read uid =>
    let (entity, s) := CachedRepository.read repo cache keyPrefix s uid
    (.entity entity, s)
  | .update entity =>
    let (done, s) := CachedRepository.update repo cache keyPrefix s entity
    (.done done, s)
  | .delete uid =>
    let (done, s) := CachedRepository.delete repo cache keyPrefix s uid
    (.done done, s)
  | .exists_ uid => (.found (CachedRepository.exists_ repo s uid), s)

variable {repo cache keyPrefix} {s : R × C}

theorem cached_eq_bare
    (hread : ∀ uid, (CachedRepository.read repo cache keyPrefix s uid).1 = repo.read s.1 uid)
    (call : Call D) :
    (call.cached repo cache keyPrefix s).1 = (call.bare repo s.1).1 ∧
      (call.cached repo cache keyPrefix s).2.1 = (call.bare repo s.1).2 := by
  cases call with
  | create entity => exact (CachedRepository.create_eq entity).imp_left (congrArg Reply.entity)
  | read uid => exact ⟨congrArg Reply.entity (hread uid), CachedRepository.read_repo uid⟩
  | update entity => exact (CachedRepository.update_eq entity).imp_left (congrArg Reply.done)
  | delete uid => exact (CachedRepository.delete_eq uid).imp_left (congrArg Reply.done)
  | exists_ uid => exact ⟨rfl, rfl⟩

end calls

section instances
variable {ι R C D : Type} [DecidableEq ι] (repos : ι → Repository R D) (prefixes : ι → String)
  (cache : Cache C String (Entity D))

def bareRepositories (init : ι → R) : Machine (ι → R) (ι × Call D) (Reply D) where
  init := init
  step rs input :=
    let (reply, r) := input.2.bare (repos input.1) (rs input.1)
    (Function.update rs input.1 r, [reply])

/-- The same repositories, each behind a `CachedRepository`, with one cache for all. -/
def cachedRepositories (init : (ι → R) × C) : Machine ((ι → R) × C) (ι × Call D) (Reply D) where
  init := init
  step s input :=
    let (reply, next) := input.2.cached (repos input.1) cache (prefixes input.1)
      (s.1 input.1, s.2)
    ((Function.update s.1 input.1 next.1, next.2), [reply])

def sharedKey (item : ι × Uuid) : String := buildCacheKey (prefixes item.1) item.2

def sharedStore (rs : ι → R) (item : ι × Uuid) : Option (Entity D) :=
  (repos item.1).read (rs item.1) item.2

variable {repos prefixes cache}

omit [DecidableEq ι] in
theorem shares_instance (hprefixes : Function.Injective prefixes) (rs : ι → R) (i : ι) :
    CachedRepository.Shares (repos i) (prefixes i) (sharedKey prefixes) (i, ·)
      (sharedStore repos rs) (rs i) where
  key_inj a b h := by
    obtain ⟨hkey, huid⟩ := buildCacheKey_inj.mp h
    exact Prod.ext (hprefixes hkey) huid
  key_place _ := rfl
  reads _ := rfl

theorem others_instance (rs : ι → R) (i : ι) (r : R) :
    CachedRepository.Others (i, ·) (sharedStore repos rs)
      (sharedStore repos (Function.update rs i r)) := by
  rintro ⟨j, uid⟩ hother
  have hne : j ≠ i := by
    rintro rfl
    exact hother uid rfl
  rw [sharedStore, Function.update_of_ne hne]
  rfl

theorem coherent_call (hprefixes : Function.Injective prefixes) {rs : ι → R} {c : C}
    (h : cache.Coherent (sharedKey prefixes) (sharedStore repos rs) c) (i : ι) (call : Call D) :
    cache.Coherent (sharedKey prefixes)
      (sharedStore repos (Function.update rs i
        (call.cached (repos i) cache (prefixes i) (rs i, c)).2.1))
      (call.cached (repos i) cache (prefixes i) (rs i, c)).2.2 := by
  have hshares : CachedRepository.Shares (repos i) _ _ (i, ·) (sharedStore repos rs) (rs i) :=
    shares_instance hprefixes rs i
  have hnext : ∀ r, CachedRepository.Shares (repos i) (prefixes i) (sharedKey prefixes) (i, ·)
      (sharedStore repos (Function.update rs i r)) r := by
    intro r
    have hupdated : CachedRepository.Shares (repos i) (prefixes i) (sharedKey prefixes) (i, ·)
        (sharedStore repos (Function.update rs i r)) (Function.update rs i r i) :=
      shares_instance hprefixes _ i
    rwa [Function.update_self] at hupdated
  cases call with
  | create entity =>
    exact CachedRepository.coherent_create (s := (rs i, c)) hshares h entity (hnext _)
      (others_instance rs i _)
  | update entity =>
    exact CachedRepository.coherent_update (s := (rs i, c)) hshares h entity (hnext _)
      (others_instance rs i _)
  | delete uid =>
    exact CachedRepository.coherent_delete (s := (rs i, c)) hshares h uid (hnext _)
      (others_instance rs i _)
  | read uid =>
    change cache.Coherent _ (sharedStore repos (Function.update rs i
      (CachedRepository.read (repos i) cache (prefixes i) (rs i, c) uid).2.1)) _
    rw [CachedRepository.read_repo, Function.update_eq_self]
    exact CachedRepository.coherent_read (s := (rs i, c)) hshares h uid
  | exists_ uid =>
    change cache.Coherent _ (sharedStore repos (Function.update rs i (rs i))) _
    rw [Function.update_eq_self]
    exact h

theorem transparent (hprefixes : Function.Injective prefixes) (init : ι → R) {c : C}
    (hempty : ∀ key v, ¬cache.Holds c key v) (history : List (ι × Call D)) :
    (cachedRepositories repos prefixes cache (init, c)).emitted (init, c) history =
      (bareRepositories repos init).emitted init history := by
  refine (Machine.emitted_eq_of_simulation
    (m := cachedRepositories repos prefixes cache (init, c)) (n := bareRepositories repos init)
    (G := fun _ _ => True) (R := fun _ s rs => s.1 = rs ∧
      cache.Coherent (sharedKey prefixes) (sharedStore repos s.1) s.2)
    ⟨rfl, fun _ _ hholds => absurd hholds (hempty _ _)⟩ ?_ fun _ _ _ _ => trivial).1
  rintro past ⟨rs, c⟩ _ ⟨i, call⟩ - ⟨rfl, hcoherent⟩
  obtain ⟨hreply, hnext⟩ := cached_eq_bare (s := (rs i, c))
    (CachedRepository.read_eq (shares_instance hprefixes rs i) hcoherent) call
  refine ⟨congrArg (fun reply => [reply]) hreply, ?_, coherent_call hprefixes hcoherent i call⟩
  exact congrArg (Function.update rs i) hnext

/-- Behind `CachedRepository` instances of different prefixes over a multi-level cache, however
many levels it has and whatever these drop, every call returns what it returns without. -/
theorem cached_transparent (repos : ι → Repository R D) {prefixes : ι → String}
    (hprefixes : Function.Injective prefixes) (count : Nat) (drops : Drops) (init : ι → R)
    (history : List (ι × Call D)) :
    (cachedRepositories repos prefixes (multiLevelCache (Entity D) count drops)
      (init, .empty)).emitted (init, .empty) history =
      (bareRepositories repos init).emitted init history := by
  apply transparent hprefixes
  rintro key v ⟨level, -, hvalue⟩
  cases hvalue

end instances

section witness

def browsing : List (Bool × Call Nat) :=
  [(true, .create ⟨1, 5⟩), (false, .create ⟨1, 8⟩), (true, .read 1), (true, .read 1),
    (true, .update ⟨1, 6⟩), (true, .read 1), (false, .read 1), (true, .delete 1),
    (true, .exists_ 1), (true, .read 1)]

theorem cached_transparent_browsing :
    (cachedRepositories (fun _ => table Nat) (fun user => if user then "user" else "order")
      (multiLevelCache (Entity Nat) 2 fun time level _ => time == 5 && level == 0)
      (fun _ _ => none, .empty)).emitted (fun _ _ => none, .empty) browsing =
      (bareRepositories (fun _ => table Nat) fun _ _ => none).emitted (fun _ _ => none) browsing :=
  cached_transparent (fun _ => table Nat) (by intro a b; cases a <;> cases b <;> simp) 2 _ _
    browsing

end witness
end DddFramework.Cache
