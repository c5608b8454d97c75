import DddFramework.Cache.InMemory
import Mathlib.Algebra.Order.Ring.Int

/-! How long `MultiLevelCache` serves a value that a caller has set with a TTL. The levels get
that TTL from `set`, but a level that a `get` fills with what it found further down gets its
own default. A Redis server still shows a key at the very moment at which it expires. -/
namespace DddFramework.Cache
open Library

structure Serializer (V : Type) where
  dumps : V → List UInt8
  loads : List UInt8 → V

structure RedisCache (T V : Type) where
  redis : String → Option (Timed T (List UInt8))
  serializer : Serializer V
  ttl : Option T

namespace RedisCache
variable {T V : Type} [LinearOrder T]

def get (cache : RedisCache T V) (now : T) (key : String) : Option V :=
  (Timed.readLasting now (cache.redis key)).map cache.serializer.loads

/-- `set`; nothing where the server refuses the `ex`, as it does unless that is positive. -/
def set [Add T] [Zero T] (cache : RedisCache T V) (now : T) (key : String) (value : V)
    (ttl : Option T) : Option (RedisCache T V) :=
  let raw := cache.serializer.dumps value
  let effectiveTtl := match ttl with
    | some ttl => some ttl
    | none => cache.ttl
  if ∀ ex ∈ effectiveTtl, 0 < ex then
    some { cache with
      redis := Function.update cache.redis key (some ⟨raw, effectiveTtl.map (now + ·)⟩) }
  else none

omit [LinearOrder T] in
def delete (cache : RedisCache T V) (key : String) : RedisCache T V :=
  { cache with redis := Function.update cache.redis key none }

end RedisCache

inductive Level (T V : Type) where
  | inMemory (cache : InMemoryCache T V)
  | redis (cache : RedisCache T V)

namespace Level
variable {T V : Type} [LinearOrder T]

def get (now : T) (key : String) : Level T V → Option V × Level T V
  | .inMemory cache => ((cache.get now key).1, .inMemory (cache.get now key).2)
  | .redis cache => (cache.get now key, .redis cache)

def set [Add T] [Zero T] (now : T) (key : String) (value : V) (ttl : Option T) :
    Level T V → Option (Level T V)
  | .inMemory cache => some (.inMemory (cache.set now key value ttl))
  | .redis cache => (cache.set now key value ttl).map .redis

omit [LinearOrder T] in
def delete (key : String) : Level T V → Level T V
  | .inMemory cache => .inMemory (cache.delete key)
  | .redis cache => .redis (cache.delete key)

def ttl : Level T V → Option T
  | .inMemory cache => cache.ttl
  | .redis cache => cache.ttl

def entry (key : String) : Level T V → Option (Timed T V)
  | .inMemory cache => cache.entry key
  | .redis cache => (cache.redis key).map (Timed.map cache.serializer.loads)

variable {level next : Level T V} {now : T} {key other : String} {item : Timed T V}

theorem entry_of_get (h : (level.get now key).2.entry other = some item) :
    level.entry other = some item := by
  cases level with
  | inMemory cache => exact InMemoryCache.entry_of_get h
  | redis cache => exact h

omit [LinearOrder T] in
theorem entry_delete : (level.delete key).entry other =
    if other = key then none else level.entry other := by
  cases level with
  | inMemory cache =>
    exact (congrFun InMemoryCache.entry_delete other).trans (Function.update_apply ..)
  | redis cache =>
    simp only [delete, entry, RedisCache.delete, Function.update_apply]
    split <;> rfl

theorem entry_set [Add T] [Zero T] {value : V} {ttl : Option T}
    (h : level.set now key value ttl = some next) :
    ∃ stored, next.entry other = if other = key then
      some ⟨stored, InMemoryCache.expires ttl level.ttl now⟩ else level.entry other := by
  cases level with
  | inMemory cache =>
    cases h
    exact ⟨value, (congrFun (InMemoryCache.entry_set value ttl) other).trans
      (Function.update_apply ..)⟩
  | redis cache =>
    simp only [set, RedisCache.set, Option.map_eq_some_iff, Option.ite_none_right_eq_some,
      Option.some.injEq] at h
    obtain ⟨_, ⟨-, rfl⟩, rfl⟩ := h
    refine ⟨cache.serializer.loads (cache.serializer.dumps value), ?_⟩
    simp only [entry, Function.update_apply]
    split <;> rfl

/-- Under this key there is nothing that outlasts the deadline. -/
def Bounded (deadline : T) (key : String) (level : Level T V) : Prop :=
  ∀ item, level.entry key = some item → ∃ expiry ∈ item.expires, expiry ≤ deadline

theorem ttl_get (now : T) (key : String) : (level.get now key).2.ttl = level.ttl := by
  cases level with
  | inMemory cache => exact InMemoryCache.ttl_get
  | redis cache => rfl

def shows (now : T) (key : String) (level : Level T V) : Bool := (level.get now key).1.isSome

/-- A Redis level has the key at the very moment at which it expires. -/
def Lingers (now : T) (key : String) : Level T V → Prop
  | .inMemory _ => False
  | .redis cache => ∃ item, cache.redis key = some item ∧ now ∈ item.expires

variable {deadline : T}

theorem Bounded.get_fst (h : level.Bounded deadline key) (hle : deadline ≤ now)
    (hlingers : deadline = now → ¬level.Lingers now key) : (level.get now key).1 = none := by
  cases level with
  | inMemory cache =>
    refine InMemoryCache.get_fst.trans ?_
    cases hentry : cache.entry key with
    | none => rfl
    | some item =>
      obtain ⟨expiry, hexpiry, hbound⟩ := h item hentry
      exact Timed.read_of_not_live (Timed.not_live_iff.mpr ⟨expiry, hexpiry, hbound.trans hle⟩)
  | redis cache =>
    simp only [get, RedisCache.get, Option.map_eq_none_iff]
    cases hentry : cache.redis key with
    | none => rfl
    | some item =>
      obtain ⟨expiry, hexpiry, hbound⟩ := h (item.map cache.serializer.loads)
        (by simp [entry, hentry])
      have hne : expiry ≠ now := by
        rintro rfl
        exact hlingers (le_antisymm hle hbound) ⟨item, hentry, hexpiry⟩
      exact Timed.readLasting_of_lt hexpiry (lt_of_le_of_ne (hbound.trans hle) hne)

theorem Bounded.get (h : level.Bounded deadline key) (other : String) :
    (level.get now other).2.Bounded deadline key :=
  fun item hentry => h item (entry_of_get hentry)

theorem Bounded.delete (h : level.Bounded deadline key) (other : String) :
    (level.delete other).Bounded deadline key := by
  intro item hentry
  rw [entry_delete] at hentry
  split at hentry
  · cases hentry
  · exact h item hentry

section sets
variable [Add T] [Zero T] {value : V} {ttl : Option T}

theorem Bounded.set (h : level.Bounded deadline key) (hne : key ≠ other) :
    ((level.set now other value ttl).getD level).Bounded deadline key := by
  cases hset : level.set now other value ttl with
  | none => exact h
  | some next =>
    obtain ⟨stored, hentry⟩ := @entry_set T V _ level next now other key _ _ value ttl hset
    rw [if_neg hne] at hentry
    intro item hitem
    exact h item (hentry.symm.trans hitem)

theorem bounded_set (hset : level.set now key value ttl = some next)
    (hbound : ∃ expiry ∈ InMemoryCache.expires ttl level.ttl now, expiry ≤ deadline) :
    next.Bounded deadline key := by
  obtain ⟨stored, hentry⟩ := @entry_set T V _ level next now key key _ _ value ttl hset
  intro item hitem
  rw [hentry, if_pos rfl] at hitem
  cases hitem
  exact hbound

/-- Filled by a `get`, the level keeps what it is given no longer than until the deadline. -/
def FillsInTime (now deadline : T) (level : Level T V) : Prop :=
  ∃ expiry ∈ InMemoryCache.expires none level.ttl now, expiry ≤ deadline

instance : Decidable (level.FillsInTime now deadline) :=
  inferInstanceAs (Decidable (∃ expiry ∈ InMemoryCache.expires none level.ttl now,
    expiry ≤ deadline))

theorem Bounded.fill (h : level.Bounded deadline key)
    (hfills : key = other → level.FillsInTime now deadline) :
    ((level.set now other value none).getD level).Bounded deadline key := by
  by_cases hkey : key = other
  · subst hkey
    cases hset : level.set now key value none with
    | none => exact h
    | some next => exact bounded_set hset (hfills rfl)
  · exact h.set hkey

theorem set_isSome (h : ∀ ex ∈ ttl, 0 < ex) (hsome : ttl.isSome = true) :
    (level.set now key value ttl).isSome = true := by
  obtain ⟨ex, rfl⟩ := Option.isSome_iff_exists.mp hsome
  cases level with
  | inMemory cache => rfl
  | redis cache => simp [set, RedisCache.set, h ex rfl]

end sets
end Level

namespace MultiLevelCache
variable {T V : Type} [LinearOrder T] [Add T] [Zero T] (now : T) (key : String)

/-- `asyncio.gather` over the `set` of some caches: whether none raises, and what they hold
then. -/
def gatherSet (value : V) (ttl : Option T) (caches : List (Level T V)) : Bool × List (Level T V) :=
  (caches.all fun cache => (cache.set now key value ttl).isSome,
    caches.map fun cache => (cache.set now key value ttl).getD cache)

inductive Reply (V : Type) where
  | returned (value : Option V)
  | raised
deriving DecidableEq

def search : List (Level T V) → List (Level T V) → Reply V × List (Level T V)
  | missed, [] => (.returned none, missed)
  | missed, cache :: caches =>
    match cache.get now key with
    | (some value, cache) =>
      let (done, missed) := gatherSet now key value none missed
      (if done then .returned (some value) else .raised, missed ++ cache :: caches)
    | (none, cache) => search (missed ++ [cache]) caches

def get (caches : List (Level T V)) : Reply V × List (Level T V) := search now key [] caches

def set (value : V) (ttl : Option T) (caches : List (Level T V)) : List (Level T V) :=
  (gatherSet now key value ttl caches).2

omit [LinearOrder T] [Add T] [Zero T] in
def delete (caches : List (Level T V)) : List (Level T V) := caches.map (Level.delete key)

/-- A caller's request, or a level that loses an entry. A call looks at a level once and writes only
where it missed, so that a loss while it runs is one before it or after it. -/
inductive Request (T V : Type) where
  | set (key : String) (value : V) (ttl : Option T)
  | get (key : String)
  | delete (key : String)
  | lose (level : Nat) (key : String)
deriving DecidableEq

def machine (caches : List (Level T V)) :
    Machine (List (Level T V)) (T × Request T V) (Reply V) where
  init := caches
  step
    | caches, (now, .set key value ttl) => (set now key value ttl caches, [])
    | caches, (now, .get key) => ((get now key caches).2, [(get now key caches).1])
    | caches, (_, .delete key) => (delete key caches, [])
    | caches, (_, .lose level key) => (caches.modify level (Level.delete key), [])

section bounds
variable {now : T} {key other : String} {deadline : T} {caches missed : List (Level T V)}

/-- The caches that a `get` fills: those before the first that has the key. -/
def filled (now : T) (key : String) (caches : List (Level T V)) : List (Level T V) :=
  if caches.any (Level.shows now key) then caches.takeWhile fun cache => !cache.shows now key
  else []

theorem search_returned_none (h : ∀ cache ∈ caches, (cache.get now key).1 = none) :
    (search now key missed caches).1 = .returned none := by
  induction caches generalizing missed with
  | nil => rfl
  | cons cache caches ih =>
    rw [List.forall_mem_cons] at h
    have hmiss : (cache.get now key).1 = none := h.1
    unfold search
    split
    case h_1 value next hget =>
      rw [hget] at hmiss
      cases hmiss
    case h_2 => exact ih h.2

theorem bounded_search (hmissed : ∀ cache ∈ missed, cache.Bounded deadline key)
    (hcaches : ∀ cache ∈ caches, cache.Bounded deadline key)
    (hfills : key = other → caches.any (Level.shows now other) = true →
      ∀ cache ∈ missed ++ caches.takeWhile fun cache => !cache.shows now other,
        cache.FillsInTime now deadline) :
    ∀ cache ∈ (search now other missed caches).2, cache.Bounded deadline key := by
  induction caches generalizing missed with
  | nil => exact hmissed
  | cons cache caches ih =>
    rw [List.forall_mem_cons] at hcaches
    have hnext : (cache.get now other).2.Bounded deadline key := hcaches.1.get other
    have hshows : cache.shows now other = (cache.get now other).1.isSome := rfl
    unfold search
    split
    case h_1 value next hget =>
      rw [hget] at hnext hshows
      simp only [gatherSet, List.mem_append, List.mem_cons, List.mem_map]
      rintro _ (⟨above, habove, rfl⟩ | rfl | hbelow)
      · apply (hmissed above habove).fill
        intro hkey
        exact hfills hkey (by simp [hshows]) above (List.mem_append_left _ habove)
      · exact hnext
      · exact hcaches.2 _ hbelow
    case h_2 next hget =>
      have httl := @Level.ttl_get T V _ cache now other
      rw [hget] at hnext hshows httl
      have hmiss : cache.shows now other = false := hshows
      apply ih
      · rw [List.forall_mem_append, List.forall_mem_singleton]
        exact ⟨hmissed, hnext⟩
      · exact hcaches.2
      · intro hkey hhit
        have hall := hfills hkey (by rw [List.any_cons, hhit, Bool.or_true])
        rw [List.takeWhile_cons_of_pos (by simp [hmiss])] at hall
        simp only [List.forall_mem_append, List.forall_mem_cons] at hall ⊢
        refine ⟨⟨hall.1, ?_, by simp⟩, hall.2.2⟩
        unfold Level.FillsInTime
        rw [httl]
        exact hall.2.1

end bounds

section runs
variable {past history : List (T × Request T V)} {now deadline : T} {key : String}
  {caches : List (Level T V)}

def Request.Sets (key : String) : Request T V → Prop
  | .set other _ _ => other = key
  | _ => False

/-- What was set last under the key is to live until the deadline. -/
def Due (past : List (T × Request T V)) (key : String) (deadline : T) : Prop :=
  ∃ now value ttl, Latest (fun event => event.2.Sets key) past (now, .set key value (some ttl)) ∧
    0 < ttl ∧ deadline = now + ttl

/-- What a `get` fills the missed caches with expires there before the deadline that its caller
has set, by their own default TTLs. -/
def FillsInTime (past : List (T × Request T V)) (caches : List (Level T V)) :
    T × Request T V → Prop
  | (now, .get key) => ∀ deadline, Due past key deadline →
      ∀ cache ∈ filled now key caches, cache.FillsInTime now deadline
  | _ => True

/-- At the very moment at which the value set last is over, no Redis level has it still. -/
def LetsGo (past : List (T × Request T V)) (caches : List (Level T V)) : T × Request T V → Prop
  | (now, .get key) => Due past key now → ∀ cache ∈ caches, ¬cache.Lingers now key
  | _ => True

def KeepsTime (past : List (T × Request T V)) (caches : List (Level T V))
    (event : T × Request T V) : Prop :=
  FillsInTime past caches event ∧ LetsGo past caches event

/-- No `get` returns what was set last once its time is over. -/
def ServesInTime (caches : List (Level T V)) (history : List (T × Request T V)) : Prop :=
  ∀ past now key rest, history = past ++ (now, .get key) :: rest →
    ∀ deadline, Due past key deadline → deadline ≤ now →
    ((machine caches).step ((machine caches).after caches past) (now, .get key)).2 =
      [.returned none]

theorem bounded_step {event : T × Request T V}
    (h : ∀ cache ∈ caches, cache.Bounded deadline key) (hevent : ¬event.2.Sets key)
    (hfills : FillsInTime past caches event) (hdue : Due past key deadline)
    (init : List (Level T V)) :
    ∀ cache ∈ ((machine init).step caches event).1, cache.Bounded deadline key := by
  obtain ⟨now, request⟩ := event
  cases request with
  | set other value ttl =>
    simp only [machine, set, gatherSet, List.forall_mem_map]
    exact fun cache hcache => (h cache hcache).set (Ne.symm hevent)
  | get other =>
    apply bounded_search (by simp) h
    rintro rfl hhit cache hcache
    exact hfills deadline hdue cache (by rwa [filled, if_pos hhit])
  | delete other =>
    simp only [machine, delete, List.forall_mem_map]
    exact fun cache hcache => (h cache hcache).delete other
  | lose level other =>
    intro cache hcache
    obtain ⟨i, hi, rfl⟩ := List.mem_iff_getElem.mp hcache
    have hlength : i < caches.length := by simpa [machine] using hi
    have hold := h caches[i] (List.getElem_mem hlength)
    simp only [machine, List.getElem_modify]
    split
    · exact hold.delete other
    · exact hold

theorem bounded_set {value : V} {ttl : T} (httl : 0 < ttl) :
    ∀ cache ∈ set now key value (some ttl) caches, cache.Bounded (now + ttl) key := by
  simp only [set, gatherSet, List.forall_mem_map]
  intro cache _
  have hsome : (cache.set now key value (some ttl)).isSome = true :=
    Level.set_isSome (by simpa using httl) rfl
  obtain ⟨next, hnext⟩ := Option.isSome_iff_exists.mp hsome
  rw [hnext]
  exact Level.bounded_set hnext ⟨now + ttl, rfl, le_rfl⟩

/-- In a run in which all is filled in time, nothing that was set last outlasts it. -/
theorem bounded_after (h : (machine caches).Guarded KeepsTime history) :
    ∀ key deadline, Due history key deadline →
      ∀ cache ∈ (machine caches).after caches history, cache.Bounded deadline key := by
  apply h.invariant (I := fun past _ caches => ∀ key deadline, Due past key deadline →
    ∀ cache ∈ caches, cache.Bounded deadline key)
  · rintro key deadline ⟨_, _, _, hlatest, -⟩
    exact absurd hlatest not_latest_nil
  · rintro past _ caches event hkeeps ih key deadline ⟨now, value, ttl, hlatest, httl, rfl⟩
    rcases latest_concat.mp hlatest with rfl | ⟨hevent, hpast⟩
    · exact bounded_set httl
    · have hdue : Due past key (now + ttl) := ⟨now, value, ttl, hpast, httl, rfl⟩
      exact bounded_step (ih key _ hdue) hevent hkeeps.1 hdue _

/-- In every run in which what a `get` fills expires in time, and none asks Redis for a key at
the moment at which it expires, no `get` returns what was set last once its time is over. -/
theorem servesInTime_of_keepsTime (caches : List (Level T V)) (history : List (T × Request T V))
    (h : (machine caches).Guarded KeepsTime history) : ServesInTime caches history := by
  rintro past now key rest rfl deadline hdue hle
  have hbounded := bounded_after h.past key deadline hdue
  have hgone : deadline = now →
      ∀ cache ∈ (machine caches).after caches past, ¬cache.Lingers now key := by
    rintro rfl
    exact (h past _ rest rfl).2 hdue
  have hmissed := @search_returned_none T V _ _ _ now key _ [] fun cache hcache =>
    (hbounded cache hcache).get_fst hle fun hsame => hgone hsame cache hcache
  exact congrArg (fun reply => [reply]) hmissed

end runs

section witness

def memory (ttl : Option Int) : Level Int (List UInt8) := .inMemory ⟨∅, ttl⟩

def shared : Level Int (List UInt8) := .redis ⟨fun _ => none, ⟨id, id⟩, none⟩

/-- A value is set for ten seconds; the upper level loses it, gets it back from the lower one
in the last of them, and is asked for it again. -/
def browsing (last : Int) : List (Int × Request Int (List UInt8)) :=
  [(0, .set "user:1" [7] (some 10)), (1, .lose 0 "user:1"), (9, .get "user:1"),
    (last, .get "user:1")]

/-- An upper level without a TTL serves the value once its time is over, and a Redis level alone
at the moment at which it is. -/
theorem servesInTime_fails :
    ¬ServesInTime [memory none, shared] (browsing 11) ∧
      ¬ServesInTime [shared] [(0, .set "user:1" [7] (some 10)), (10, .get "user:1")] := by
  constructor
  · intro h
    have hdue : Due ((browsing 11).take 3) "user:1" 10 :=
      ⟨0, [7], 10, ⟨[], _, rfl, by simp [Request.Sets]⟩, by decide, rfl⟩
    have hreply := h _ 11 "user:1" [] (List.take_append_drop 3 (browsing 11)).symm 10 hdue
      (by decide)
    revert hreply
    decide +kernel
  · intro h
    have hdue : Due [((0 : Int), .set "user:1" [(7 : UInt8)] (some 10))] "user:1" 10 :=
      ⟨0, [7], 10, ⟨[], [], rfl, by simp⟩, by decide, rfl⟩
    have hreply := h [(0, .set "user:1" [7] (some 10))] 10 "user:1" [] rfl 10 hdue le_rfl
    revert hreply
    decide +kernel

theorem servesInTime_browsing : ServesInTime [memory (some 1), shared] (browsing 11) := by
  apply servesInTime_of_keepsTime
  intro past event rest hsplit
  have hdeadline : ∀ deadline, Due past "user:1" deadline → deadline = 10 := by
    rintro _ ⟨now, value, ttl, ⟨before, after, rfl, -⟩, -, rfl⟩
    have hmem : (now, .set "user:1" value (some ttl)) ∈ browsing 11 := by simp [hsplit]
    simp only [browsing, List.mem_cons, Prod.mk.injEq, Request.set.injEq] at hmem
    simp_all
  have hmem : (_, event) ∈ (machine [memory (some 1), shared]).steps
      (machine [memory (some 1), shared]).init (browsing 11) :=
    Machine.mem_steps_of_split _ hsplit
  have hlater : ∀ now : Int, now ≠ 10 → ¬Due past "user:1" now :=
    fun now hnow hdue => hnow (hdeadline now hdue)
  simp only [browsing, Machine.steps, List.mem_cons, List.not_mem_nil, or_false, Prod.mk.injEq]
    at hmem
  rcases hmem with ⟨-, rfl⟩ | ⟨-, rfl⟩ | ⟨hstate, rfl⟩ | ⟨hstate, rfl⟩
  · exact ⟨trivial, trivial⟩
  · exact ⟨trivial, trivial⟩
  · refine ⟨fun deadline hdue => ?_, fun hdue => absurd hdue (hlater 9 (by decide))⟩
    rw [hdeadline deadline hdue]
    rw [hstate]
    decide +kernel
  · refine ⟨fun deadline hdue => ?_, fun hdue => absurd hdue (hlater 11 (by decide))⟩
    rw [hdeadline deadline hdue]
    rw [hstate]
    decide +kernel

end witness
end MultiLevelCache
end DddFramework.Cache
