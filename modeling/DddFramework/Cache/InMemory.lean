import DddFramework.Library.Lifetimes
import DddFramework.Library.Machine
import Mathlib.Data.List.AList
import Mathlib.Data.Int.Order.Basic

/-! `InMemoryCache`, against the map it stands for: what was set last under a key, until it
expires or is removed. Expired entries are deleted lazily and by `_cleanup_loop`, and nobody
can tell when. -/
namespace DddFramework.Cache
open Library

/-- The storage is a `dict`, on whose order no method depends. -/
structure InMemoryCache (T V : Type) where
  storage : AList fun _ : String => Timed T V
  ttl : Option T

namespace InMemoryCache
variable {T V : Type} [LinearOrder T]

/-- `get`, with lazy deletion. -/
def get (cache : InMemoryCache T V) (now : T) (key : String) : Option V × InMemoryCache T V :=
  match cache.storage.lookup key with
  | none => (none, cache)
  | some ⟨value, expires⟩ =>
    if ∃ expiry ∈ expires, now ≥ expiry then
      (none, { cache with storage := cache.storage.erase key })
    else (some value, cache)

def expires [Add T] (ttl : Option T) (cacheTtl : Option T) (now : T) : Option T :=
  let effectiveTtl := match ttl with
    | some ttl => some ttl
    | none => cacheTtl
  effectiveTtl.map (now + ·)

def set [Add T] (cache : InMemoryCache T V) (now : T) (key : String) (value : V)
    (ttl : Option T) : InMemoryCache T V :=
  { cache with storage := cache.storage.insert key ⟨value, expires ttl cache.ttl now⟩ }

/-- `pop`, whose lock is never waited for: its body has no await. -/
def pop (cache : InMemoryCache T V) (now : T) (key : String) : Option V × InMemoryCache T V :=
  match cache.storage.lookup key with
  | none => (none, cache)
  | some ⟨value, expires⟩ =>
    let cache := { cache with storage := cache.storage.erase key }
    if ∃ expiry ∈ expires, now ≥ expiry then (none, cache) else (some value, cache)

omit [LinearOrder T] in
def delete (cache : InMemoryCache T V) (key : String) : InMemoryCache T V :=
  if key ∈ cache.storage then { cache with storage := cache.storage.erase key } else cache

/-- One pass of `_cleanup_loop`: no other task runs between its snapshot and its deletions. -/
def cleanup (cache : InMemoryCache T V) (now : T) : InMemoryCache T V :=
  let expired := cache.storage.entries.filter fun entry =>
    ∃ expiry ∈ entry.2.expires, expiry ≤ now
  { cache with
    storage := (expired.map Sigma.fst).foldl
      (fun storage key => if key ∈ storage then storage.erase key else storage) cache.storage }

inductive Request (T V : Type) where
  | set (key : String) (value : V) (ttl : Option T)
  | get (key : String)
  | pop (key : String)
  | delete (key : String)
  | cleanup
deriving DecidableEq

def machine [Add T] (ttl : Option T) :
    Machine (InMemoryCache T V) (T × Request T V) (Option V) where
  init := ⟨∅, ttl⟩
  step
    | cache, (now, .set key value ttl) => (cache.set now key value ttl, [])
    | cache, (now, .get key) => ((cache.get now key).2, [(cache.get now key).1])
    | cache, (now, .pop key) => ((cache.pop now key).2, [(cache.pop now key).1])
    | cache, (_, .delete key) => (cache.delete key, [])
    | cache, (now, .cleanup) => (cache.cleanup now, [])

/-- The map that the cache stands for: nothing leaves it but by `pop` and `delete`. -/
def timedMap [Add T] (ttl : Option T) :
    Machine (String → Option (Timed T V)) (T × Request T V) (Option V) where
  init := fun _ => none
  step
    | map, (now, .set key value itemTtl) =>
        (Function.update map key (some ⟨value, expires itemTtl ttl now⟩), [])
    | map, (now, .get key) => (map, [Timed.read now (map key)])
    | map, (now, .pop key) => (Function.update map key none, [Timed.read now (map key)])
    | map, (_, .delete key) => (Function.update map key none, [])
    | map, (_, .cleanup) => (map, [])

section entries
variable {cache : InMemoryCache T V} {now : T} {key : String}

def entry (cache : InMemoryCache T V) (key : String) : Option (Timed T V) :=
  cache.storage.lookup key

omit [LinearOrder T] in
theorem entry_erase :
    InMemoryCache.entry { cache with storage := cache.storage.erase key } =
      Function.update cache.entry key none := by
  funext other
  by_cases hother : other = key
  · subst hother
    rw [Function.update_self]
    exact AList.lookup_erase other _
  · rw [Function.update_of_ne hother]
    exact AList.lookup_erase_ne hother

omit [LinearOrder T] in
theorem entry_set [Add T] (value : V) (ttl : Option T) :
    (cache.set now key value ttl).entry =
      Function.update cache.entry key (some ⟨value, expires ttl cache.ttl now⟩) := by
  funext other
  by_cases hother : other = key
  · subst hother
    rw [Function.update_self]
    exact AList.lookup_insert _
  · rw [Function.update_of_ne hother]
    exact AList.lookup_insert_ne hother

omit [LinearOrder T] in
theorem entry_delete : (cache.delete key).entry = Function.update cache.entry key none := by
  unfold delete
  split
  case isTrue => exact entry_erase
  case isFalse habsent =>
    rw [← AList.lookup_eq_none.mpr habsent]
    exact (Function.update_eq_self key cache.entry).symm

omit [LinearOrder T] in
theorem ttl_delete : (cache.delete key).ttl = cache.ttl := by
  unfold delete
  split <;> rfl

theorem get_fst : (cache.get now key).1 = Timed.read now (cache.entry key) := by
  unfold get entry
  split
  case h_1 hlookup => rw [hlookup, Timed.read_none]
  case h_2 value expires hlookup =>
    rw [hlookup]
    have hlive := @Timed.not_live_iff T V _ now ⟨value, expires⟩
    split
    case isTrue hexpired => exact (Timed.read_of_not_live (hlive.mpr hexpired)).symm
    case isFalse hexpired => exact (Timed.read_of_live (not_not.mp (mt hlive.mp hexpired))).symm

theorem entry_get (other : String) :
    Timed.SameFrom now ((cache.get now key).2.entry other) (cache.entry other) := by
  unfold get
  split
  case h_1 => exact .refl
  case h_2 value expires hlookup =>
    split
    case isTrue hexpired =>
      rw [entry_erase]
      by_cases hother : other = key
      · subst hother
        rw [Function.update_self, entry, hlookup]
        exact .forget (Timed.not_live_iff.mpr hexpired)
      · rw [Function.update_of_ne hother]
        exact .refl
    case isFalse => exact .refl

theorem entry_of_get {other : String} {item : Timed T V}
    (h : (cache.get now key).2.entry other = some item) : cache.entry other = some item := by
  unfold get at h
  split at h
  case h_1 => exact h
  case h_2 =>
    split at h
    case isTrue =>
      rw [entry_erase] at h
      by_cases hother : other = key
      · rw [hother, Function.update_self] at h
        cases h
      · rwa [Function.update_of_ne hother] at h
    case isFalse => exact h

theorem ttl_get : (cache.get now key).2.ttl = cache.ttl := by
  unfold get
  split
  · rfl
  · split <;> rfl

theorem pop_fst : (cache.pop now key).1 = Timed.read now (cache.entry key) := by
  rw [← get_fst]
  unfold pop get
  split
  · rfl
  · dsimp only
    split <;> rfl

theorem ttl_pop : (cache.pop now key).2.ttl = cache.ttl := by
  unfold pop
  split
  · rfl
  · dsimp only
    split <;> rfl

theorem entry_pop : (cache.pop now key).2.entry = Function.update cache.entry key none := by
  unfold pop
  split
  case h_1 hlookup =>
    rw [← hlookup]
    exact (Function.update_eq_self key cache.entry).symm
  case h_2 =>
    dsimp only
    split <;> exact entry_erase

omit [LinearOrder T] in
theorem lookup_foldl_erase (keys : List String) (storage : AList fun _ : String => Timed T V) :
    (keys.foldl (fun storage key => if key ∈ storage then storage.erase key else storage)
      storage).lookup key = if key ∈ keys then none else storage.lookup key := by
  induction keys generalizing storage with
  | nil => rfl
  | cons first keys ih =>
    have hfirst : (if first ∈ storage then storage.erase first else storage).lookup key =
        if key = first then none else storage.lookup key := by
      split
      case isTrue =>
        by_cases hkey : key = first
        · rw [if_pos hkey, hkey, AList.lookup_erase]
        · rw [if_neg hkey, AList.lookup_erase_ne hkey]
      case isFalse habsent =>
        by_cases hkey : key = first
        · rw [if_pos hkey, hkey, AList.lookup_eq_none.mpr habsent]
        · rw [if_neg hkey]
    rw [List.foldl_cons, ih, hfirst]
    by_cases hkey : key = first <;> simp [hkey]

theorem entry_cleanup :
    Timed.SameFrom now ((cache.cleanup now).entry key) (cache.entry key) := by
  unfold cleanup entry
  dsimp only
  rw [lookup_foldl_erase]
  split
  case isFalse => exact .refl
  case isTrue hexpired =>
    obtain ⟨⟨other, item⟩, hentry, rfl⟩ := List.mem_map.mp hexpired
    obtain ⟨hstored, hpassed⟩ := List.mem_filter.mp hentry
    rw [AList.mem_lookup_iff.mpr hstored]
    exact .forget (Timed.not_live_iff.mpr (of_decide_eq_true hpassed))

end entries

section runs
variable [Add T] {ttl : Option T} {cache : InMemoryCache T V} {map : String → Option (Timed T V)}
  {now : T}

/-- From now on the cache shows what the map does. -/
def Shows (now : T) (cache : InMemoryCache T V) (map : String → Option (Timed T V)) : Prop :=
  ∀ key, Timed.SameFrom now (cache.entry key) (map key)

omit [Add T] in
theorem Shows.update (h : Shows now cache map) {next : InMemoryCache T V} {key : String}
    {item : Option (Timed T V)} (hnext : next.entry = Function.update cache.entry key item) :
    Shows now next (Function.update map key item) := by
  intro other
  rw [hnext]
  by_cases hother : other = key
  · rw [hother, Function.update_self, Function.update_self]
    exact .refl
  · rw [Function.update_of_ne hother, Function.update_of_ne hother]
    exact h other

omit [Add T] in
theorem Shows.read (h : Shows now cache map) (key : String) :
    Timed.read now (cache.entry key) = Timed.read now (map key) :=
  h key now le_rfl

theorem Shows.step (h : Shows now cache map) (httl : cache.ttl = ttl) (request : Request T V) :
    ((machine ttl).step cache (now, request)).2 = ((timedMap ttl).step map (now, request)).2 ∧
      ((machine ttl).step cache (now, request)).1.ttl = ttl ∧
      Shows now ((machine ttl).step cache (now, request)).1
        ((timedMap ttl).step map (now, request)).1 := by
  cases request with
  | set key value itemTtl =>
    refine ⟨rfl, httl, h.update ?_⟩
    rw [← httl]
    exact entry_set value itemTtl
  | get key =>
    refine ⟨?_, ?_, fun other => (entry_get other).trans (h other)⟩
    · change [_] = [_]
      rw [get_fst, h.read]
    · exact ttl_get.trans httl
  | pop key =>
    refine ⟨?_, ?_, h.update entry_pop⟩
    · change [_] = [_]
      rw [pop_fst, h.read]
    · exact ttl_pop.trans httl
  | delete key => exact ⟨rfl, ttl_delete.trans httl, h.update entry_delete⟩
  | cleanup => exact ⟨rfl, httl, fun key => entry_cleanup.trans (h key)⟩

/-- The cache answers every request as the map does, and shows what it holds. -/
theorem simulates (ttl : Option T) {history : List (T × Request T V)}
    (hclock : (history.map Prod.fst).Pairwise (· ≤ ·)) :
    (machine ttl).emitted (machine ttl).init history =
        (timedMap ttl).emitted (timedMap ttl).init history ∧
      ((machine ttl).after (machine ttl).init history).ttl = ttl ∧
      ∀ now, (∀ event ∈ history, event.1 ≤ now) →
        Shows now ((machine ttl).after (machine ttl).init history)
          ((timedMap ttl).after (timedMap ttl).init history) := by
  refine Machine.emitted_eq_of_simulation (m := machine ttl) (n := timedMap ttl)
    (G := fun past event => ∀ earlier ∈ past, earlier.1 ≤ event.1)
    (R := fun past cache map => cache.ttl = ttl ∧
      ∀ now, (∀ event ∈ past, event.1 ≤ now) → Shows now cache map)
    ⟨rfl, fun _ _ _ => .refl⟩ ?_ fun past event rest hsplit earlier hearlier =>
      le_of_split hclock hsplit hearlier
  rintro past cache map ⟨now, request⟩ hlatest ⟨httl, hshows⟩
  obtain ⟨hreply, hnext, hsame⟩ := (hshows now hlatest).step httl request
  refine ⟨hreply, hnext, fun later hlater key => (hsame key).mono ?_⟩
  exact hlater (now, request) (List.mem_append_right _ List.mem_cons_self)

end runs

section histories
variable [Add T] {ttl : Option T} {past : List (T × Request T V)} {key : String}
  {item : Timed T V}

def Request.Replaces (key : String) : Request T V → Prop
  | .set other _ _ | .pop other | .delete other => other = key
  | .get _ | .cleanup => False

def Request.isCleanup : Request T V → Bool
  | .cleanup => true
  | _ => false

/-- The item is what the latest `set` of the key has stored, with no later `pop` or `delete`. -/
def LatestSet (ttl : Option T) (past : List (T × Request T V)) (key : String)
    (item : Timed T V) : Prop :=
  ∃ now value itemTtl,
    Latest (fun event => event.2.Replaces key) past (now, .set key value itemTtl) ∧
      item = ⟨value, expires itemTtl ttl now⟩

theorem timedMap_after :
    (timedMap ttl).after (timedMap ttl).init past key = some item ↔
      LatestSet ttl past key item := by
  induction past using List.reverseRecOn generalizing item with
  | nil => simp [LatestSet, not_latest_nil, timedMap]
  | append_singleton past event ih =>
    obtain ⟨now, request⟩ := event
    simp only [Machine.after_concat, LatestSet, latest_concat, Prod.mk.injEq]
    by_cases hreplaces : request.Replaces key
    · cases request with
      | set other value itemTtl | pop other | delete other =>
        obtain rfl : other = key := hreplaces
        simp [timedMap, Request.Replaces, eq_comm]
      | get | cleanup => exact absurd hreplaces id
    · have hsame : ((timedMap ttl).step ((timedMap ttl).after (timedMap ttl).init past)
          (now, request)).1 key = (timedMap ttl).after (timedMap ttl).init past key := by
        cases request with
        | set other value itemTtl | pop other | delete other =>
          exact Function.update_of_ne (Ne.symm hreplaces) ..
        | get | cleanup => rfl
      have hother : ∀ value itemTtl, .set key value itemTtl ≠ request := by
        rintro value itemTtl rfl
        exact hreplaces rfl
      rw [hsame, ih]
      simp [LatestSet, hreplaces, hother]

theorem emitted_timedMap (map : String → Option (Timed T V)) (history : List (T × Request T V)) :
    (timedMap ttl).emitted map history =
      (timedMap ttl).emitted map (history.filter fun event => !event.2.isCleanup) := by
  induction history generalizing map with
  | nil => rfl
  | cons event history ih =>
    obtain ⟨now, request⟩ := event
    cases request with
    | cleanup => exact ih map
    | set | get | pop | delete => exact congrArg (_ ++ ·) (ih _)

end histories

section refinement
variable [Add T]

/-- The cache refines a map with expiry: `get` and `pop` return what was set last, until it
expires or is removed. Where its cleanup runs, and whether it does, makes no difference. -/
theorem machine_refines (ttl : Option T) {history : List (T × Request T V)}
    (hclock : (history.map Prod.fst).Pairwise (· ≤ ·)) :
    (∀ past now request rest key, history = past ++ (now, request) :: rest →
      request = .get key ∨ request = .pop key →
      ∃ result, ((machine ttl).step ((machine ttl).after (machine ttl).init past)
          (now, request)).2 = [result] ∧
        ∀ value, result = some value ↔
          ∃ item, LatestSet ttl past key item ∧ item.Live now ∧ item.value = value) ∧
      ∀ history' : List (T × Request T V), (history'.map Prod.fst).Pairwise (· ≤ ·) →
        (history'.filter fun event => !event.2.isCleanup) =
          (history.filter fun event => !event.2.isCleanup) →
        (machine ttl).emitted (machine ttl).init history' =
          (machine ttl).emitted (machine ttl).init history := by
  constructor
  · rintro past now request rest key rfl hrequest
    rw [List.map_append, List.pairwise_append] at hclock
    obtain ⟨hpast, -, hlatest⟩ := hclock
    obtain ⟨-, httl, hshows⟩ := simulates ttl hpast
    have hsame := hshows now fun event hevent =>
      hlatest _ (List.mem_map_of_mem hevent) now (by simp)
    refine ⟨Timed.read now ((timedMap ttl).after (timedMap ttl).init past key), ?_, fun value => ?_⟩
    · rw [(hsame.step httl request).1]
      rcases hrequest with rfl | rfl <;> rfl
    · simp only [Timed.read_eq_some_iff, timedMap_after]
  · intro history' hclock' hsame
    rw [(simulates ttl hclock').1, (simulates ttl hclock).1, emitted_timedMap, hsame,
      ← emitted_timedMap]

def sessions : List (Int × Request Int String) :=
  [(0, .set "user:1" "old" (some 10)), (4, .set "user:1" "new" none), (5, .set "user:2" "ann" none),
    (12, .get "user:1"), (24, .get "user:1"), (24, .pop "user:2"), (24, .get "user:2")]

def swept : List (Int × Request Int String) :=
  sessions.flatMap fun event => [(event.1, .cleanup), event]

theorem machine_refines_sessions :
    (machine (some 20)).emitted (machine (some 20)).init sessions =
        [some "new", none, some "ann", none] ∧
      (machine (some 20)).emitted (machine (some 20)).init swept =
        (machine (some 20)).emitted (machine (some 20)).init sessions :=
  ⟨by decide +kernel, (@machine_refines Int String _ _ (some 20) sessions (by decide)).2 swept
    (by decide) (by decide)⟩

end refinement
end InMemoryCache
end DddFramework.Cache
