import Mathlib.Logic.Function.Basic

/-! Caches beside a store. A cache may forget what it holds at any time, but holds nothing
under a key that was not the last value set there. It is coherent with a store while all it
holds is what the store has; filling it from the store and deleting what the store writes
keep it so. -/
namespace DddFramework.Library

/-- A cache carries what it guarantees. `Holds` says what it can still answer. -/
structure Cache (C K V : Type*) where
  get : C → K → Option V × C
  set : C → K → V → C
  delete : C → K → C
  Holds : C → K → V → Prop
  holds_of_get_eq : ∀ {c k v}, (get c k).1 = some v → Holds c k v
  holds_of_get : ∀ {c k l v}, Holds (get c k).2 l v → Holds c l v
  holds_of_set : ∀ {c k v l w}, Holds (set c k v) l w → l = k ∧ w = v ∨ l ≠ k ∧ Holds c l w
  holds_of_delete : ∀ {c k l v}, Holds (delete c k) l v → l ≠ k ∧ Holds c l v

def Cache.plain (K V : Type*) [DecidableEq K] : Cache (K → Option V) K V where
  get c k := (c k, c)
  set c k v := Function.update c k (some v)
  delete c k := Function.update c k none
  Holds c k v := c k = some v
  holds_of_get_eq h := h
  holds_of_get h := h
  holds_of_set {c k v l w} h := by
    by_cases hl : l = k
    · subst hl
      rw [Function.update_self] at h
      exact .inl ⟨rfl, (Option.some.inj h).symm⟩
    · rw [Function.update_of_ne hl] at h
      exact .inr ⟨hl, h⟩
  holds_of_delete {c k l v} h := by
    by_cases hl : l = k
    · subst hl
      rw [Function.update_self] at h
      cases h
    · rw [Function.update_of_ne hl] at h
      exact ⟨hl, h⟩

namespace Cache
variable {C K V I : Type*} (cache : Cache C K V) (key : I → K)

/-- What the cache holds under an item's key is what the store has for the item. -/
def Coherent (store : I → Option V) (c : C) : Prop :=
  ∀ i v, cache.Holds c (key i) v → store i = some v

variable {cache key} {store : I → Option V} {c : C}

theorem Coherent.get (h : cache.Coherent key store c) (k : K) :
    cache.Coherent key store (cache.get c k).2 :=
  fun i v hholds => h i v (cache.holds_of_get hholds)

theorem Coherent.hit (h : cache.Coherent key store c) {i : I} {v : V}
    (hget : (cache.get c (key i)).1 = some v) : store i = some v :=
  h i v (cache.holds_of_get_eq hget)

theorem Coherent.set (h : cache.Coherent key store c) (hkey : Function.Injective key) {i : I}
    {v : V} (hstore : store i = some v) : cache.Coherent key store (cache.set c (key i) v) := by
  intro j w hholds
  rcases cache.holds_of_set hholds with ⟨hsame, rfl⟩ | ⟨-, hold⟩
  · rw [hkey hsame]
    exact hstore
  · exact h j w hold

theorem Coherent.delete (h : cache.Coherent key store c) {store' : I → Option V} {i : I}
    (hframe : ∀ j, j ≠ i → store' j = store j) :
    cache.Coherent key store' (cache.delete c (key i)) := by
  intro j w hholds
  obtain ⟨hne, hold⟩ := cache.holds_of_delete hholds
  rw [hframe j fun heq => hne (congrArg key heq)]
  exact h j w hold

theorem Coherent.write (h : cache.Coherent key store c) (hkey : Function.Injective key)
    {store' : I → Option V} {i : I} {v : V} (hstore : store' i = some v)
    (hframe : ∀ j, j ≠ i → store' j = store j) :
    cache.Coherent key store' (cache.set c (key i) v) := by
  intro j w hholds
  rcases cache.holds_of_set hholds with ⟨hsame, rfl⟩ | ⟨hne, hold⟩
  · rw [hkey hsame]
    exact hstore
  · rw [hframe j fun heq => hne (congrArg key heq)]
    exact h j w hold

end Cache
end DddFramework.Library
