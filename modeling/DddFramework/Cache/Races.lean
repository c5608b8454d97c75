import DddFramework.Cache.CachedRepository
import DddFramework.Library.Machine

/-! Calls of a `CachedRepository` that interleave at their awaits, over one table and one cache
without a TTL. What a call fills the cache with may have been overtaken by a write; an entry
is stale for good if the invalidation of that write has come first. -/
namespace DddFramework.Cache
open Library

abbrev Rows (D : Type) := Uuid → Option (Entity D)

def table (D : Type) : Repository (Rows D) D where
  create rows entity :=
    if (rows entity.id).isSome then (none, rows)
    else (some entity, Function.update rows entity.id (some entity))
  read rows uid := rows uid
  update rows entity := (some (), Function.update rows entity.id (some entity))
  delete rows uid := (some (), Function.update rows uid none)
  exists_ rows uid := (rows uid).isSome
  read_create {r entity created} h := by
    by_cases hraised : (r entity.id).isSome = true
    · simp [hraised] at h
    · rw [if_neg hraised] at h ⊢
      cases h
      exact Function.update_self ..
  read_create_of_ne {r entity created uid} h hne := by
    by_cases hraised : (r entity.id).isSome = true
    · rw [if_pos hraised]
    · rw [if_neg hraised] at h ⊢
      cases h
      exact Function.update_of_ne hne ..
  read_create_of_none {r entity} h := by
    by_cases hraised : (r entity.id).isSome = true
    · rw [if_pos hraised]
    · rw [if_neg hraised] at h
      cases h
  read_update_of_ne hne := Function.update_of_ne hne ..
  read_update_of_none h := by cases h
  read_delete_of_ne hne := Function.update_of_ne hne ..
  read_delete_of_none h := by cases h

namespace Races

inductive Op (D : Type) where
  | create (entity : Entity D)
  | read (uid : Uuid)
  | update (entity : Entity D)
  | delete (uid : Uuid)

/-- Where a call is: what it awaits next, or how it has ended. -/
inductive Stage (D : Type) where
  | unstarted
  | missed (uid : Uuid)
  | filling (uid : Uuid) (entity : Entity D)
  | invalidating (uid : Uuid)
  | returned (entity : Option (Entity D))
  | raised
deriving DecidableEq

def Stage.ended {D : Type} : Stage D → Bool
  | .unstarted | .returned _ | .raised => true
  | _ => false

structure State (D : Type) where
  rows : Rows D
  cache : String → Option (Entity D)
  calls : Nat → Stage D

/-- A call makes its first awaited call, or its next one. -/
inductive Event (D : Type) where
  | begin (call : Nat) (op : Op D)
  | next (call : Nat)

variable {D : Type}

def Event.call : Event D → Nat
  | .begin call _ => call
  | .next call => call

namespace State

def setCall (s : State D) (call : Nat) (stage : Stage D) : State D :=
  { s with calls := Function.update s.calls call stage }

def setRow (s : State D) (uid : Uuid) (entity : Option (Entity D)) : State D :=
  { s with rows := Function.update s.rows uid entity }

def setEntry (s : State D) (key : String) (entity : Option (Entity D)) : State D :=
  { s with cache := Function.update s.cache key entity }

variable (s : State D) (call : Nat) (stage : Stage D) (key : String) (entity : Option (Entity D))

@[simp] theorem setCall_cache : (s.setCall call stage).cache = s.cache := rfl

theorem setCall_of_ne {other : Nat} (h : other ≠ call) :
    (s.setCall call stage).calls other = s.calls other :=
  Function.update_of_ne h ..

@[simp] theorem setEntry_self : (s.setEntry key entity).cache key = entity :=
  Function.update_self ..

theorem setEntry_of_ne {key other : String} (h : other ≠ key) :
    (s.setEntry key entity).cache other = s.cache other :=
  Function.update_of_ne h ..

end State

section calls
variable (keyPrefix : String)

def State.begin (s : State D) (call : Nat) : Op D → State D
  | .create entity =>
    if (s.rows entity.id).isSome then s.setCall call .raised
    else (s.setRow entity.id (some entity)).setCall call (.filling entity.id entity)
  | .read uid =>
    match s.cache (buildCacheKey keyPrefix uid) with
    | some entity => s.setCall call (.returned (some entity))
    | none => s.setCall call (.missed uid)
  | .update entity =>
    (s.setRow entity.id (some entity)).setCall call (.invalidating entity.id)
  | .delete uid => (s.setRow uid none).setCall call (.invalidating uid)

def State.next (s : State D) (call : Nat) : State D :=
  match s.calls call with
  | .missed uid =>
    match s.rows uid with
    | some entity => s.setCall call (.filling uid entity)
    | none => s.setCall call (.returned none)
  | .filling uid entity =>
    (s.setEntry (buildCacheKey keyPrefix uid) (some entity)).setCall call (.returned (some entity))
  | .invalidating uid =>
    (s.setEntry (buildCacheKey keyPrefix uid) none).setCall call (.returned none)
  | _ => s

def step (s : State D) : Event D → State D
  | .begin call op =>
    match s.calls call with
    | .unstarted => s.begin keyPrefix call op
    | _ => s
  | .next call => s.next keyPrefix call

def racing (rows : Rows D) : Machine (State D) (Event D) Empty where
  init := ⟨rows, fun _ => none, fun _ => .unstarted⟩
  step s event := (step keyPrefix s event, [])

abbrev raced (rows : Rows D) (events : List (Event D)) : State D :=
  (racing keyPrefix rows).after (racing keyPrefix rows).init events

def State.Settled (s : State D) : Prop := ∀ call, (s.calls call).ended = true

def State.Fresh (s : State D) : Prop :=
  ∀ uid, s.cache (buildCacheKey keyPrefix uid) = none ∨
    s.cache (buildCacheKey keyPrefix uid) = s.rows uid

/-- Whenever all calls have ended, no entry is stale. -/
def SettlesFresh (rows : Rows D) (events : List (Event D)) : Prop :=
  ∀ past rest, events = past ++ rest → (raced keyPrefix rows past).Settled →
    (raced keyPrefix rows past).Fresh keyPrefix

/-- A write of an id has been made whose invalidation is still to come. -/
def State.Invalidating (s : State D) (uid : Uuid) : Prop := ∃ call, s.calls call = .invalidating uid

/-- What a call fills the cache with is still current, or will be invalidated. -/
def NotOvertaken (s : State D) : Event D → Prop
  | .begin _ _ => True
  | .next call => ∀ uid entity, s.calls call = .filling uid entity →
    s.rows uid = some entity ∨ s.Invalidating uid

variable {keyPrefix : String} {s : State D} {call : Nat}

/-- An entry is current, or will be invalidated. -/
def Sound (keyPrefix : String) (s : State D) : Prop :=
  ∀ uid entity, s.cache (buildCacheKey keyPrefix uid) = some entity →
    s.rows uid = some entity ∨ s.Invalidating uid

theorem invalidating_setCall {uid : Uuid} (h : s.Invalidating uid)
    (hcall : s.calls call ≠ .invalidating uid) (stage : Stage D) :
    (s.setCall call stage).Invalidating uid := by
  obtain ⟨other, hother⟩ := h
  refine ⟨other, ?_⟩
  have hne : other ≠ call := by
    rintro rfl
    exact hcall hother
  exact (Function.update_of_ne hne _ _).trans hother

theorem Sound.setCall (h : Sound keyPrefix s) (hcall : ∀ uid, s.calls call ≠ .invalidating uid)
    (stage : Stage D) : Sound keyPrefix (s.setCall call stage) :=
  fun uid entity hentry => (h uid entity hentry).imp_right fun hpending =>
    invalidating_setCall hpending (hcall uid) stage

theorem Sound.write (h : Sound keyPrefix s) (hcall : ∀ uid, s.calls call ≠ .invalidating uid)
    (uid : Uuid) (entity : Option (Entity D)) :
    Sound keyPrefix ((s.setRow uid entity).setCall call (.invalidating uid)) := by
  intro other cached hentry
  by_cases hother : other = uid
  · exact .inr ⟨call, hother ▸ Function.update_self ..⟩
  · rcases h other cached hentry with hrow | hpending
    · exact .inl ((Function.update_of_ne hother _ _).trans hrow)
    · exact .inr (invalidating_setCall (s := s.setRow uid entity) hpending (hcall other) _)

theorem Sound.create (h : Sound keyPrefix s) (hcall : ∀ uid, s.calls call ≠ .invalidating uid)
    {entity : Entity D} (hnew : s.rows entity.id = none) (stage : Stage D) :
    Sound keyPrefix ((s.setRow entity.id (some entity)).setCall call stage) := by
  intro other cached hentry
  rcases h other cached hentry with hrow | hpending
  · have hother : other ≠ entity.id := by
      rintro rfl
      rw [hnew] at hrow
      cases hrow
    exact .inl ((Function.update_of_ne hother _ _).trans hrow)
  · exact .inr (invalidating_setCall (s := s.setRow entity.id (some entity)) hpending
      (hcall other) _)

theorem Sound.begin (h : Sound keyPrefix s) (hcall : s.calls call = .unstarted) (op : Op D) :
    Sound keyPrefix (s.begin keyPrefix call op) := by
  have hnot : ∀ uid, s.calls call ≠ .invalidating uid := by simp [hcall]
  cases op with
  | create entity =>
    simp only [State.begin]
    split
    case isTrue => exact h.setCall hnot _
    case isFalse hnew =>
      rw [Option.not_isSome_iff_eq_none] at hnew
      exact h.create hnot hnew _
  | read uid =>
    simp only [State.begin]
    split
    · exact h.setCall hnot _
    · exact h.setCall hnot _
  | update entity => exact h.write hnot _ _
  | delete uid => exact h.write hnot _ _

theorem Sound.fill (h : Sound keyPrefix s) (hcall : ∀ uid, s.calls call ≠ .invalidating uid)
    {uid : Uuid} {entity : Entity D}
    (hcurrent : s.rows uid = some entity ∨ s.Invalidating uid) (stage : Stage D) :
    Sound keyPrefix
      ((s.setEntry (buildCacheKey keyPrefix uid) (some entity)).setCall call stage) := by
  intro other cached hentry
  rw [State.setCall_cache] at hentry
  by_cases hother : other = uid
  · subst hother
    rw [State.setEntry_self] at hentry
    rw [← hentry]
    exact hcurrent.imp_right fun hpending =>
      invalidating_setCall (s := s.setEntry _ _) hpending (hcall other) _
  · rw [State.setEntry_of_ne _ _ (buildCacheKey_ne hother)] at hentry
    exact (h other cached hentry).imp_right fun hpending =>
      invalidating_setCall (s := s.setEntry _ _) hpending (hcall other) _

theorem Sound.invalidate (h : Sound keyPrefix s) {uid : Uuid}
    (hcall : s.calls call = .invalidating uid) (stage : Stage D) :
    Sound keyPrefix ((s.setEntry (buildCacheKey keyPrefix uid) none).setCall call stage) := by
  intro other cached hentry
  rw [State.setCall_cache] at hentry
  by_cases hother : other = uid
  · subst hother
    rw [State.setEntry_self] at hentry
    cases hentry
  · rw [State.setEntry_of_ne _ _ (buildCacheKey_ne hother)] at hentry
    have hnot : s.calls call ≠ .invalidating other := by
      rw [hcall]
      exact fun heq => hother (Stage.invalidating.inj heq).symm
    exact (h other cached hentry).imp_right fun hpending =>
      invalidating_setCall (s := s.setEntry _ _) hpending hnot _

theorem Sound.next (h : Sound keyPrefix s) (hcurrent : NotOvertaken s (.next call)) :
    Sound keyPrefix (s.next keyPrefix call) := by
  unfold State.next
  split
  case h_1 uid hstage =>
    have hnot : ∀ uid, s.calls call ≠ .invalidating uid := by simp [hstage]
    split
    · exact h.setCall hnot _
    · exact h.setCall hnot _
  case h_2 uid entity hstage =>
    have hnot : ∀ uid, s.calls call ≠ .invalidating uid := by simp [hstage]
    exact h.fill hnot (hcurrent uid entity hstage) _
  case h_3 uid hstage => exact h.invalidate hstage _
  case h_4 => exact h

theorem Sound.step (h : Sound keyPrefix s) (event : Event D) (hcurrent : NotOvertaken s event) :
    Sound keyPrefix (step keyPrefix s event) := by
  cases event with
  | begin call op =>
    simp only [Races.step]
    cases hcall : s.calls call with
    | unstarted => exact h.begin hcall op
    | _ => exact h
  | next call => exact h.next hcurrent

/-- In every run in which no fill is overtaken, no stale entry is left behind. -/
theorem settlesFresh_of_notOvertaken (keyPrefix : String) (rows : Rows D) (events : List (Event D))
    (h : (racing keyPrefix rows).Guarded (fun _ s event => NotOvertaken s event) events) :
    SettlesFresh keyPrefix rows events := by
  rintro past rest rfl hsettled uid
  have hsound : Sound keyPrefix (raced keyPrefix rows past) := by
    apply h.past.invariant (I := fun _ _ s => Sound keyPrefix s)
    · exact fun _ _ hentry => by cases hentry
    · exact fun _ _ s event hcurrent hsound => hsound.step event hcurrent
  cases hentry : (raced keyPrefix rows past).cache (buildCacheKey keyPrefix uid) with
  | none => exact .inl rfl
  | some entity =>
    rcases hsound uid entity hentry with hrow | ⟨call, hcall⟩
    · exact .inr hrow.symm
    · have hended := hsettled call
      rw [hcall] at hended
      cases hended

theorem step_of_ne {event : Event D} {other : Nat} (h : other ≠ event.call) :
    (step keyPrefix s event).calls other = s.calls other := by
  cases event with
  | begin call op =>
    simp only [Races.step]
    split
    case h_1 =>
      cases op with
      | create entity =>
        simp only [State.begin]
        split
        · exact s.setCall_of_ne _ _ h
        · exact (s.setRow _ _).setCall_of_ne _ _ h
      | read uid =>
        simp only [State.begin]
        split
        · exact s.setCall_of_ne _ _ h
        · exact s.setCall_of_ne _ _ h
      | update entity => exact (s.setRow _ _).setCall_of_ne _ _ h
      | delete uid => exact (s.setRow _ _).setCall_of_ne _ _ h
    case h_2 => rfl
  | next call =>
    simp only [Races.step, State.next]
    split
    · split
      · exact s.setCall_of_ne _ _ h
      · exact s.setCall_of_ne _ _ h
    · exact (s.setEntry _ _).setCall_of_ne _ _ h
    · exact (s.setEntry _ _).setCall_of_ne _ _ h
    · rfl

theorem settled_of_ended {rows : Rows D} {events : List (Event D)}
    (h : ∀ event ∈ events, ((raced keyPrefix rows events).calls event.call).ended = true) :
    (raced keyPrefix rows events).Settled := by
  intro call
  by_cases hnamed : ∃ event ∈ events, event.call = call
  · obtain ⟨event, hevent, rfl⟩ := hnamed
    exact h event hevent
  · have hframe : (raced keyPrefix rows events).calls call = .unstarted :=
      (racing keyPrefix rows).after_frame (fun s => s.calls call)
        fun event hevent s => step_of_ne fun heq => hnamed ⟨event, hevent, heq.symm⟩
    rw [hframe]
    rfl

def Op.alone (keyPrefix : String) (s : Rows D × (String → Option (Entity D))) :
    Op D → Rows D × (String → Option (Entity D))
  | .create entity => (CachedRepository.create (table D) (.plain _ _) keyPrefix s entity).2
  | .read uid => (CachedRepository.read (table D) (.plain _ _) keyPrefix s uid).2
  | .update entity => (CachedRepository.update (table D) (.plain _ _) keyPrefix s entity).2
  | .delete uid => (CachedRepository.delete (table D) (.plain _ _) keyPrefix s uid).2

/-- The steps of a call, one after the other, make up the call. -/
theorem after_alone (keyPrefix : String) (rows : Rows D) (s : State D) {call : Nat}
    (hcall : s.calls call = .unstarted) (op : Op D) :
    let last := (racing keyPrefix rows).after s [.begin call op, .next call, .next call]
    (last.rows, last.cache) = op.alone keyPrefix (s.rows, s.cache) := by
  simp only [Machine.after, racing, step, hcall]
  cases op with
  | create entity =>
    by_cases hraised : (s.rows entity.id).isSome = true
    · simp [State.begin, State.next, State.setCall, Op.alone, CachedRepository.create, table,
        hraised]
    · simp [State.begin, State.next, State.setCall, State.setRow, State.setEntry, Op.alone,
        CachedRepository.create, table, hraised, Cache.plain]
  | read uid =>
    cases hentry : s.cache (buildCacheKey keyPrefix uid) with
    | some entity =>
      simp [State.begin, State.next, State.setCall, Op.alone, CachedRepository.read, hentry,
        Cache.plain]
    | none =>
      cases hrow : s.rows uid with
      | some entity =>
        simp [State.begin, State.next, State.setCall, State.setEntry, Op.alone,
          CachedRepository.read, table, hentry, hrow, Cache.plain]
      | none =>
        simp [State.begin, State.next, State.setCall, Op.alone, CachedRepository.read, table,
          hentry, hrow, Cache.plain]
  | update entity =>
    simp [State.begin, State.next, State.setCall, State.setRow, State.setEntry, Op.alone,
      CachedRepository.update, table, Cache.plain]
  | delete uid =>
    simp [State.begin, State.next, State.setCall, State.setRow, State.setEntry, Op.alone,
      CachedRepository.delete, table, Cache.plain]

end calls

section witness

def registered : Rows Nat := fun uid => if uid = 1 then some ⟨1, 0⟩ else none

/-- A reader misses and reads the user; before it fills the cache, another call renames the
user, and invalidates. -/
def overtaken : List (Event Nat) :=
  [.begin 1 (.read 1), .next 1, .begin 2 (.update ⟨1, 7⟩), .next 2, .next 1]

/-- The old name stays in the cache. -/
theorem settlesFresh_fails : ¬SettlesFresh "identity:user" registered overtaken := by
  intro h
  have hsettled : (raced "identity:user" registered overtaken).Settled :=
    settled_of_ended (by decide +kernel)
  rcases h _ [] (List.append_nil _).symm hsettled 1 with habsent | hcurrent
  · revert habsent
    decide +kernel
  · revert hcurrent
    decide +kernel

def inTime : List (Event Nat) :=
  [.begin 1 (.read 1), .next 1, .begin 2 (.update ⟨1, 7⟩), .next 1, .next 2]

theorem settlesFresh_inTime : SettlesFresh "identity:user" registered inTime := by
  apply settlesFresh_of_notOvertaken
  intro past event rest hsplit
  have hmem : (raced "identity:user" registered past, event) ∈
      (racing "identity:user" registered).steps (racing "identity:user" registered).init inTime :=
    Machine.mem_steps_of_split _ hsplit
  simp only [inTime, Machine.steps, List.mem_cons, List.not_mem_nil, or_false, Prod.mk.injEq]
    at hmem
  change NotOvertaken (raced "identity:user" registered past) event
  rcases hmem with ⟨-, rfl⟩ | ⟨hstate, rfl⟩ | ⟨-, rfl⟩ | ⟨hstate, rfl⟩ | ⟨hstate, rfl⟩
  · trivial
  · rw [hstate]
    intro uid entity hstage
    cases hstage
  · trivial
  · rw [hstate]
    intro uid entity hstage
    cases hstage
    exact .inr ⟨2, by decide +kernel⟩
  · rw [hstate]
    intro uid entity hstage
    cases hstage

end witness
end Races
end DddFramework.Cache
