import DddFramework.Cache.CachedRepository
import DddFramework.Events.Dispatcher

/-! `Crud` over a `CachedRepository` of a transactional repository, one request at a time. A
write that is rolled back has only deleted from the cache, but a `create` has set its entity
there before the dispatcher commits or rolls back. -/
namespace DddFramework.Cache
open Library Events

structure Db (D : Type) where
  committed : Uuid → Option (Entity D)
  working : Uuid → Option (Entity D)

namespace Db
variable {D E : Type}

def set (db : Db D) (uid : Uuid) (entity : Option (Entity D)) : Db D :=
  { db with working := Function.update db.working uid entity }

def after (db : Db D) : Action E → Db D
  | .commit .returned => ⟨db.working, db.working⟩
  | .rollback .returned => ⟨db.committed, db.committed⟩
  | _ => db

theorem set_of_ne (db : Db D) {uid other : Uuid} (h : other ≠ uid) (entity : Option (Entity D)) :
    (db.set uid entity).working other = db.working other :=
  Function.update_of_ne h ..

end Db

/-- A repository in the open transaction; `fault` where its calls raise. Ids are unique. -/
def transactional (D : Type) (fault : Bool) : Repository (Db D) D where
  create db entity :=
    if fault || (db.working entity.id).isSome then (none, db)
    else (some entity, db.set entity.id (some entity))
  read db uid := db.working uid
  update db entity := if fault then (none, db) else (some (), db.set entity.id (some entity))
  delete db uid := if fault then (none, db) else (some (), db.set uid none)
  exists_ db uid := (db.working uid).isSome
  read_create {r entity created} h := by
    by_cases hraised : (fault || (r.working entity.id).isSome) = true
    · simp [hraised] at h
    · rw [if_neg hraised] at h ⊢
      cases h
      exact Function.update_self ..
  read_create_of_ne {r entity created uid} h hne := by
    by_cases hraised : (fault || (r.working entity.id).isSome) = true
    · rw [if_pos hraised]
    · rw [if_neg hraised] at h ⊢
      cases h
      exact r.set_of_ne hne _
  read_create_of_none {r entity} h := by
    by_cases hraised : (fault || (r.working entity.id).isSome) = true
    · rw [if_pos hraised]
    · rw [if_neg hraised] at h
      cases h
  read_update_of_ne {r entity uid} hne := by
    cases fault
    · exact r.set_of_ne hne _
    · rfl
  read_update_of_none {r entity} h := by
    cases fault
    · cases h
    · rfl
  read_delete_of_ne {r uid other} hne := by
    cases fault
    · exact r.set_of_ne hne _
    · rfl
  read_delete_of_none {r uid} h := by
    cases fault
    · cases h
    · rfl

/-- What one call of `_base_create`, `_base_update` or `_base_delete` meets: what the handler
returns, none where it raises, whether the repository raises, and for the dispatcher the
events of the entity, whether `record_all` or `commit` raises, and what the publisher does. -/
structure Base (D E : Type) where
  handled : Option (Entity D)
  fault : Bool := false
  collected : List (Collected E) := []
  recordAllRaises : Bool := false
  commitRaises : Bool := false
  publisher : Outcome := .returned

structure Crud where
  createHandler : Bool := true
  updateHandler : Bool := true
  deleteHandler : Bool := true
  eventStore : Bool := false

/-- A request. A wrapper calls its base any number of times; without one it is called once. -/
inductive Request (D E : Type) where
  | create (bases : List (Base D E))
  | read (uid : Uuid)
  | update (uid : Uuid) (bases : List (Base D E))
  | delete (uid : Uuid) (bases : List (Base D E))

variable {D E : Type}

def Base.outcomes (base : Base D E) : Outcomes where
  recordAll := if base.recordAllRaises then .raised else .returned
  commit := if base.commitRaises then .raised else .returned
  publisher := base.publisher

abbrev Stores (D : Type) := Db D × (String → Option (Entity D))

namespace Crud
variable (crud : Crud) (keyPrefix : String)

def dispatcher (base : Base D E) (db : Db D) : Db D :=
  (dispatch base.outcomes crud.eventStore base.collected).foldl Db.after db

def baseCreate (s : Stores D) (base : Base D E) : Stores D :=
  match base.handled with
  | none => s
  | some entity =>
    match CachedRepository.create (transactional D base.fault) (.plain _ _) keyPrefix s entity with
    | (some _, s) => (crud.dispatcher base s.1, s.2)
    | (none, s) => s

/-- `_base_update`, and `_base_delete`, which does the same. -/
def baseUpdate (s : Stores D) (base : Base D E) : Stores D :=
  match base.handled with
  | none => s
  | some entity =>
    match CachedRepository.update (transactional D base.fault) (.plain _ _) keyPrefix s entity with
    | (some _, s) => (crud.dispatcher base s.1, s.2)
    | (none, s) => s

def getOrRaiseNotFound (s : Stores D) (uid : Uuid) : Option (Entity D) × Stores D :=
  CachedRepository.read (transactional D false) (.plain _ _) keyPrefix s uid

def create (s : Stores D) (bases : List (Base D E)) : Stores D :=
  if crud.createHandler then bases.foldl (crud.baseCreate keyPrefix) s else s

def read (s : Stores D) (uid : Uuid) : Stores D := (getOrRaiseNotFound keyPrefix s uid).2

def write (handler : Bool) (s : Stores D) (uid : Uuid) (bases : List (Base D E)) : Stores D :=
  if handler then
    match getOrRaiseNotFound keyPrefix s uid with
    | (some _, s) => bases.foldl (crud.baseUpdate keyPrefix) s
    | (none, s) => s
  else s

def update (s : Stores D) (uid : Uuid) (bases : List (Base D E)) : Stores D :=
  crud.write keyPrefix crud.updateHandler s uid bases

def delete (s : Stores D) (uid : Uuid) (bases : List (Base D E)) : Stores D :=
  crud.write keyPrefix crud.deleteHandler s uid bases

def step (s : Stores D) : Request D E → Stores D
  | .create bases => crud.create keyPrefix s bases
  | .read uid => read keyPrefix s uid
  | .update uid bases => crud.update keyPrefix s uid bases
  | .delete uid bases => crud.delete keyPrefix s uid bases

def machine (rows : Uuid → Option (Entity D)) : Machine (Stores D) (Request D E) Empty where
  init := (⟨rows, rows⟩, fun _ => none)
  step s request := (crud.step keyPrefix s request, [])

end Crud

def Faithful (keyPrefix : String) (s : Stores D) : Prop :=
  ∀ uid, (CachedRepository.read (transactional D false) (.plain _ _) keyPrefix s uid).1 =
    (transactional D false).read s.1 uid

def Crud.after (crud : Crud) (keyPrefix : String) (rows : Uuid → Option (Entity D))
    (requests : List (Request D E)) : Stores D :=
  (crud.machine keyPrefix rows).after (crud.machine (E := E) keyPrefix rows).init requests

/-- After every call of a run the cache is faithful. -/
def NeverOutlives (crud : Crud) (keyPrefix : String) (rows : Uuid → Option (Entity D))
    (requests : List (Request D E)) : Prop :=
  ∀ past rest, requests = past ++ rest → Faithful keyPrefix (crud.after keyPrefix rows past)

def Base.Commits (crud : Crud) (base : Base D E) : Prop :=
  base.commitRaises = false ∧
    (crud.eventStore = true → base.collected ≠ [] → base.recordAllRaises = false)

/-- What `create` has set in the cache is committed: where the handler returns an entity of a
new id and the repository does not raise, neither does the dispatcher. -/
def Base.CommitsCreated (crud : Crud) (s : Stores D) (base : Base D E) : Prop :=
  ∀ entity, base.handled = some entity → base.fault = false → s.1.working entity.id = none →
    base.Commits crud

def CommitsAllCreated (crud : Crud) (keyPrefix : String) (s : Stores D) :
    List (Base D E) → Prop
  | [] => True
  | base :: bases =>
    base.CommitsCreated crud s ∧
      CommitsAllCreated crud keyPrefix (crud.baseCreate keyPrefix s base) bases

def Request.CommitsCreated (crud : Crud) (keyPrefix : String) (s : Stores D) :
    Request D E → Prop
  | .create bases => crud.createHandler = true → CommitsAllCreated crud keyPrefix s bases
  | _ => True

/-- Between the calls no transaction is open, and the cache is coherent. -/
structure Quiet (keyPrefix : String) (s : Stores D) : Prop where
  closed : s.1.working = s.1.committed
  coherent : (Cache.plain _ _).Coherent (buildCacheKey keyPrefix) s.1.working s.2

section requests
variable {crud : Crud} {keyPrefix : String} {s : Stores D} {base : Base D E}

theorem shares (db : Db D) (fault : Bool) :
    CachedRepository.Shares (transactional D fault) keyPrefix (buildCacheKey keyPrefix) id
      db.working db where
  key_inj _ _ h := (buildCacheKey_inj.mp h).2
  key_place _ := rfl
  reads _ := rfl

theorem others (store store' : Uuid → Option (Entity D)) :
    CachedRepository.Others id store store' :=
  fun uid hnone => absurd rfl (hnone uid)

theorem Quiet.faithful (h : Quiet keyPrefix s) : Faithful keyPrefix s :=
  CachedRepository.read_eq (shares s.1 false) h.coherent

theorem Quiet.read (h : Quiet keyPrefix s) (uid : Uuid) :
    Quiet keyPrefix (Crud.getOrRaiseNotFound keyPrefix s uid).2 where
  closed := by
    rw [Crud.getOrRaiseNotFound, CachedRepository.read_repo]
    exact h.closed
  coherent := by
    rw [Crud.getOrRaiseNotFound, CachedRepository.read_repo]
    exact CachedRepository.coherent_read (shares s.1 false) h.coherent uid

theorem dispatcher_eq (db : Db D) :
    (base.Commits crud → crud.dispatcher base db = ⟨db.working, db.working⟩) ∧
      (¬base.Commits crud → crud.dispatcher base db = ⟨db.committed, db.committed⟩) := by
  obtain ⟨handled, fault, collected, recordAllRaises, commitRaises, publisher⟩ := base
  obtain ⟨_, _, _, eventStore⟩ := crud
  cases eventStore <;> cases recordAllRaises <;> cases commitRaises <;> cases collected <;>
    simp [Base.Commits, Crud.dispatcher, dispatch, commit, attempt, publish, rollback,
      Base.outcomes, Db.after]

theorem Quiet.baseUpdate (h : Quiet keyPrefix s) (base : Base D E) :
    Quiet keyPrefix (crud.baseUpdate keyPrefix s base) := by
  unfold Crud.baseUpdate
  cases base.handled with
  | none => exact h
  | some entity =>
    cases hfault : base.fault with
    | true => exact h
    | false =>
      have hset : (s.1.set entity.id (some entity)).committed = s.1.committed := rfl
      by_cases hcommits : base.Commits crud
      · have hcoherent := CachedRepository.coherent_update (shares s.1 false)
          h.coherent entity (shares (s.1.set entity.id (some entity)) false) (others _ _)
        change Quiet keyPrefix (crud.dispatcher base (s.1.set entity.id (some entity)), _)
        rw [(dispatcher_eq _).1 hcommits]
        exact ⟨rfl, hcoherent⟩
      · change Quiet keyPrefix (crud.dispatcher base (s.1.set entity.id (some entity)), _)
        rw [(dispatcher_eq _).2 hcommits, hset, ← h.closed]
        exact ⟨rfl, h.coherent.delete fun _ _ => rfl⟩

theorem Quiet.baseCreate (h : Quiet keyPrefix s) (hcommits : base.CommitsCreated crud s) :
    Quiet keyPrefix (crud.baseCreate keyPrefix s base) := by
  unfold Crud.baseCreate
  cases hhandled : base.handled with
  | none => exact h
  | some entity =>
    by_cases hraised : (base.fault || (s.1.working entity.id).isSome) = true
    · have hcreate : CachedRepository.create (transactional D base.fault) (.plain _ _) keyPrefix s
          entity = (none, s) := by
        simp only [CachedRepository.create, transactional, if_pos hraised]
      simp only [hcreate]
      exact h
    · have hcreate : CachedRepository.create (transactional D base.fault) (.plain _ _) keyPrefix s
          entity = (some entity, (s.1.set entity.id (some entity),
            (Cache.plain _ _).set s.2 (buildCacheKey keyPrefix entity.id) entity)) := by
        simp only [CachedRepository.create, transactional, if_neg hraised]
      have hcoherent := CachedRepository.coherent_create
        (shares s.1 base.fault) h.coherent entity
        (shares (CachedRepository.create (transactional D base.fault) (.plain _ _) keyPrefix s
          entity).2.1 base.fault) (others _ _)
      rw [hcreate] at hcoherent
      simp only [Bool.or_eq_true, not_or, Bool.not_eq_true, Option.isSome_eq_false_iff,
        Option.isNone_iff_eq_none] at hraised
      simp only [hcreate]
      rw [(dispatcher_eq _).1 (hcommits entity hhandled hraised.1 hraised.2)]
      exact ⟨rfl, hcoherent⟩

theorem Quiet.creates (h : Quiet keyPrefix s) {bases : List (Base D E)}
    (hcommits : CommitsAllCreated crud keyPrefix s bases) :
    Quiet keyPrefix (bases.foldl (crud.baseCreate keyPrefix) s) := by
  induction bases generalizing s with
  | nil => exact h
  | cons base bases ih => exact ih (h.baseCreate hcommits.1) hcommits.2

theorem Quiet.writes (h : Quiet keyPrefix s) (bases : List (Base D E)) :
    Quiet keyPrefix (bases.foldl (crud.baseUpdate keyPrefix) s) := by
  induction bases generalizing s with
  | nil => exact h
  | cons base bases ih => exact ih (h.baseUpdate base)

theorem Quiet.write (h : Quiet keyPrefix s) (handler : Bool) (uid : Uuid)
    (bases : List (Base D E)) : Quiet keyPrefix (crud.write keyPrefix handler s uid bases) := by
  have hread := h.read uid
  unfold Crud.write
  split
  case isTrue =>
    split
    case h_1 entity s' heq =>
      rw [heq] at hread
      exact hread.writes bases
    case h_2 s' heq =>
      rw [heq] at hread
      exact hread
  case isFalse => exact h

theorem Quiet.step (h : Quiet keyPrefix s) (request : Request D E)
    (hcommits : request.CommitsCreated crud keyPrefix s) :
    Quiet keyPrefix (crud.step keyPrefix s request) := by
  cases request with
  | create bases =>
    simp only [Crud.step, Crud.create]
    split
    case isTrue hhandler => exact h.creates (hcommits hhandler)
    case isFalse => exact h
  | read uid => exact h.read uid
  | update uid bases => exact h.write _ uid bases
  | delete uid bases => exact h.write _ uid bases

/-- In every run whose creates are all committed, the cache is faithful after every call. -/
theorem neverOutlives_of_commits (crud : Crud) (keyPrefix : String)
    (rows : Uuid → Option (Entity D)) (requests : List (Request D E))
    (h : (crud.machine keyPrefix rows).Guarded
      (fun _ s request => request.CommitsCreated crud keyPrefix s) requests) :
    NeverOutlives crud keyPrefix rows requests := by
  rintro past rest rfl
  apply Quiet.faithful
  apply h.past.invariant (I := fun _ _ s => Quiet keyPrefix s)
  · exact ⟨rfl, fun _ _ hholds => by cases hholds⟩
  · exact fun _ _ s request hcommits hquiet => hquiet.step request hcommits

end requests

section witness

def renamed : List (Request Nat Nat) :=
  [.create [{ handled := some ⟨1, 0⟩, collected := [(⟨0, 0⟩, 0)] }], .read 1,
    .update 1 [{ handled := some ⟨1, 7⟩, collected := [(⟨1, 1⟩, 0)], recordAllRaises := true }],
    .read 1, .delete 1 [{ handled := some ⟨1, 8⟩ }]]

theorem neverOutlives_renamed :
    NeverOutlives { eventStore := true } "identity:user" (fun _ => none) renamed := by
  apply neverOutlives_of_commits
  intro past request rest hsplit
  have hmem : request ∈ renamed := by simp [hsplit]
  cases request with
  | create bases =>
    have hbases : bases = [{ handled := some ⟨1, 0⟩, collected := [(⟨0, 0⟩, 0)] }] := by
      simpa [renamed] using hmem
    rw [hbases]
    exact fun _ => ⟨fun _ _ _ _ => ⟨rfl, fun _ _ => rfl⟩, trivial⟩
  | _ => trivial

/-- The commit of a `create` fails: the cache goes on serving the user. -/
theorem neverOutlives_fails : ¬NeverOutlives (D := Nat) (E := Nat) {} "identity:user"
    (fun _ => none) [.create [{ handled := some ⟨1, 0⟩, commitRaises := true }]] := by
  intro h
  have hread := h _ [] (List.append_nil _).symm 1
  revert hread
  decide +kernel

end witness
end DddFramework.Cache
