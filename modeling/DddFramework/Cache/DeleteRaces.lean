import DddFramework.Cache.MultiLevel

/-! `get` calls of a `MultiLevelCache` that interleave with a `delete` of their key at the awaits,
each call of a level being one step. A `get` may fill a level from which the `delete` has just
removed the key. -/
namespace DddFramework.Cache.DeleteRaces
open Library

/-- Where a `get` is: the level it looks at next, or the levels it has still to fill. -/
inductive Stage (V : Type) where
  | unstarted
  | looking (level : Nat)
  | filling (value : V) (missed : List Nat)
  | returned (value : Option V)
deriving DecidableEq

def Stage.ended {V : Type} : Stage V → Bool
  | .unstarted | .returned _ => true
  | _ => false

/-- What the levels hold under the key, where each `get` is, and which levels the `delete` has
still to reach, once it has begun. -/
structure State (V : Type) where
  levels : Nat → Option V
  calls : Nat → Stage V
  delete : Option (List Nat)

/-- A step of a `get` or of the `delete`; besides, a level may forget the key, or be given it by
a `set` from before the `delete`. -/
inductive Event (V : Type) where
  | begin (call : Nat)
  | look (call : Nat)
  | fill (call level : Nat)
  | delete
  | remove (level : Nat)
  | lose (level : Nat)
  | store (level : Nat) (value : V)

variable {V : Type}

def Event.call : Event V → Option Nat
  | .begin call | .look call | .fill call _ => some call
  | .delete | .remove _ | .lose _ | .store _ _ => none

namespace State

def setCall (s : State V) (call : Nat) (stage : Stage V) : State V :=
  { s with calls := Function.update s.calls call stage }

def setLevel (s : State V) (level : Nat) (value : Option V) : State V :=
  { s with levels := Function.update s.levels level value }

variable (s : State V) (call level : Nat) (stage : Stage V) (value : Option V)

@[simp] theorem setCall_levels : (s.setCall call stage).levels = s.levels := rfl

@[simp] theorem setLevel_delete : (s.setLevel level value).delete = s.delete := rfl

@[simp] theorem setCall_self : (s.setCall call stage).calls call = stage :=
  Function.update_self ..

theorem setCall_of_ne {other : Nat} (h : other ≠ call) :
    (s.setCall call stage).calls other = s.calls other :=
  Function.update_of_ne h ..

theorem setLevel_apply (other : Nat) :
    (s.setLevel level value).levels other = if other = level then value else s.levels other :=
  Function.update_apply ..

end State

section steps
variable (count : Nat)

def look (s : State V) (call : Nat) : State V :=
  match s.calls call with
  | .looking level =>
    if level < count then
      match s.levels level with
      | some value =>
        if level = 0 then s.setCall call (.returned (some value))
        else s.setCall call (.filling value (List.range level))
      | none => s.setCall call (.looking (level + 1))
    else s.setCall call (.returned none)
  | _ => s

/-- One `set` of the `asyncio.gather` that fills the missed caches, in whatever order. -/
def fill (s : State V) (call level : Nat) : State V :=
  match s.calls call with
  | .filling value missed =>
    if level ∈ missed then
      (s.setLevel level (some value)).setCall call
        (if missed.erase level = [] then .returned (some value)
          else .filling value (missed.erase level))
    else s
  | _ => s

def step (s : State V) : Event V → State V
  | .begin call =>
    match s.calls call with
    | .unstarted => s.setCall call (.looking 0)
    | _ => s
  | .look call => look count s call
  | .fill call level => fill s call level
  | .delete =>
    match s.delete with
    | none => { s with delete := some (List.range count) }
    | some _ => s
  | .remove level =>
    match s.delete with
    | some pending =>
      if level ∈ pending then { s.setLevel level none with delete := some (pending.erase level) }
      else s
    | none => s
  | .lose level => s.setLevel level none
  | .store level value => if s.delete = none then s.setLevel level (some value) else s

def racing (levels : Nat → Option V) : Machine (State V) (Event V) Empty where
  init := ⟨levels, fun _ => .unstarted, none⟩
  step s event := (step count s event, [])

abbrev raced (levels : Nat → Option V) (events : List (Event V)) : State V :=
  (racing count levels).after (racing count levels).init events

def State.Settled (s : State V) : Prop :=
  (∀ call, (s.calls call).ended = true) ∧ s.delete = some []

/-- Once the `delete` and every `get` have finished, a `get` that begins later returns None. -/
def StaysDeleted (levels : Nat → Option V) (events : List (Event V)) : Prop :=
  ∀ past rest, events = past ++ rest → (raced count levels past).Settled →
    ∀ call, (raced count levels past).calls call = .unstarted →
      ∀ value, (raced count levels events).calls call = .returned value → value = none

/-- What a `get` fills, the `delete` has not reached yet. -/
def NotOvertaken (s : State V) : Event V → Prop
  | .fill call level => ∀ value missed, s.calls call = .filling value missed → level ∈ missed →
      ∀ pending, s.delete = some pending → level ∈ pending
  | _ => True

variable {count} {s : State V}

/-- The levels that have the key are still to be reached. -/
def Sound (count : Nat) (s : State V) : Prop :=
  ∀ pending, s.delete = some pending → ∀ level < count, level ∉ pending → s.levels level = none

theorem look_frame (call : Nat) :
    (look count s call).levels = s.levels ∧ (look count s call).delete = s.delete := by
  unfold look
  split
  · split
    · split
      · split <;> exact ⟨rfl, rfl⟩
      · exact ⟨rfl, rfl⟩
    · exact ⟨rfl, rfl⟩
  · exact ⟨rfl, rfl⟩

theorem Sound.setLevel_none (h : Sound count s) (target : Nat) :
    Sound count (s.setLevel target none) := by
  intro pending hpending level hlevel hreached
  rw [State.setLevel_apply]
  split
  · rfl
  · exact h pending hpending level hlevel hreached

theorem Sound.fill (h : Sound count s) {call level : Nat}
    (hordered : NotOvertaken s (.fill call level)) : Sound count (fill s call level) := by
  unfold DeleteRaces.fill
  split
  case h_1 value missed hstage =>
    split
    case isTrue hmissed =>
      intro pending hpending other hother hreached
      have hne : other ≠ level := by
        rintro rfl
        exact hreached (hordered value missed hstage hmissed pending hpending)
      rw [State.setCall_levels, State.setLevel_apply, if_neg hne]
      exact h pending hpending other hother hreached
    case isFalse => exact h
  case h_2 => exact h

theorem Sound.step (h : Sound count s) {event : Event V} (hordered : NotOvertaken s event) :
    Sound count (step count s event) := by
  cases event with
  | begin call =>
    simp only [DeleteRaces.step]
    split
    · exact h
    · exact h
  | look call =>
    obtain ⟨hlevels, hdelete⟩ := @look_frame V count s call
    intro pending hpending level hlevel hreached
    exact (congrFun hlevels level).trans
      (h pending (hdelete.symm.trans hpending) level hlevel hreached)
  | fill call level => exact h.fill hordered
  | delete =>
    simp only [DeleteRaces.step]
    split
    · intro pending hpending level hlevel hreached
      cases hpending
      exact absurd (List.mem_range.mpr hlevel) hreached
    · exact h
  | remove target =>
    simp only [DeleteRaces.step]
    split
    case h_1 pending hdelete =>
      split
      case isTrue =>
        rintro _ ⟨⟩ level hlevel hreached
        by_cases htarget : level = target
        · exact (State.setLevel_apply ..).trans (if_pos htarget)
        · apply h.setLevel_none target pending hdelete level hlevel
          exact fun hmem => hreached ((List.mem_erase_of_ne htarget).mpr hmem)
      case isFalse => exact h
    case h_2 => exact h
  | lose level => exact h.setLevel_none level
  | store target value =>
    simp only [DeleteRaces.step]
    split
    case isTrue hbefore =>
      intro pending hpending
      rw [State.setLevel_delete, hbefore] at hpending
      cases hpending
    case isFalse => exact h

structure Cleared (count : Nat) (later : Nat → Prop) (s : State V) : Prop where
  deleted : s.delete = some []
  empty : ∀ level < count, s.levels level = none
  unfilling : ∀ call value missed, s.calls call ≠ .filling value missed
  nothing : ∀ call value, later call → s.calls call = .returned value → value = none

variable {later : Nat → Prop}

theorem Cleared.setCall (h : Cleared count later s) {call : Nat} {stage : Stage V}
    (hunfilling : ∀ value missed, stage ≠ .filling value missed)
    (hnothing : ∀ value, stage = .returned value → value = none) :
    Cleared count later (s.setCall call stage) := by
  refine ⟨h.deleted, h.empty, fun other => ?_, fun other => ?_⟩
  · by_cases hother : other = call
    · rw [hother, State.setCall_self]
      exact hunfilling
    · rw [State.setCall_of_ne _ _ _ hother]
      exact h.unfilling other
  · by_cases hother : other = call
    · rw [hother, State.setCall_self]
      exact fun value _ => hnothing value
    · rw [State.setCall_of_ne _ _ _ hother]
      exact h.nothing other

theorem Cleared.look (h : Cleared count later s) (call : Nat) :
    Cleared count later (look count s call) := by
  unfold DeleteRaces.look
  split
  case h_1 level hstage =>
    split
    case isTrue hlevel =>
      rw [h.empty level hlevel]
      exact h.setCall (by simp) (by simp)
    case isFalse => exact h.setCall (by simp) (by simp)
  case h_2 => exact h

theorem Cleared.step (h : Cleared count later s) (event : Event V) :
    Cleared count later (step count s event) := by
  cases event with
  | begin call =>
    simp only [DeleteRaces.step]
    split
    · exact h.setCall (by simp) (by simp)
    · exact h
  | look call => exact h.look call
  | fill call level =>
    simp only [DeleteRaces.step, DeleteRaces.fill]
    split
    case h_1 value missed hstage => exact absurd hstage (h.unfilling call value missed)
    case h_2 => exact h
  | delete =>
    simp only [DeleteRaces.step, h.deleted]
    exact h
  | remove level =>
    simp only [DeleteRaces.step, h.deleted, List.not_mem_nil, if_false]
    exact h
  | lose target =>
    refine ⟨h.deleted, fun level hlevel => ?_, h.unfilling, h.nothing⟩
    refine (State.setLevel_apply ..).trans ?_
    split
    · rfl
    · exact h.empty level hlevel
  | store level value =>
    simp only [DeleteRaces.step, h.deleted, reduceCtorEq, if_false]
    exact h

theorem Sound.cleared (h : Sound count s) (hsettled : s.Settled) :
    Cleared count (fun call => s.calls call = .unstarted) s := by
  refine ⟨hsettled.2, fun level hlevel => h [] hsettled.2 level hlevel List.not_mem_nil, ?_, ?_⟩
  · intro call value missed hstage
    have hended := hsettled.1 call
    rw [hstage] at hended
    cases hended
  · intro call value hunstarted hstage
    rw [hunstarted] at hstage
    cases hstage

/-- In every run in which no fill is overtaken, a completed `delete` stays deleted. -/
theorem staysDeleted_of_notOvertaken (count : Nat) (levels : Nat → Option V)
    (events : List (Event V))
    (h : (racing count levels).Guarded (fun _ s event => NotOvertaken s event) events) :
    StaysDeleted count levels events := by
  rintro past rest rfl hsettled call hunstarted value hstage
  have hsound : Sound count (raced count levels past) := by
    apply h.past.invariant (I := fun _ _ s => Sound count s)
    · exact fun _ hpending => by cases hpending
    · exact fun _ _ s event hordered hsound => hsound.step hordered
  have hcleared : ∀ events s, Cleared count (fun call =>
      (raced count levels past).calls call = .unstarted) s →
      Cleared count (fun call => (raced count levels past).calls call = .unstarted)
        ((racing count levels).after s events) := by
    intro events
    induction events with
    | nil => exact fun _ hs => hs
    | cons event events ih => exact fun s hs => ih _ (hs.step event)
  rw [raced, Machine.after_append] at hstage
  exact (hcleared rest _ (hsound.cleared hsettled)).nothing call value hunstarted hstage

theorem step_of_ne {event : Event V} {call : Nat} (h : event.call ≠ some call) :
    (step count s event).calls call = s.calls call := by
  cases event with
  | begin other =>
    have hne : call ≠ other := fun heq => h (congrArg some heq.symm)
    simp only [DeleteRaces.step]
    split
    · exact s.setCall_of_ne _ _ hne
    · rfl
  | look other =>
    have hne : call ≠ other := fun heq => h (congrArg some heq.symm)
    simp only [DeleteRaces.step, DeleteRaces.look]
    split
    · split
      · split
        · split <;> exact s.setCall_of_ne _ _ hne
        · exact s.setCall_of_ne _ _ hne
      · exact s.setCall_of_ne _ _ hne
    · rfl
  | fill other level =>
    have hne : call ≠ other := fun heq => h (congrArg some heq.symm)
    simp only [DeleteRaces.step, DeleteRaces.fill]
    split
    · split
      · exact (s.setLevel _ _).setCall_of_ne _ _ hne
      · rfl
    · rfl
  | delete =>
    simp only [DeleteRaces.step]
    split <;> rfl
  | remove level =>
    simp only [DeleteRaces.step]
    split
    · split <;> rfl
    · rfl
  | lose level => rfl
  | store level value =>
    simp only [DeleteRaces.step]
    split <;> rfl

theorem settled_of_ended {levels : Nat → Option V} {events : List (Event V)}
    (hcalls : ∀ event ∈ events, ∀ call ∈ event.call,
      ((raced count levels events).calls call).ended = true)
    (hdelete : (raced count levels events).delete = some []) :
    (raced count levels events).Settled := by
  refine ⟨fun call => ?_, hdelete⟩
  by_cases hnamed : ∃ event ∈ events, event.call = some call
  · obtain ⟨event, hevent, hcall⟩ := hnamed
    exact hcalls event hevent call hcall
  · have hframe : (raced count levels events).calls call = .unstarted :=
      (racing count levels).after_frame (fun s => s.calls call)
        fun event hevent s => step_of_ne fun hcall => hnamed ⟨event, hevent, hcall⟩
    rw [hframe]
    rfl

section alone

abbrev noDrops : Drops := fun _ _ _ => false

theorem gather_apply (key : String) (value : Option V) (targets : List Nat) (c : Levels V)
    (level : Nat) :
    (c.gather noDrops key value targets).levels level key =
      if level ∈ targets then value else c.levels level key := by
  induction targets generalizing c with
  | nil => rfl
  | cons target targets ih =>
    have hwrite : (c.write noDrops key value target).levels level key =
        if level = target then value else c.levels level key := by
      simp only [Levels.write, Levels.forget, Bool.false_eq_true, if_false, Function.update_apply]
      split
      case isTrue => exact Function.update_self ..
      case isFalse => rfl
    refine (ih _).trans ?_
    rw [hwrite]
    by_cases htarget : level = target <;> simp [htarget]

variable {call : Nat} {key : String} {c : Levels V}

theorem after_fills (levels : Nat → Option V) {value : V} {missed : List Nat}
    (hstage : s.calls call = .filling value missed) (hmissed : missed ≠ []) :
    ((racing count levels).after s (missed.map (.fill call))).calls call = .returned (some value) ∧
      ∀ level, ((racing count levels).after s (missed.map (.fill call))).levels level =
        if level ∈ missed then some value else s.levels level := by
  induction missed generalizing s with
  | nil => exact absurd rfl hmissed
  | cons first missed ih =>
    have hfill : fill s call first = (s.setLevel first (some value)).setCall call
        (if missed = [] then .returned (some value) else .filling value missed) := by
      simp [DeleteRaces.fill, hstage]
    have hlevel : ∀ level, (fill s call first).levels level =
        if level = first then some value else s.levels level := by
      intro level
      rw [hfill, State.setCall_levels, State.setLevel_apply]
    change ((racing count levels).after (fill s call first) _).calls call = _ ∧
      ∀ level, ((racing count levels).after (fill s call first) _).levels level = _
    by_cases hlast : missed = []
    · subst hlast
      refine ⟨by simp [hfill], fun level => (hlevel level).trans ?_⟩
      simp
    · have hnext : (fill s call first).calls call = .filling value missed := by
        simp [hfill, hlast]
      obtain ⟨hreturned, hlevels⟩ := ih hnext hlast
      refine ⟨hreturned, fun level => ?_⟩
      rw [hlevels level, hlevel level]
      by_cases hfirst : level = first <;> simp [hfirst]

theorem search_miss {missed rest : List Nat} {level : Nat} (h : c.levels level key = none) :
    c.search noDrops key missed (level :: rest) =
      (c.forget noDrops).search noDrops key (missed ++ [level]) rest := by
  have hmiss : (c.forget noDrops).levels level key = none := h
  rw [Levels.search, Levels.look, hmiss]

theorem search_hit {missed rest : List Nat} {level : Nat} {value : V}
    (h : c.levels level key = some value) :
    c.search noDrops key missed (level :: rest) =
      (some value, (c.forget noDrops).gather noDrops key (some value) missed) := by
  have hhit : (c.forget noDrops).levels level key = some value := h
  rw [Levels.search, Levels.look, hhit]

theorem hit_alone (levels : Nat → Option V) {level : Nat} {value : V} (hlevel : level < count)
    (hstage : s.calls call = .looking level) (hentry : s.levels level = some value) :
    ∃ events, (∀ event ∈ events, event.call = some call) ∧
      ((racing count levels).after s events).calls call = .returned (some value) ∧
      ∀ other, ((racing count levels).after s events).levels other =
        if other ∈ List.range level then some value else s.levels other := by
  by_cases hfirst : level = 0
  · have hlook : look count s call = s.setCall call (.returned (some value)) := by
      subst hfirst
      simp [DeleteRaces.look, hstage, hlevel, hentry]
    refine ⟨[.look call], by simp [Event.call], ?_, fun other => ?_⟩
    · change (look count s call).calls call = _
      rw [hlook, State.setCall_self]
    · change (look count s call).levels other = _
      rw [hlook, State.setCall_levels]
      simp [hfirst]
  · have hlook : look count s call = s.setCall call (.filling value (List.range level)) := by
      simp [DeleteRaces.look, hstage, hlevel, hentry, hfirst]
    obtain ⟨hreturned, hlevels⟩ := @after_fills V count (look count s call) call levels value
      (List.range level) (by rw [hlook, State.setCall_self]) (by simpa using hfirst)
    refine ⟨.look call :: (List.range level).map (.fill call), by simp [Event.call], hreturned,
      fun other => (hlevels other).trans ?_⟩
    rw [hlook, State.setCall_levels]

theorem search_alone (levels : Nat → Option V) (n : Nat) {level : Nat}
    (hcount : level + n = count) (hstage : s.calls call = .looking level)
    (hsame : ∀ other, c.levels other key = s.levels other) :
    ∃ events, (∀ event ∈ events, event.call = some call) ∧
      ((racing count levels).after s events).calls call = .returned
        (c.search noDrops key (List.range level) (List.range' level n)).1 ∧
      ∀ other, (c.search noDrops key (List.range level) (List.range' level n)).2.levels other key =
        ((racing count levels).after s events).levels other := by
  induction n generalizing level s c with
  | zero =>
    have hlook : look count s call = s.setCall call (.returned none) := by
      have hend : ¬level < count := by omega
      simp [DeleteRaces.look, hstage, hend]
    refine ⟨[.look call], by simp [Event.call], ?_, ?_⟩
    · change (look count s call).calls call = _
      rw [hlook, State.setCall_self]
      rfl
    · intro other
      change c.levels other key = (look count s call).levels other
      rw [hlook, State.setCall_levels]
      exact hsame other
  | succ n ih =>
    have hlevel : level < count := by omega
    rw [List.range'_succ]
    cases hentry : s.levels level with
    | none =>
      have hlook : look count s call = s.setCall call (.looking (level + 1)) := by
        simp [DeleteRaces.look, hstage, hlevel, hentry]
      obtain ⟨events, hcalls, hreturned, hlevels⟩ := @ih (look count s call) (c.forget noDrops)
        (level + 1) (by omega) (by rw [hlook, State.setCall_self])
        fun other => by rw [hlook, State.setCall_levels]; exact hsame other
      rw [search_miss ((hsame level).trans hentry), ← List.range_succ]
      exact ⟨.look call :: events, List.forall_mem_cons.mpr ⟨rfl, hcalls⟩, hreturned, hlevels⟩
    | some value =>
      rw [search_hit ((hsame level).trans hentry)]
      obtain ⟨events, hcalls, hreturned, hlevels⟩ := hit_alone levels hlevel hstage hentry
      refine ⟨events, hcalls, hreturned, fun other => Eq.trans ?_ (hlevels other).symm⟩
      rw [gather_apply]
      split
      · rfl
      · exact hsame other

/-- The steps of a `get`, one after the other, make up the call. -/
theorem get_alone (count : Nat) (levels : Nat → Option V) (hcall : s.calls call = .unstarted)
    (hsame : ∀ level, c.levels level key = s.levels level) :
    ∃ events, (∀ event ∈ events, event.call = some call) ∧
      ((racing count levels).after s events).calls call =
        .returned ((multiLevelCache V count noDrops).get c key).1 ∧
      ∀ level, ((multiLevelCache V count noDrops).get c key).2.levels level key =
        ((racing count levels).after s events).levels level := by
  have hbegin : step count s (.begin call) = s.setCall call (.looking 0) := by
    simp [DeleteRaces.step, hcall]
  obtain ⟨events, hcalls, hreturned, hlevels⟩ := @search_alone V count (step count s (.begin call))
    call key c levels count 0 (Nat.zero_add count) (by rw [hbegin, State.setCall_self])
    fun level => by rw [hbegin]; exact hsame level
  rw [← List.range_eq_range'] at hreturned hlevels
  exact ⟨.begin call :: events, List.forall_mem_cons.mpr ⟨rfl, hcalls⟩, hreturned, hlevels⟩

theorem after_removes (levels : Nat → Option V) {pending : List Nat}
    (hpending : s.delete = some pending) :
    ((racing count levels).after s (pending.map .remove)).delete = some [] ∧
      ∀ level, ((racing count levels).after s (pending.map .remove)).levels level =
        if level ∈ pending then none else s.levels level := by
  induction pending generalizing s with
  | nil => exact ⟨hpending, fun _ => rfl⟩
  | cons first pending ih =>
    have hremove : step count s (.remove first) =
        { s.setLevel first none with delete := some pending } := by
      simp [DeleteRaces.step, hpending]
    obtain ⟨hdelete, hlevels⟩ := @ih (step count s (.remove first)) (by rw [hremove])
    refine ⟨hdelete, fun level => (hlevels level).trans ?_⟩
    have hlevel : (step count s (.remove first)).levels level =
        if level = first then none else s.levels level := by
      rw [hremove]
      exact State.setLevel_apply ..
    rw [hlevel]
    by_cases hfirst : level = first <;> simp [hfirst]

theorem delete_alone (count : Nat) (levels : Nat → Option V) (hdelete : s.delete = none)
    (hsame : ∀ level, c.levels level key = s.levels level) :
    ∃ events, (∀ event ∈ events, event.call = none) ∧
      ((racing count levels).after s events).delete = some [] ∧
      ∀ level, ((multiLevelCache V count noDrops).delete c key).levels level key =
        ((racing count levels).after s events).levels level := by
  have hbegin : step count s .delete = { s with delete := some (List.range count) } := by
    simp [DeleteRaces.step, hdelete]
  obtain ⟨hdone, hlevels⟩ := @after_removes V count (step count s .delete) levels
    (List.range count) (by rw [hbegin])
  refine ⟨.delete :: (List.range count).map .remove, by simp [Event.call], hdone, fun level => ?_⟩
  refine Eq.trans ?_ (hlevels level).symm
  rw [hbegin]
  refine (gather_apply ..).trans ?_
  rw [hsame level]

end alone

section witness

def cached : Nat → Option String := fun level => if level = 1 then some "ann" else none

/-- A `get` finds the entry; before it fills the upper level, the key is deleted from both. -/
def overtaken : List (Event String) :=
  [.begin 1, .look 1, .look 1, .delete, .remove 1, .remove 0, .fill 1 0]

/-- A later `get` finds the entry in the upper level. -/
theorem staysDeleted_fails : ¬StaysDeleted 2 cached (overtaken ++ [.begin 2, .look 2]) := by
  intro h
  have hsettled : (raced 2 cached overtaken).Settled := settled_of_ended (by decide) (by decide)
  have hnone := h overtaken _ rfl hsettled 2 (by decide) (some "ann") (by decide)
  cases hnone

def inTime : List (Event String) :=
  [.begin 1, .look 1, .look 1, .delete, .remove 1, .fill 1 0, .remove 0, .begin 2, .look 2, .look 2,
    .look 2]

theorem staysDeleted_inTime : StaysDeleted 2 cached inTime := by
  apply staysDeleted_of_notOvertaken
  intro past event rest hsplit
  have hmem : (raced 2 cached past, event) ∈
      (racing 2 cached).steps (racing 2 cached).init inTime :=
    Machine.mem_steps_of_split _ hsplit
  cases event with
  | fill call level =>
    simp only [inTime, Machine.steps, List.mem_cons, List.not_mem_nil, Prod.mk.injEq,
      Event.fill.injEq, reduceCtorEq, and_false, or_false, false_or] at hmem
    obtain ⟨hstate, rfl, rfl⟩ := hmem
    intro value missed _ _ pending hpending
    have hlast : (raced 2 cached past).delete = some [0] := by
      rw [hstate]
      decide
    rw [hlast] at hpending
    cases hpending
    exact List.mem_cons_self
  | _ => trivial

end witness
end steps
end DddFramework.Cache.DeleteRaces
