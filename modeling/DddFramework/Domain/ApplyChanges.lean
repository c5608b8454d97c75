import Mathlib.Data.List.Nodup
import Mathlib.Logic.Function.Basic

/-! `apply_changes`, which assigns attributes of an entity one by one. Values are taken up to
`==`, and `none` is Python's `None`. -/
namespace DddFramework.Domain

abbrev Fields (V : Type) := String → Option (Option V)

abbrev Change (V : Type) := String × Option V

/-- What a class adds to the fields of an instance: properties without setters, such as
`is_deleted`, which go before the fields, and attributes of its own, which come after them. -/
structure EntityClass (V : Type) where
  readOnly : String → Option (Fields V → Option V)
  classAttribute : String → Option (Option V)
  updatable : readOnly "updated_at" = none

structure Changes (V : Type) where
  items : List (Change V)
  distinct : (items.map Prod.fst).Nodup

structure AttributeError where
  name : String
deriving DecidableEq

section model
variable {V : Type} [DecidableEq V] (cls : EntityClass V)

/-- `none` is an `AttributeError`. -/
def getattr (fields : Fields V) (name : String) : Option (Option V) :=
  match cls.readOnly name with
  | some get => some (get fields)
  | none => (fields name).or (cls.classAttribute name)

def setattr (fields : Fields V) (name : String) (value : Option V) :
    Except AttributeError (Fields V) :=
  match cls.readOnly name with
  | some _ => .error ⟨name⟩
  | none => .ok (Function.update fields name (some value))

/-- A turn of the loop, with no fields where it continues before the assignment. -/
def applyChange (fields : Fields V) (change : Change V) :
    Except AttributeError (Option (Fields V)) :=
  if change.2 = none then .ok none
  else
    match getattr cls fields change.1 with
    | none => .error ⟨change.1⟩
    | some current =>
      if current = change.2 then .ok none
      else (setattr cls fields change.1 change.2).map some

/-- The loop. What it has assigned before an exception stays. -/
def applyLoop : List (Change V) → Fields V × Bool → Fields V × Except AttributeError Bool
  | [], (fields, changed) => (fields, .ok changed)
  | change :: changes, (fields, changed) =>
    match applyChange cls fields change with
    | .error exn => (fields, .error exn)
    | .ok none => applyLoop changes (fields, changed)
    | .ok (some assigned) => applyLoop changes (assigned, true)

def applyChanges (now : V) (changes : Changes V) (fields : Fields V) :
    Fields V × Except AttributeError Unit :=
  match applyLoop cls changes.items (fields, false) with
  | (assigned, .error exn) => (assigned, .error exn)
  | (assigned, .ok false) => (assigned, .ok ())
  | (assigned, .ok true) =>
    match setattr cls assigned "updated_at" (some now) with
    | .error exn => (assigned, .error exn)
    | .ok refreshed => (refreshed, .ok ())

/-- There is nothing to assign: the change is `None`, or the attribute has its value. -/
def Shown (fields : Fields V) (change : Change V) : Prop :=
  change.2 = none ∨ getattr cls fields change.1 = some change.2

instance (fields : Fields V) (change : Change V) : Decidable (Shown cls fields change) :=
  inferInstanceAs (Decidable (_ ∨ _))

variable (now : V) (changes : Changes V) (fields : Fields V)

structure Rejected (exn : AttributeError) (left : Fields V) : Prop where
  lacking : ∃ value, (exn.name, some value) ∈ changes.items ∧ getattr cls fields exn.name = none
  untouched : left = fields

structure Applied (left : Fields V) : Prop where
  shown : ∀ change ∈ changes.items, Shown cls left change
  untouched : ∀ name, name ≠ "updated_at" →
    (∀ change ∈ changes.items, change.1 = name → change.2 = none) → left name = fields name
  refreshed : (∃ name, name ≠ "updated_at" ∧ left name ≠ fields name) →
    left "updated_at" = some (some now)
  kept : (∀ name, name ≠ "updated_at" → left name = fields name) →
    left "updated_at" = fields "updated_at"

def AllOrNothing : Prop :=
  match applyChanges cls now changes fields with
  | (left, .error exn) => Rejected cls changes fields exn left
  | (left, .ok ()) => Applied cls now changes fields left

def settle (state : Fields V × Bool) (change : Change V) : Fields V × Bool :=
  if Shown cls state.1 change ∨ (cls.readOnly change.1).isSome then state
  else (Function.update state.1 change.1 (some change.2), true)

def settled (items : List (Change V)) (state : Fields V × Bool) : Fields V × Bool :=
  items.foldl (settle cls) state

def refresh (state : Fields V × Bool) : Fields V :=
  if state.2 then Function.update state.1 "updated_at" (some (some now)) else state.1

/-- Every change is of an attribute that can be set, or of a property that shows its value when
its turn comes and at the end. -/
structure Admits : Prop where
  settable : ∀ change ∈ changes.items, cls.readOnly change.1 = none → change.2 ≠ none →
    getattr cls fields change.1 ≠ none
  turn : ∀ before change behind, changes.items = before ++ change :: behind →
    (cls.readOnly change.1).isSome → Shown cls (settled cls before (fields, false)).1 change
  lasting : ∀ change ∈ changes.items, (cls.readOnly change.1).isSome →
    Shown cls (refresh now (settled cls changes.items (fields, false))) change

/-- The first change that is to be assigned is of an attribute that the entity lacks. -/
def Refuses : Prop :=
  ∃ before change behind, changes.items = before ++ change :: behind ∧
    (∀ earlier ∈ before, Shown cls fields earlier) ∧ change.2 ≠ none ∧
    getattr cls fields change.1 = none

variable {cls now changes fields} {items before behind : List (Change V)} {change : Change V}
  {state : Fields V × Bool} {name : String}

/-- What stops the loop: an attribute that is not there, or a property that differs. -/
def Blocked (cls : EntityClass V) (fields : Fields V) (change : Change V) : Prop :=
  ¬ Shown cls fields change ∧
    (getattr cls fields change.1 = none ∨ (cls.readOnly change.1).isSome)

def Passes (cls : EntityClass V) : List (Change V) → Fields V × Bool → Prop
  | [], _ => True
  | change :: items, state =>
    ¬ Blocked cls state.1 change ∧ Passes cls items (settle cls state change)

section attributes
omit [DecidableEq V]

theorem getattr_congr {other : Fields V} (hreadOnly : cls.readOnly name = none)
    (h : fields name = other name) : getattr cls fields name = getattr cls other name := by
  simp only [getattr, hreadOnly, h]

theorem Shown.congr {other : Fields V} (hreadOnly : cls.readOnly change.1 = none)
    (h : fields change.1 = other change.1) : Shown cls fields change ↔ Shown cls other change := by
  rw [Shown, Shown, getattr_congr hreadOnly h]

theorem ne_of_not_shown (h : ¬ Shown cls fields change) (hreadOnly : cls.readOnly change.1 = none) :
    fields change.1 ≠ some change.2 := by
  intro hfield
  apply h
  right
  simp only [getattr, hreadOnly, hfield, Option.some_or]

end attributes

section turns

theorem settle_of_shown (h : Shown cls state.1 change) : settle cls state change = state :=
  if_pos (.inl h)

theorem settle_of_not_shown (h : ¬ Shown cls state.1 change)
    (hreadOnly : cls.readOnly change.1 = none) :
    settle cls state change = (Function.update state.1 change.1 (some change.2), true) := by
  apply if_neg
  rw [hreadOnly, not_or]
  exact ⟨h, Bool.false_ne_true⟩

theorem applyChange_of_shown (h : Shown cls fields change) :
    applyChange cls fields change = .ok none := by
  unfold applyChange
  rcases h with hnone | hshown
  · rw [if_pos hnone]
  · rw [hshown]
    simp

theorem applyChange_of_blocked (h : Blocked cls fields change) :
    applyChange cls fields change = .error ⟨change.1⟩ := by
  obtain ⟨hshown, hblocked⟩ := h
  rw [Shown, not_or] at hshown
  unfold applyChange
  rw [if_neg hshown.1]
  cases hget : getattr cls fields change.1 with
  | none => rfl
  | some current =>
    have hne : current ≠ change.2 := fun heq => hshown.2 (by rw [hget, heq])
    have hreadOnly := hblocked.resolve_left (by simp [hget])
    obtain ⟨get, hget⟩ := Option.isSome_iff_exists.mp hreadOnly
    simp only [if_neg hne, setattr, hget]
    rfl

theorem applyChange_of_assigned (h : ¬ Shown cls fields change)
    (hpass : ¬ Blocked cls fields change) :
    applyChange cls fields change = .ok (some (Function.update fields change.1 (some change.2))) ∧
      cls.readOnly change.1 = none := by
  rw [Blocked, not_and, not_or] at hpass
  obtain ⟨hget, hreadOnly⟩ := hpass h
  rw [Option.not_isSome_iff_eq_none] at hreadOnly
  rw [Shown, not_or] at h
  refine ⟨?_, hreadOnly⟩
  unfold applyChange
  rw [if_neg h.1]
  obtain ⟨current, hcurrent⟩ := Option.ne_none_iff_exists'.mp hget
  have hne : current ≠ change.2 := fun heq => h.2 (by rw [hcurrent, heq])
  simp only [hcurrent, if_neg hne, setattr, hreadOnly]
  rfl

theorem applyLoop_cons (hpass : ¬ Blocked cls state.1 change) :
    applyLoop cls (change :: items) state = applyLoop cls items (settle cls state change) := by
  obtain ⟨fields, changed⟩ := state
  by_cases hshown : Shown cls fields change
  · rw [settle_of_shown hshown, applyLoop, applyChange_of_shown hshown]
  · obtain ⟨hturn, hreadOnly⟩ := applyChange_of_assigned hshown hpass
    rw [settle_of_not_shown hshown hreadOnly, applyLoop, hturn]

theorem applyLoop_blocked (h : Blocked cls state.1 change) :
    applyLoop cls (change :: items) state = (state.1, .error ⟨change.1⟩) := by
  obtain ⟨fields, changed⟩ := state
  rw [applyLoop, applyChange_of_blocked h]

theorem applyLoop_append (h : Passes cls before state) :
    applyLoop cls (before ++ behind) state = applyLoop cls behind (settled cls before state) := by
  induction before generalizing state with
  | nil => rfl
  | cons change before ih =>
    obtain ⟨hpass, hrest⟩ := h
    rw [List.cons_append, applyLoop_cons hpass]
    exact ih hrest

theorem applyLoop_passes (h : Passes cls items state) :
    applyLoop cls items state = ((settled cls items state).1, .ok (settled cls items state).2) := by
  have hloop : applyLoop cls (items ++ []) state = applyLoop cls [] (settled cls items state) :=
    applyLoop_append h
  rw [List.append_nil] at hloop
  exact hloop

theorem passes_or_blocked (cls : EntityClass V) (items : List (Change V))
    (state : Fields V × Bool) :
    Passes cls items state ∨ ∃ before change behind, items = before ++ change :: behind ∧
      Passes cls before state ∧ Blocked cls (settled cls before state).1 change := by
  induction items generalizing state with
  | nil => exact .inl trivial
  | cons change items ih =>
    by_cases hblocked : Blocked cls state.1 change
    · exact .inr ⟨[], change, items, rfl, trivial, hblocked⟩
    · rcases ih (settle cls state change) with hpasses | hstops
      · exact .inl ⟨hblocked, hpasses⟩
      · obtain ⟨before, stop, behind, rfl, hbefore, hstop⟩ := hstops
        exact .inr ⟨change :: before, stop, behind, rfl, ⟨hblocked, hbefore⟩, hstop⟩

theorem Passes.not_blocked (h : Passes cls (before ++ change :: behind) state) :
    ¬ Blocked cls (settled cls before state).1 change := by
  induction before generalizing state with
  | nil => exact h.1
  | cons earlier before ih => exact ih h.2

end turns

section frame

theorem settle_other (h : change.1 = name → change.2 = none) :
    (settle cls state change).1 name = state.1 name := by
  by_cases hname : change.1 = name
  · rw [settle_of_shown (.inl (h hname))]
  · unfold settle
    split
    · rfl
    · exact Function.update_of_ne (Ne.symm hname) ..

theorem settled_other (h : ∀ change ∈ items, change.1 = name → change.2 = none) :
    (settled cls items state).1 name = state.1 name := by
  induction items generalizing state with
  | nil => rfl
  | cons change items ih =>
    obtain ⟨hchange, hitems⟩ := List.forall_mem_cons.mp h
    exact (ih hitems).trans (settle_other hchange)

theorem settled_of_not_mem (h : name ∉ items.map Prod.fst) :
    (settled cls items state).1 name = state.1 name := by
  apply settled_other
  intro change hchange hname
  exact absurd (hname ▸ List.mem_map_of_mem hchange) h

theorem shown_settle (hreadOnly : cls.readOnly change.1 = none) :
    Shown cls (settle cls state change).1 change := by
  by_cases hshown : Shown cls state.1 change
  · rwa [settle_of_shown hshown]
  · right
    simp only [settle_of_not_shown hshown hreadOnly, getattr, hreadOnly, Function.update_self,
      Option.some_or]

theorem shown_settled (hnames : (items.map Prod.fst).Nodup) (hmem : change ∈ items)
    (hreadOnly : cls.readOnly change.1 = none) :
    Shown cls (settled cls items state).1 change := by
  induction items generalizing state with
  | nil => cases hmem
  | cons first items ih =>
    rw [List.map_cons, List.nodup_cons] at hnames
    rcases List.mem_cons.mp hmem with rfl | hmem
    · have hframe : (settled cls items (settle cls state change)).1 change.1 =
          (settle cls state change).1 change.1 := settled_of_not_mem hnames.1
      exact (Shown.congr hreadOnly hframe).mpr (shown_settle hreadOnly)
    · exact ih hnames.2 hmem

end frame

section flag

theorem settled_flag (h : state.2 = true) : (settled cls items state).2 = true := by
  induction items generalizing state with
  | nil => exact h
  | cons change items ih =>
    apply ih
    unfold settle
    split
    · exact h
    · rfl

theorem settled_eq_of_flag (h : (settled cls items state).2 = false) :
    settled cls items state = state := by
  induction items generalizing state with
  | nil => rfl
  | cons change items ih =>
    have hrest := ih h
    have hflag : (settle cls state change).2 = false := hrest ▸ h
    refine hrest.trans ?_
    unfold settle at hflag ⊢
    split at hflag
    · rename_i hskip
      exact if_pos hskip
    · cases hflag

theorem shown_of_flag (hpasses : Passes cls items state)
    (h : (settled cls items state).2 = false) : ∀ change ∈ items, Shown cls state.1 change := by
  induction items with
  | nil => exact fun change hchange => absurd hchange List.not_mem_nil
  | cons change items ih =>
    by_cases hshown : Shown cls state.1 change
    · have hsettle := settle_of_shown hshown
      have hrest : Passes cls items state := hsettle ▸ hpasses.2
      have hflag : (settled cls items (settle cls state change)).2 = false := h
      rw [hsettle] at hflag
      exact List.forall_mem_cons.mpr ⟨hshown, ih hrest hflag⟩
    · obtain ⟨-, hreadOnly⟩ := applyChange_of_assigned hshown hpasses.1
      have hflag : (settled cls items (settle cls state change)).2 = true := by
        apply settled_flag
        rw [settle_of_not_shown hshown hreadOnly]
      exact absurd (h.symm.trans hflag) Bool.false_ne_true

theorem settled_of_shown (h : ∀ change ∈ items, Shown cls state.1 change) :
    Passes cls items state ∧ settled cls items state = state := by
  induction items with
  | nil => exact ⟨trivial, rfl⟩
  | cons change items ih =>
    obtain ⟨hshown, hitems⟩ := List.forall_mem_cons.mp h
    obtain ⟨hpasses, heq⟩ := ih hitems
    rw [← settle_of_shown hshown] at hpasses
    refine ⟨⟨fun hblocked => hblocked.1 hshown, hpasses⟩, ?_⟩
    exact (congrArg (settled cls items) (settle_of_shown hshown)).trans heq

theorem changed_of_flag (hnames : (items.map Prod.fst).Nodup) (hstate : state.2 = false)
    (h : (settled cls items state).2 = true) :
    ∃ name ∈ items.map Prod.fst, (settled cls items state).1 name ≠ state.1 name := by
  induction items generalizing state with
  | nil => exact absurd (hstate.symm.trans h) Bool.false_ne_true
  | cons change items ih =>
    rw [List.map_cons, List.nodup_cons] at hnames
    by_cases hskip : Shown cls state.1 change ∨ (cls.readOnly change.1).isSome
    · have hsettle : settle cls state change = state := if_pos hskip
      have hsame : settled cls (change :: items) state = settled cls items state :=
        congrArg (settled cls items) hsettle
      rw [hsame] at h ⊢
      obtain ⟨name, hmem, hne⟩ := ih hnames.2 hstate h
      exact ⟨name, List.mem_cons_of_mem _ hmem, hne⟩
    · rw [not_or, Option.not_isSome_iff_eq_none] at hskip
      have hafter : (settled cls (change :: items) state).1 change.1 = some change.2 := by
        apply (settled_of_not_mem hnames.1).trans
        rw [settle_of_not_shown hskip.1 hskip.2]
        exact Function.update_self ..
      refine ⟨change.1, List.mem_cons_self, ?_⟩
      rw [hafter]
      exact (ne_of_not_shown hskip.1 hskip.2).symm

end flag

section outcome

omit [DecidableEq V] in
theorem refresh_other {name : String} (hname : name ≠ "updated_at") :
    refresh now state name = state.1 name := by
  unfold refresh
  split
  · exact Function.update_of_ne hname ..
  · rfl

theorem applyChanges_passes (h : Passes cls changes.items (fields, false)) :
    applyChanges cls now changes fields =
      (refresh now (settled cls changes.items (fields, false)), .ok ()) := by
  unfold applyChanges refresh
  rw [applyLoop_passes h]
  cases (settled cls changes.items (fields, false)).2 with
  | false => rfl
  | true => simp [setattr, cls.updatable]

theorem applyChanges_blocked (hitems : changes.items = before ++ change :: behind)
    (hbefore : Passes cls before (fields, false))
    (hstop : Blocked cls (settled cls before (fields, false)).1 change) :
    applyChanges cls now changes fields =
      ((settled cls before (fields, false)).1, .error ⟨change.1⟩) := by
  unfold applyChanges
  rw [hitems, applyLoop_append hbefore, applyLoop_blocked hstop]

variable (hupdated : "updated_at" ∉ changes.items.map Prod.fst)
include hupdated

theorem shown_refresh (hmem : change ∈ changes.items) (hreadOnly : cls.readOnly change.1 = none) :
    Shown cls (refresh now (settled cls changes.items (fields, false))) change := by
  have hname : change.1 ≠ "updated_at" := by
    intro heq
    exact hupdated (heq ▸ List.mem_map_of_mem hmem)
  exact (Shown.congr hreadOnly (refresh_other hname)).mpr
    (shown_settled changes.distinct hmem hreadOnly)

theorem applied_iff :
    Applied cls now changes fields (refresh now (settled cls changes.items (fields, false))) ↔
      ∀ change ∈ changes.items, (cls.readOnly change.1).isSome →
        Shown cls (refresh now (settled cls changes.items (fields, false))) change := by
  apply Iff.intro
  · intro happlied change hchange _
    exact happlied.shown change hchange
  · intro hproperties
    have hkept : (settled cls changes.items (fields, false)).1 "updated_at" =
        fields "updated_at" := settled_of_not_mem hupdated
    constructor
    · intro change hchange
      cases hreadOnly : cls.readOnly change.1 with
      | none => exact shown_refresh hupdated hchange hreadOnly
      | some get => exact hproperties change hchange (by rw [hreadOnly]; rfl)
    · intro name hname hothers
      rw [refresh_other hname]
      exact settled_other hothers
    · intro hchanged
      obtain ⟨name, hname, hne⟩ := hchanged
      rw [refresh_other hname] at hne
      cases hflag : (settled cls changes.items (fields, false)).2 with
      | false => exact absurd (by rw [settled_eq_of_flag hflag]) hne
      | true =>
        rw [refresh, hflag, if_pos rfl]
        exact Function.update_self ..
    · intro hsame
      cases hflag : (settled cls changes.items (fields, false)).2 with
      | false =>
        rw [refresh, hflag, if_neg Bool.false_ne_true]
        exact hkept
      | true =>
        obtain ⟨name, hmem, hne⟩ := changed_of_flag changes.distinct rfl hflag
        have hname : name ≠ "updated_at" := fun heq => hupdated (heq ▸ hmem)
        have heq := hsame name hname
        rw [refresh_other hname] at heq
        exact absurd heq hne

omit hupdated

/-- Earlier changes have other names. -/
theorem getattr_settled (hitems : changes.items = before ++ change :: behind)
    (hreadOnly : cls.readOnly change.1 = none) :
    getattr cls (settled cls before (fields, false)).1 change.1 =
      getattr cls fields change.1 := by
  have hnames := changes.distinct
  rw [hitems, List.map_append, List.map_cons, List.nodup_middle, List.nodup_cons,
    List.mem_append, not_or] at hnames
  exact getattr_congr hreadOnly (settled_of_not_mem hnames.1.1)

omit [DecidableEq V] in
theorem blocked_of_lacking (hvalue : change.2 ≠ none) (hget : getattr cls fields change.1 = none) :
    Blocked cls fields change := by
  refine ⟨?_, .inl hget⟩
  rw [Shown, hget, not_or]
  exact ⟨hvalue, (Option.some_ne_none _).symm⟩

theorem Admits.passes (h : Admits cls now changes fields) :
    Passes cls changes.items (fields, false) := by
  apply (passes_or_blocked cls changes.items (fields, false)).resolve_right
  intro hstops
  obtain ⟨before, change, behind, hitems, -, hshown, hblocked⟩ := hstops
  cases hreadOnly : cls.readOnly change.1 with
  | some get => exact hshown (h.turn before change behind hitems (by rw [hreadOnly]; rfl))
  | none =>
    have hmem : change ∈ changes.items := by
      rw [hitems]
      exact List.mem_append_right before List.mem_cons_self
    rw [hreadOnly, getattr_settled hitems hreadOnly] at hblocked
    apply h.settable change hmem hreadOnly (fun hnone => hshown (.inl hnone))
    exact hblocked.resolve_right Bool.false_ne_true

theorem admits_of_passes (hpasses : Passes cls changes.items (fields, false))
    (hlasting : ∀ change ∈ changes.items, (cls.readOnly change.1).isSome →
      Shown cls (refresh now (settled cls changes.items (fields, false))) change) :
    Admits cls now changes fields where
  settable := by
    intro change hmem hreadOnly hvalue hget
    obtain ⟨before, behind, hitems⟩ := List.append_of_mem hmem
    rw [← getattr_settled hitems hreadOnly] at hget
    rw [hitems] at hpasses
    exact hpasses.not_blocked (blocked_of_lacking hvalue hget)
  turn := by
    intro before change behind hitems hreadOnly
    rw [hitems] at hpasses
    by_contra hshown
    exact hpasses.not_blocked ⟨hshown, .inr hreadOnly⟩
  lasting := hlasting

theorem rejected_of_refuses (h : Refuses cls changes fields) :
    AllOrNothing cls now changes fields := by
  obtain ⟨before, change, behind, hitems, hshown, hvalue, hget⟩ := h
  have hsettled : Passes cls before (fields, false) ∧
      settled cls before (fields, false) = (fields, false) := settled_of_shown hshown
  have hstop : Blocked cls (settled cls before (fields, false)).1 change := by
    rw [hsettled.2]
    exact blocked_of_lacking hvalue hget
  obtain ⟨value, hvalue⟩ := Option.ne_none_iff_exists'.mp hvalue
  rw [AllOrNothing, applyChanges_blocked hitems hsettled.1 hstop, hsettled.2]
  refine ⟨⟨value, ?_, hget⟩, rfl⟩
  rw [hitems, ← hvalue]
  exact List.mem_append_right before List.mem_cons_self

theorem refuses_of_rejected (hitems : changes.items = before ++ change :: behind)
    (hbefore : Passes cls before (fields, false))
    (hstop : Blocked cls (settled cls before (fields, false)).1 change)
    (h : Rejected cls changes fields ⟨change.1⟩ (settled cls before (fields, false)).1) :
    Refuses cls changes fields := by
  have hflag : (settled cls before (fields, false)).2 = false := by
    by_contra hassigned
    have hnames := changes.distinct
    rw [hitems, List.map_append] at hnames
    obtain ⟨name, -, hne⟩ := changed_of_flag (List.Nodup.of_append_left hnames) rfl
      (Bool.not_eq_false _ ▸ hassigned)
    exact hne (congrFun h.untouched name)
  obtain ⟨value, -, hget⟩ := h.lacking
  exact ⟨before, change, behind, hitems, shown_of_flag hbefore hflag,
    fun hnone => hstop.1 (.inl hnone), hget⟩

/-- `apply_changes` is all or nothing where every change is of an attribute that can be set, and
where the first change to be assigned fails. Any later failure leaves changes behind it, without a
new `updated_at`. -/
theorem allOrNothing_iff (hupdated : "updated_at" ∉ changes.items.map Prod.fst) :
    AllOrNothing cls now changes fields ↔
      Admits cls now changes fields ∨ Refuses cls changes fields := by
  apply Iff.intro
  · intro h
    rcases passes_or_blocked cls changes.items (fields, false) with hpasses | hstops
    · rw [AllOrNothing, applyChanges_passes hpasses] at h
      exact .inl (admits_of_passes hpasses ((applied_iff hupdated).mp h))
    · obtain ⟨before, change, behind, hitems, hbefore, hstop⟩ := hstops
      rw [AllOrNothing, applyChanges_blocked hitems hbefore hstop] at h
      exact .inr (refuses_of_rejected hitems hbefore hstop h)
  · intro h
    rcases h with hadmits | hrefuses
    · rw [AllOrNothing, applyChanges_passes hadmits.passes]
      exact (applied_iff hupdated).mpr hadmits.lasting
    · exact rejected_of_refuses hrefuses

end outcome

end model
def entityClass : EntityClass String where
  readOnly := fun name =>
    if name = "is_deleted" then
      some fun fields => some (if fields "deleted_at" = some none then "False" else "True")
    else none
  classAttribute := fun name =>
    [("deleted_at", none), ("register_event", some "<function>"),
      ("collect_events", some "<function>")].lookup name
  updatable := rfl

def invoice : Fields String := fun name =>
  [("amount", some "0"), ("is_paid", some "False"), ("updated_at", some "monday"),
    ("deleted_at", none)].lookup name

def payment : Changes String where
  items := [("is_paid", some "True"), ("amount", none)]
  distinct := by decide

theorem allOrNothing_payment : AllOrNothing entityClass "tuesday" payment invoice := by
  have hsettable : ∀ change ∈ payment.items, entityClass.readOnly change.1 = none ∧
      (change.2 ≠ none → getattr entityClass invoice change.1 ≠ none) := by
    intro change hchange
    rcases List.mem_pair.mp hchange with rfl | rfl
    · exact ⟨rfl, by decide⟩
    · exact ⟨rfl, by decide⟩
  have hproperty : ∀ change ∈ payment.items, ¬ (entityClass.readOnly change.1).isSome := by
    intro change hchange
    rw [(hsettable change hchange).1]
    exact Bool.false_ne_true
  apply (allOrNothing_iff (by decide)).mpr
  left
  constructor
  · exact fun change hchange _ => (hsettable change hchange).2
  · intro before change behind hitems hreadOnly
    apply absurd hreadOnly (hproperty change _)
    rw [hitems]
    exact List.mem_append_right before List.mem_cons_self
  · exact fun change hchange hreadOnly => absurd hreadOnly (hproperty change hchange)

def misspelt : Changes String where
  items := [("is_paid", some "True"), ("amonut", some "10")]
  distinct := by decide

/-- The invoice is paid, with an exception and without a new `updated_at`. -/
theorem misspelt_half_applied :
    "updated_at" ∉ misspelt.items.map Prod.fst ∧
      (applyChanges entityClass "tuesday" misspelt invoice).2 = .error ⟨"amonut"⟩ ∧
      (applyChanges entityClass "tuesday" misspelt invoice).1 "is_paid" = some (some "True") ∧
      (applyChanges entityClass "tuesday" misspelt invoice).1 "updated_at" =
        some (some "monday") ∧
      ¬ AllOrNothing entityClass "tuesday" misspelt invoice := by
  refine ⟨by decide, rfl, rfl, rfl, ?_⟩
  intro h
  have hrejected : Rejected entityClass misspelt invoice ⟨"amonut"⟩
      (applyChanges entityClass "tuesday" misspelt invoice).1 := h
  have hpaid := congrFun hrejected.untouched "is_paid"
  exact absurd hpaid (by decide)

end DddFramework.Domain
