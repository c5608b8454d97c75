import DddFramework.Library.Machine
import DddFramework.S3.UploadStream
import Mathlib.Data.Finset.Sort
import Mathlib.Data.String.Basic

/-! `S3Client.delete_by_prefix`, which lists the objects of a prefix page by page and deletes
each page before it asks for the next one, while other clients put and delete objects. What
`delete_objects` refuses stays, and nobody is told. -/
namespace DddFramework.S3
open Library

/-- What happens in a bucket: calls of other clients, and the answers to the method's own. S3
lists as many keys as it likes, up to its limit. -/
inductive BucketEvent where
  | put (key : String)
  | remove (key : String)
  | list (limit : Nat)
  | listRaises (exception : Raised)
  | deleteObjects (refused : List String)
  | deleteRaises (exception : Raised) (deleted : List String)

inductive SweepEffect where
  | listed (startAfter : Option String) (page : List String)
  | deleted (page gone : List String)
  | returned
  | raised (exception : Raised)

/-- Between two calls: the next page starts after a key, or a page is to be deleted, which may
be the last. -/
inductive Sweep where
  | listing (startAfter : Option String)
  | deleting (page : List String) (truncated : Bool) (startAfter : Option String)
  | ended
deriving DecidableEq

structure SweepState where
  keys : Finset String
  sweep : Sweep

def maxKeys : Nat := 1000

section sweep
variable (keyPrefix : String)

def Matches (key : String) : Prop := keyPrefix.toList <+: key.toList

instance (key : String) : Decidable (Matches keyPrefix key) :=
  inferInstanceAs (Decidable (_ <+: _))

def listKeys (keys : Finset String) (startAfter : Option String) : List String :=
  (keys.filter fun key => Matches keyPrefix key ∧ ∀ last ∈ startAfter, last < key).sort (· ≤ ·)

def nextPage (truncated : Bool) (startAfter : Option String) : Sweep × List SweepEffect :=
  if truncated then (.listing startAfter, []) else (.ended, [.returned])

def listPage (keys : Finset String) (startAfter : Option String) (limit : Nat) :
    Sweep × List SweepEffect :=
  let found := listKeys keyPrefix keys startAfter
  let page := found.take (min limit maxKeys)
  let truncated := decide (page.length < found.length)
  let next := page.getLast?.or startAfter
  if page.isEmpty then
    ((nextPage truncated next).1, .listed startAfter page :: (nextPage truncated next).2)
  else (.deleting page truncated next, [.listed startAfter page])

def sweepStep (s : SweepState) : BucketEvent → SweepState × List SweepEffect
  | .put key => ({ s with keys := insert key s.keys }, [])
  | .remove key => ({ s with keys := s.keys.erase key }, [])
  | .list limit =>
    match s.sweep with
    | .listing startAfter =>
      ({ s with sweep := (listPage keyPrefix s.keys startAfter limit).1 },
        (listPage keyPrefix s.keys startAfter limit).2)
    | _ => (s, [])
  | .listRaises exception =>
    match s.sweep with
    | .listing _ => ({ s with sweep := .ended }, [.raised exception])
    | _ => (s, [])
  | .deleteObjects refused =>
    match s.sweep with
    | .deleting page truncated startAfter =>
      let gone := page.filter (· ∉ refused)
      (⟨s.keys \ gone.toFinset, (nextPage truncated startAfter).1⟩,
        .deleted page gone :: (nextPage truncated startAfter).2)
    | _ => (s, [])
  | .deleteRaises exception deleted =>
    match s.sweep with
    | .deleting page _ _ =>
      let gone := page.filter (· ∈ deleted)
      (⟨s.keys \ gone.toFinset, .ended⟩, [.deleted page gone, .raised exception])
    | _ => (s, [])

def deleteByPrefix (keys : Finset String) : Machine SweepState BucketEvent SweepEffect where
  init := ⟨keys, .listing none⟩
  step := sweepStep keyPrefix

end sweep

def SweepEffect.page : SweepEffect → List String
  | .deleted page _ => page
  | _ => []

def SweepEffect.gone : SweepEffect → List String
  | .deleted _ gone => gone
  | _ => []

def swept (effects : List SweepEffect) : List String := effects.flatMap SweepEffect.page

def deletedKeys (effects : List SweepEffect) : List String := effects.flatMap SweepEffect.gone

/-- Whatever other clients do: the method asks once for the keys of the prefix, in order, page
by page; it deletes nothing else; and once it has returned, what is left under the prefix was
put meanwhile or is what S3 refused to delete. -/
structure Sweeps (keyPrefix : String) (keys : Finset String) (events : List BucketEvent)
    (s : SweepState) (effects : List SweepEffect) : Prop where
  pages : ∀ page gone, .deleted page gone ∈ effects →
    page ≠ [] ∧ page.length ≤ maxKeys ∧ gone ⊆ page ∧ ∀ key ∈ page, Matches keyPrefix key
  once : (swept effects).Pairwise (· < ·)
  quiet : ∀ key, .put key ∉ events → .remove key ∉ events →
    (key ∈ s.keys ↔ key ∈ keys ∧ key ∉ deletedKeys effects)
  cleared : .returned ∈ effects → ∀ key ∈ s.keys, Matches keyPrefix key →
    .put key ∈ events ∨ key ∈ swept effects ∧ key ∉ deletedKeys effects

def Beyond (startAfter : Option String) (key : String) : Prop := ∀ last ∈ startAfter, last < key

/-- The keys that are still to be dealt with. -/
def Sweep.Covers (key : String) : Sweep → Prop
  | .listing startAfter => Beyond startAfter key
  | .deleting page truncated startAfter => key ∈ page ∨ truncated = true ∧ Beyond startAfter key
  | .ended => False

def Sweep.Placed (keyPrefix : String) (asked : List String) : Sweep → Prop
  | .listing startAfter => ∀ key ∈ asked, ∀ next, Beyond startAfter next → key < next
  | .deleting page _ startAfter =>
    page ≠ [] ∧ page.length ≤ maxKeys ∧ (∀ key ∈ page, Matches keyPrefix key) ∧
      (asked ++ page).Pairwise (· < ·) ∧
        ∀ key ∈ asked ++ page, ∀ next, Beyond startAfter next → key < next
  | .ended => True

structure Sweeping (keyPrefix : String) (keys : Finset String) (events : List BucketEvent)
    (s : SweepState) (effects : List SweepEffect) : Prop where
  pages : ∀ page gone, .deleted page gone ∈ effects →
    page ≠ [] ∧ page.length ≤ maxKeys ∧ gone ⊆ page ∧ ∀ key ∈ page, Matches keyPrefix key
  once : (swept effects).Pairwise (· < ·)
  quiet : ∀ key, .put key ∉ events → .remove key ∉ events →
    (key ∈ s.keys ↔ key ∈ keys ∧ key ∉ deletedKeys effects)
  placed : s.sweep.Placed keyPrefix (swept effects)
  covered : (∀ exception, .raised exception ∉ effects) → ∀ key ∈ s.keys, Matches keyPrefix key →
    .put key ∈ events ∨ (key ∈ swept effects ∧ key ∉ deletedKeys effects) ∨ s.sweep.Covers key
  running : s.sweep ≠ .ended → .returned ∉ effects
  returned : .returned ∈ effects → ∀ exception, .raised exception ∉ effects
  raised : s.sweep ≠ .ended → ∀ exception, .raised exception ∉ effects

section lists
variable {keyPrefix : String} {keys : Finset String} {startAfter : Option String} {key : String}

theorem mem_listKeys :
    key ∈ listKeys keyPrefix keys startAfter ↔
      key ∈ keys ∧ Matches keyPrefix key ∧ Beyond startAfter key := by
  rw [listKeys, Finset.mem_sort, Finset.mem_filter]
  rfl

theorem listKeys_pairwise : (listKeys keyPrefix keys startAfter).Pairwise (· < ·) :=
  (Finset.sortedLT_sort _).pairwise

end lists

section steps
variable {keyPrefix : String} {keys : Finset String} {events : List BucketEvent} {s : SweepState}
  {effects : List SweepEffect}

theorem mem_swept {key : String} {page gone : List String} (h : .deleted page gone ∈ effects)
    (hkey : key ∈ page) : key ∈ swept effects :=
  List.mem_flatMap.mpr ⟨_, h, hkey⟩

@[simp] theorem swept_append (effects more : List SweepEffect) :
    swept (effects ++ more) = swept effects ++ swept more := List.flatMap_append

@[simp] theorem deletedKeys_append (effects more : List SweepEffect) :
    deletedKeys (effects ++ more) = deletedKeys effects ++ deletedKeys more := List.flatMap_append

namespace Sweeping

theorem deletedKeys_subset (h : Sweeping keyPrefix keys events s effects) :
    deletedKeys effects ⊆ swept effects := by
  intro key hkey
  obtain ⟨effect, heffect, hgone⟩ := List.mem_flatMap.mp hkey
  cases effect with
  | deleted page gone => exact mem_swept heffect ((h.pages page gone heffect).2.2.1 hgone)
  | _ => cases hgone

theorem idle (h : Sweeping keyPrefix keys events s effects) (event : BucketEvent) :
    Sweeping keyPrefix keys (events ++ [event]) s (effects ++ []) := by
  rw [List.append_nil]
  exact { h with
    quiet := fun key hput hremove => h.quiet key (fun hmem => hput (List.mem_append_left _ hmem))
      fun hmem => hremove (List.mem_append_left _ hmem)
    covered := fun hraised key hkey hmatches =>
      (h.covered hraised key hkey hmatches).imp_left (List.mem_append_left _) }

theorem put (h : Sweeping keyPrefix keys events s effects) (key : String) :
    Sweeping keyPrefix keys (events ++ [.put key]) { s with keys := insert key s.keys }
      (effects ++ []) := by
  have hidle := h.idle (.put key)
  exact { hidle with
    quiet := by
      intro other hput hremove
      have hne : other ≠ key := by
        rintro rfl
        simp at hput
      rw [← hidle.quiet other hput hremove, Finset.mem_insert, or_iff_right hne]
    covered := by
      intro hraised other hother hmatches
      rcases Finset.mem_insert.mp hother with rfl | hother
      · exact .inl (by simp)
      · exact hidle.covered hraised other hother hmatches }

theorem remove (h : Sweeping keyPrefix keys events s effects) (key : String) :
    Sweeping keyPrefix keys (events ++ [.remove key]) { s with keys := s.keys.erase key }
      (effects ++ []) := by
  have hidle := h.idle (.remove key)
  exact { hidle with
    quiet := by
      intro other hput hremove
      have hne : other ≠ key := by
        rintro rfl
        simp at hremove
      rw [← hidle.quiet other hput hremove, Finset.mem_erase, and_iff_right hne]
    covered := fun hraised other hother =>
      hidle.covered hraised other (Finset.mem_of_mem_erase hother) }

inductive Follows (truncated : Bool) (startAfter : Option String) :
    Sweep → List SweepEffect → Prop
  | more (h : truncated = true) : Follows truncated startAfter (.listing startAfter) []
  | last (h : truncated = false) : Follows truncated startAfter .ended [.returned]
  | raised (exception : Raised) : Follows truncated startAfter .ended [.raised exception]

theorem follows_nextPage (truncated : Bool) (startAfter : Option String) :
    Follows truncated startAfter (nextPage truncated startAfter).1
      (nextPage truncated startAfter).2 := by
  cases truncated with
  | true => exact .more rfl
  | false => exact .last rfl

theorem delete (h : Sweeping keyPrefix keys events s effects) {page gone : List String}
    {truncated : Bool} {startAfter : Option String}
    (hsweep : s.sweep = .deleting page truncated startAfter) (hgone : gone ⊆ page) {next : Sweep}
    {more : List SweepEffect} (hnext : Follows truncated startAfter next more)
    (event : BucketEvent) :
    Sweeping keyPrefix keys (events ++ [event]) ⟨s.keys \ gone.toFinset, next⟩
      (effects ++ .deleted page gone :: more) := by
  have hidle := h.idle event
  rw [List.append_nil] at hidle
  have hrunning : s.sweep ≠ .ended := by simp [hsweep]
  have hplaced := h.placed
  rw [hsweep] at hplaced
  obtain ⟨hne, hshort, hmatch, hordered, hbeyond⟩ := hplaced
  have hswept : swept (effects ++ .deleted page gone :: more) = swept effects ++ page := by
    cases hnext <;> simp [swept, SweepEffect.page]
  have hdeleted : deletedKeys (effects ++ .deleted page gone :: more) =
      deletedKeys effects ++ gone := by
    cases hnext <;> simp [deletedKeys, SweepEffect.gone]
  constructor
  · intro other part hother
    rcases List.mem_append.mp hother with hearlier | hlast
    · exact h.pages other part hearlier
    · have hsame : other = page ∧ part = gone := by
        cases hnext <;> simpa using hlast
      rw [hsame.1, hsame.2]
      exact ⟨hne, hshort, hgone, hmatch⟩
  · rw [hswept]
    exact hordered
  · intro key hput hremove
    rw [hdeleted, Finset.mem_sdiff, List.mem_toFinset, hidle.quiet key hput hremove,
      List.mem_append, not_or, and_assoc]
  · rw [hswept]
    cases hnext with
    | more => exact hbeyond
    | last => trivial
    | raised => trivial
  · intro hraised key hkey hmatches
    obtain ⟨hkey, hkept⟩ := Finset.mem_sdiff.mp hkey
    rw [List.mem_toFinset] at hkept
    rw [hswept, hdeleted]
    have hcovered := hidle.covered
      (fun exception hmem => hraised exception (List.mem_append_left _ hmem)) key hkey hmatches
    rw [hsweep] at hcovered
    rcases hcovered with hput | ⟨hasked, hrefused⟩ | hpage | ⟨htruncated, hafter⟩
    · exact .inl hput
    · exact .inr (.inl ⟨List.mem_append_left _ hasked, by simp [hrefused, hkept]⟩)
    · -- it is asked for only now, so that it has not been deleted before
      have hnew : key ∉ deletedKeys effects := by
        intro hearlier
        rw [List.pairwise_append] at hordered
        exact lt_irrefl key (hordered.2.2 key (h.deletedKeys_subset hearlier) key hpage)
      exact .inr (.inl ⟨List.mem_append_right _ hpage, by simp [hnew, hkept]⟩)
    · cases hnext with
      | more => exact .inr (.inr hafter)
      | last hlast => rw [hlast] at htruncated; cases htruncated
      | raised exception => exact absurd (by simp) (hraised exception)
  · intro hended hreturned
    cases hnext with
    | more => simp [h.running hrunning] at hreturned
    | last => exact hended rfl
    | raised => exact hended rfl
  · intro hreturned exception hraised
    have hnone := h.raised hrunning exception
    cases hnext with
    | more => simp [h.running hrunning] at hreturned
    | last => simp [hnone] at hraised
    | raised => simp [h.running hrunning] at hreturned
  · intro hended exception hraised
    cases hnext with
    | more => simp [h.raised hrunning] at hraised
    | last => exact hended rfl
    | raised => exact hended rfl

def Asks (next : Sweep) (more : List SweepEffect) : Prop :=
  ∃ startAfter page, more = [.listed startAfter page] ∨
    next = .ended ∧ (more = [.listed startAfter page, .returned] ∨
      ∃ exception, more = [.raised exception])

theorem ask (h : Sweeping keyPrefix keys events s effects) (hrunning : s.sweep ≠ .ended)
    {next : Sweep} {more : List SweepEffect} (hmore : Asks next more)
    (hplaced : next.Placed keyPrefix (swept effects))
    (hcovers : (∀ exception, .raised exception ∉ more) → ∀ key ∈ s.keys,
      Matches keyPrefix key → s.sweep.Covers key → next.Covers key) (event : BucketEvent) :
    Sweeping keyPrefix keys (events ++ [event]) { s with sweep := next } (effects ++ more) := by
  have hidle := h.idle event
  rw [List.append_nil] at hidle
  have hswept : swept (effects ++ more) = swept effects := by
    obtain ⟨_, _, rfl | ⟨-, rfl | ⟨_, rfl⟩⟩⟩ := hmore <;> simp [swept, SweepEffect.page]
  have hdeleted : deletedKeys (effects ++ more) = deletedKeys effects := by
    obtain ⟨_, _, rfl | ⟨-, rfl | ⟨_, rfl⟩⟩⟩ := hmore <;> simp [deletedKeys, SweepEffect.gone]
  have hnone := h.raised hrunning
  constructor
  · intro page gone hmem
    rcases List.mem_append.mp hmem with hearlier | hlast
    · exact h.pages page gone hearlier
    · obtain ⟨_, _, rfl | ⟨-, rfl | ⟨_, rfl⟩⟩⟩ := hmore <;> simp at hlast
  · rw [hswept]
    exact h.once
  · rw [hdeleted]
    exact hidle.quiet
  · rw [hswept]
    exact hplaced
  · intro hraised key hkey hmatches
    rw [hswept, hdeleted]
    refine (hidle.covered hnone key hkey hmatches).imp_right fun hcovered => ?_
    exact hcovered.imp_right (hcovers (fun exception hmem =>
      hraised exception (List.mem_append_right _ hmem)) key hkey hmatches)
  · intro hended hreturned
    obtain ⟨_, _, rfl | ⟨hlast, -⟩⟩ := hmore
    · simp [h.running hrunning] at hreturned
    · exact hended hlast
  · intro hreturned exception hraised
    obtain ⟨_, _, rfl | ⟨-, rfl | ⟨_, rfl⟩⟩⟩ := hmore
    · simp [hnone] at hraised
    · simp [hnone] at hraised
    · simp [h.running hrunning] at hreturned
  · intro hended exception hraised
    obtain ⟨_, _, rfl | ⟨hlast, -⟩⟩ := hmore
    · simp [hnone] at hraised
    · exact hended hlast

theorem list (h : Sweeping keyPrefix keys events s effects) {startAfter : Option String}
    (hsweep : s.sweep = .listing startAfter) (limit : Nat) :
    Sweeping keyPrefix keys (events ++ [.list limit])
      { s with sweep := (listPage keyPrefix s.keys startAfter limit).1 }
      (effects ++ (listPage keyPrefix s.keys startAfter limit).2) := by
  have hrunning : s.sweep ≠ .ended := by simp [hsweep]
  have hplaced := h.placed
  rw [hsweep] at hplaced
  have hfound : (listKeys keyPrefix s.keys startAfter).Pairwise (· < ·) := listKeys_pairwise
  have hmem : ∀ key, key ∈ listKeys keyPrefix s.keys startAfter ↔ _ := fun _ => mem_listKeys
  unfold listPage
  dsimp only
  generalize listKeys keyPrefix s.keys startAfter = found at hfound hmem ⊢
  by_cases hpage : found.take (min limit maxKeys) = []
  · simp only [hpage, List.isEmpty_nil, if_true, List.getLast?_nil, Option.none_or,
      List.length_nil]
    cases found with
    | nil =>
      apply h.ask hrunning ⟨startAfter, [], .inr ⟨rfl, .inl rfl⟩⟩ trivial
      intro _ key hkey hmatches hafter
      rw [hsweep] at hafter
      cases (hmem key).mpr ⟨hkey, hmatches, hafter⟩
    | cons first rest =>
      -- S3 has listed nothing although there is more: the same page is asked for again
      apply h.ask hrunning ⟨startAfter, [], .inl rfl⟩ hplaced
      intro _ key _ _ hafter
      rwa [hsweep] at hafter
  · rw [if_neg (by simpa using hpage)]
    have hlast := List.getLast?_eq_some_getLast hpage
    have hpast : ∀ key ∈ found.take (min limit maxKeys), ∀ next,
        (found.take (min limit maxKeys)).getLast hpage < next → key < next := by
      intro key hkey next hnext
      rw [← List.dropLast_append_getLast hpage] at hkey
      have hordered : (found.take (min limit maxKeys)).Pairwise (· < ·) := hfound.take
      rw [← List.dropLast_append_getLast hpage, List.pairwise_append] at hordered
      rcases List.mem_append.mp hkey with hkey | hkey
      · exact (hordered.2.2 key hkey _ (List.mem_singleton.mpr rfl)).trans hnext
      · rwa [List.mem_singleton.mp hkey]
    have hbeyond : ∀ key ∈ found.take (min limit maxKeys), Beyond startAfter key :=
      fun key hkey => ((hmem key).mp (List.mem_of_mem_take hkey)).2.2
    rw [hlast, Option.some_or]
    apply h.ask hrunning ⟨startAfter, _, .inl rfl⟩
    · refine ⟨hpage, ?_, ?_, ?_, ?_⟩
      · exact (List.length_take_le ..).trans (Nat.min_le_right ..)
      · exact fun key hkey => ((hmem key).mp (List.mem_of_mem_take hkey)).2.1
      · apply List.pairwise_append.mpr
        exact ⟨h.once, hfound.take, fun key hkey other hother =>
          hplaced key hkey other (hbeyond other hother)⟩
      · intro key hkey next hnext
        have hnext := hnext _ rfl
        rcases List.mem_append.mp hkey with hkey | hkey
        · have hmore := hbeyond _ (List.getLast_mem hpage)
          exact (hplaced key hkey _ hmore).trans hnext
        · exact hpast key hkey next hnext
    · intro _ key hkey hmatches hafter
      rw [hsweep] at hafter
      have hfind := (hmem key).mpr ⟨hkey, hmatches, hafter⟩
      rw [← List.take_append_drop (min limit maxKeys) found, List.mem_append] at hfind
      refine hfind.imp_right fun hleft => ⟨?_, ?_⟩
      · have hpos := List.length_pos_of_mem hleft
        rw [List.length_drop] at hpos
        rw [List.length_take]
        exact decide_eq_true (by omega)
      · intro last hsame
        rw [← Option.some.inj hsame]
        rw [← List.take_append_drop (min limit maxKeys) found, List.pairwise_append] at hfound
        exact hfound.2.2 _ (List.getLast_mem hpage) key hleft

theorem step (h : Sweeping keyPrefix keys events s effects) (event : BucketEvent) :
    Sweeping keyPrefix keys (events ++ [event]) (sweepStep keyPrefix s event).1
      (effects ++ (sweepStep keyPrefix s event).2) := by
  have hidle := h.idle event
  cases event with
  | put key => exact h.put key
  | remove key => exact h.remove key
  | list limit =>
    cases hsweep : s.sweep with
    | listing startAfter =>
      simp only [sweepStep, hsweep]
      exact h.list hsweep limit
    | _ => simpa only [sweepStep, hsweep] using hidle
  | listRaises exception =>
    cases hsweep : s.sweep with
    | listing startAfter =>
      simp only [sweepStep, hsweep]
      exact h.ask (by simp [hsweep]) ⟨none, [], .inr ⟨rfl, .inr ⟨exception, rfl⟩⟩⟩ trivial
        (fun hnone => absurd (List.mem_singleton.mpr rfl) (hnone exception)) _
    | _ => simpa only [sweepStep, hsweep] using hidle
  | deleteObjects refused =>
    cases hsweep : s.sweep with
    | deleting page truncated startAfter =>
      simp only [sweepStep, hsweep]
      exact h.delete hsweep (List.filter_subset_self _) (follows_nextPage ..) _
    | _ => simpa only [sweepStep, hsweep] using hidle
  | deleteRaises exception deleted =>
    cases hsweep : s.sweep with
    | deleting page truncated startAfter =>
      simp only [sweepStep, hsweep]
      exact h.delete hsweep (List.filter_subset_self _) (.raised exception) _
    | _ => simpa only [sweepStep, hsweep] using hidle

end Sweeping
end steps
theorem sweeping_after (keyPrefix : String) (keys : Finset String) (events : List BucketEvent) :
    Sweeping keyPrefix keys events
      ((deleteByPrefix keyPrefix keys).after (deleteByPrefix keyPrefix keys).init events)
      ((deleteByPrefix keyPrefix keys).emitted (deleteByPrefix keyPrefix keys).init events) := by
  induction events using List.reverseRecOn with
  | nil =>
    constructor <;> simp [deleteByPrefix, swept, deletedKeys, Sweep.Placed, Sweep.Covers, Beyond]
  | append_singleton past event ih =>
    rw [Machine.after_concat, Machine.emitted_concat]
    exact ih.step event

theorem sweeps_after (keyPrefix : String) (keys : Finset String) (events : List BucketEvent) :
    Sweeps keyPrefix keys events
      ((deleteByPrefix keyPrefix keys).after (deleteByPrefix keyPrefix keys).init events)
      ((deleteByPrefix keyPrefix keys).emitted (deleteByPrefix keyPrefix keys).init events) := by
  have h := sweeping_after keyPrefix keys events
  refine ⟨h.pages, h.once, h.quiet, ?_⟩
  intro hreturned key hkey hmatches
  have hended := Not.imp_symm h.running (not_not.mpr hreturned)
  have hcovered := h.covered (h.returned hreturned) key hkey hmatches
  rw [hended] at hcovered
  exact hcovered.imp_right fun hrest => hrest.resolve_right not_false

/-! Left alone, the method returns. -/

def round (x : Nat × List String) : List BucketEvent := [.list x.1, .deleteObjects x.2]

section returns
variable {keyPrefix : String} {s : SweepState} {startAfter : Option String} {limit : Nat}

theorem listPage_nil (h : listKeys keyPrefix s.keys startAfter = []) :
    (listPage keyPrefix s.keys startAfter limit).2 = [.listed startAfter [], .returned] := by
  simp [listPage, h, nextPage]

theorem length_listKeys_lt {last : String} (hlast : last ∈ listKeys keyPrefix s.keys startAfter)
    {keys : Finset String} (hkeys : keys ⊆ s.keys) :
    (listKeys keyPrefix keys (some last)).length <
      (listKeys keyPrefix s.keys startAfter).length := by
  have hafter := (mem_listKeys.mp hlast).2.2
  have hnotMem : last ∉ listKeys keyPrefix keys (some last) :=
    fun hmem => lt_irrefl last ((mem_listKeys.mp hmem).2.2 last rfl)
  have hsubset : last :: listKeys keyPrefix keys (some last) ⊆
      listKeys keyPrefix s.keys startAfter := by
    refine List.cons_subset.mpr ⟨hlast, fun key hkey => ?_⟩
    obtain ⟨hin, hmatches, hbeyond⟩ := mem_listKeys.mp hkey
    refine mem_listKeys.mpr ⟨hkeys hin, hmatches, fun earlier hearlier => ?_⟩
    exact (hafter earlier hearlier).trans (hbeyond last rfl)
  have hnodup : (last :: listKeys keyPrefix keys (some last)).Nodup :=
    List.nodup_cons.mpr ⟨hnotMem, Finset.sort_nodup ..⟩
  exact (List.subperm_of_subset hnodup hsubset).length_le

theorem listPage_cons (hlimit : 0 < limit) (h : listKeys keyPrefix s.keys startAfter ≠ []) :
    ∃ page truncated last, last ∈ listKeys keyPrefix s.keys startAfter ∧
      listPage keyPrefix s.keys startAfter limit =
        (.deleting page truncated (some last), [.listed startAfter page]) := by
  have hcount : 0 < min limit maxKeys := by
    unfold maxKeys
    omega
  have hpage : (listKeys keyPrefix s.keys startAfter).take (min limit maxKeys) ≠ [] := by
    rw [Ne, List.take_eq_nil_iff, not_or]
    exact ⟨hcount.ne', h⟩
  have hlisted : (listPage keyPrefix s.keys startAfter limit) =
      (.deleting ((listKeys keyPrefix s.keys startAfter).take (min limit maxKeys))
        (decide (((listKeys keyPrefix s.keys startAfter).take (min limit maxKeys)).length <
          (listKeys keyPrefix s.keys startAfter).length))
        (some (((listKeys keyPrefix s.keys startAfter).take (min limit maxKeys)).getLast hpage)),
        [.listed startAfter
          ((listKeys keyPrefix s.keys startAfter).take (min limit maxKeys))]) := by
    rw [listPage, if_neg (by simpa using hpage), List.getLast?_eq_some_getLast hpage]
    rfl
  exact ⟨_, _, _, List.mem_of_mem_take (List.getLast_mem hpage), hlisted⟩

theorem returns_of_listing (keys : Finset String) (hsweep : s.sweep = .listing startAfter)
    {rounds : List (Nat × List String)} (hrounds : ∀ x ∈ rounds, 0 < x.1)
    (hlong : (listKeys keyPrefix s.keys startAfter).length < rounds.length) :
    .returned ∈ (deleteByPrefix keyPrefix keys).emitted s (rounds.flatMap round) := by
  induction rounds generalizing s startAfter with
  | nil => cases hlong
  | cons x rounds ih =>
    obtain ⟨hlimit, hrounds⟩ := List.forall_mem_cons.mp hrounds
    rw [List.flatMap_cons, Machine.emitted_append, List.mem_append]
    by_cases hfound : listKeys keyPrefix s.keys startAfter = []
    · left
      simp [round, Machine.emitted, deleteByPrefix, sweepStep, hsweep, listPage_nil hfound]
    · obtain ⟨page, truncated, last, hlast, hpage⟩ := listPage_cons hlimit hfound
      cases truncated with
      | false =>
        left
        simp [round, Machine.emitted, deleteByPrefix, sweepStep, hsweep, hpage, nextPage]
      | true =>
        right
        refine @ih _ (some last) ?_ hrounds ?_
        · simp [round, Machine.after, deleteByPrefix, sweepStep, hsweep, hpage, nextPage]
        · have hless := length_listKeys_lt hlast
            (Finset.sdiff_subset (t := (page.filter (· ∉ x.2)).toFinset))
          rw [List.length_cons] at hlong
          simp only [round, Machine.after, deleteByPrefix, sweepStep, hsweep, hpage]
          omega

end returns

/-- The method sweeps the prefix whatever other clients do. Left alone, and with pages that are
not empty, it returns after no more pages than there are keys, and one; then what S3 refused to
delete is all that is left under the prefix, and nothing else is gone. -/
structure DeletesPrefix (keyPrefix : String) (keys : Finset String) : Prop where
  sweeps : ∀ events, Sweeps keyPrefix keys events
    ((deleteByPrefix keyPrefix keys).after (deleteByPrefix keyPrefix keys).init events)
    ((deleteByPrefix keyPrefix keys).emitted (deleteByPrefix keyPrefix keys).init events)
  returns : ∀ rounds : List (Nat × List String), (∀ x ∈ rounds, 0 < x.1) →
    (listKeys keyPrefix keys none).length < rounds.length → ∀ effects,
    (deleteByPrefix keyPrefix keys).emitted (deleteByPrefix keyPrefix keys).init
        (rounds.flatMap round) = effects →
      .returned ∈ effects ∧ ∀ key,
        key ∈ ((deleteByPrefix keyPrefix keys).after (deleteByPrefix keyPrefix keys).init
          (rounds.flatMap round)).keys ↔
        key ∈ keys ∧ (Matches keyPrefix key → key ∈ swept effects ∧ key ∉ deletedKeys effects)

theorem round_quiet {rounds : List (Nat × List String)} {key : String} :
    .put key ∉ rounds.flatMap round ∧ .remove key ∉ rounds.flatMap round := by
  simp [round]

theorem deleteByPrefix_sweeps (keyPrefix : String) (keys : Finset String) :
    DeletesPrefix keyPrefix keys where
  sweeps := sweeps_after keyPrefix keys
  returns := by
    rintro rounds hrounds hlong effects rfl
    have hreturned := returns_of_listing (s := (deleteByPrefix keyPrefix keys).init) keys rfl
      hrounds hlong
    have hsweeps := sweeps_after keyPrefix keys (rounds.flatMap round)
    refine ⟨hreturned, fun key => ?_⟩
    obtain ⟨hput, hremove⟩ : .put key ∉ rounds.flatMap round ∧
        .remove key ∉ rounds.flatMap round := round_quiet
    have hquiet := hsweeps.quiet key hput hremove
    constructor
    · intro hkey
      refine ⟨(hquiet.mp hkey).1, fun hmatches => ?_⟩
      exact (hsweeps.cleared hreturned key hkey hmatches).resolve_left hput
    · rintro ⟨hkey, hrefused⟩
      refine hquiet.mpr ⟨hkey, fun hgone => ?_⟩
      -- what is gone was asked for, and so has the prefix
      obtain ⟨effect, heffect, hmem⟩ := List.mem_flatMap.mp hgone
      cases effect with
      | deleted page gone =>
        obtain ⟨-, -, hsubset, hmatch⟩ := hsweeps.pages page gone heffect
        exact (hrefused (hmatch key (hsubset hmem))).2 hgone
      | _ => cases hmem

end DddFramework.S3
