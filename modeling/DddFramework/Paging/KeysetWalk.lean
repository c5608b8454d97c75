import Mathlib.Data.Prod.Lex
import DddFramework.Paging.SqlPages

/-! A client follows `next_cursor` from the first page on while others insert and delete
rows. Each page request is answered from the table of its moment; the session keeps
those tables, since a row must be in all of them to be owed to the client. -/
namespace DddFramework.Paging
open Library

inductive Event where
  | insert (row : Row)
  | delete (id : Nat)
  | request

structure Session where
  table : List Row
  cursor : Option String
  items : List Row
  hasNext : Bool
  requested : List (List Row)

def Session.start (table : List Row) : Session := ⟨table, none, [], true, []⟩

section
variable (repr : String → String) (json : JsonCodec) (model : Model) (stmt : Select)
  (sort : Option Sorting) (size : Nat) (size_pos : 0 < size)

/-- A row is inserted under an id that is not in use; the walk ends with `has_next = false`. -/
def Session.step (s : Session) : Event → Except Exn Session
  | .insert row =>
    .ok { s with table := if row.id ∈ s.table.map Row.id then s.table else row :: s.table }
  | .delete id => .ok { s with table := s.table.filter fun row => row.id != id }
  | .request =>
    if s.hasNext then do
      let page ← paginateByCursor repr json model s.table stmt ⟨s.cursor, size, size_pos⟩ sort
      .ok { s with
        cursor := page.nextCursor
        items := s.items ++ page.models
        hasNext := page.hasNext
        requested := s.requested ++ [s.table] }
    else .ok s

/-- The order a sort asks for: by its key, ties by `id`, in its direction. -/
def Before (sort : Option Sorting) (a b : Row) : Prop :=
  let key (row : Row) : Int ×ₗ Nat :=
    toLex (if cursorField sort = "id" then 0 else row.column (cursorField sort), row.id)
  match cursorDirection sort with
  | .asc => key a < key b
  | .desc => key b < key a

/-- The sort keys of an id never change: they are those the assignment gives it. -/
def Keyed (keys : Nat → Int × Int) (row : Row) : Prop :=
  (row.createdAt, row.updatedAt) = keys row.id

structure SessionOk (keys : Nat → Int × Int) (s : Session) : Prop where
  nodup : (s.table.map Row.id).Nodup
  keyed : ∀ row ∈ s.table, Keyed keys row
  sound : (sqlKeyset repr json sort).Sound (Keyed keys)
    (s.requested.map (List.filter stmt.keeps)) ⟨s.cursor, s.items, s.hasNext⟩

end

section
variable {repr : String → String} {json : JsonCodec} {model : Model} {stmt : Select}
  {sort : Option Sorting} {size : Nat} {size_pos : 0 < size} {keys : Nat → Int × Int}

theorem lt_iff_before (a b : Row) :
    (sqlKeyset repr json sort).lt a b = true ↔ Before sort a b := by
  unfold Before
  by_cases hid : cursorField sort = "id"
  · rw [sqlKeyset_lt_id hid]
    cases cursorDirection sort <;> simp [hid, Prod.Lex.toLex_lt_toLex]
  · rw [sqlKeyset_lt_field hid]
    cases cursorDirection sort with
    | asc =>
      simp [hid, Prod.Lex.toLex_lt_toLex]
      omega
    | desc => simp [hid, Prod.Lex.toLex_lt_toLex]

theorem sqlKeyset_lawful_on (carrier : Row → Prop) :
    (sqlKeyset repr json sort).Lawful carrier where
  weak := sqlKeyset_weak
  admits_cursorOf := fun _ _ => sqlKeyset_lawful.admits_cursorOf trivial trivial

theorem SessionOk.issued {s : Session} (h : SessionOk repr json stmt sort keys s)
    (hmore : s.hasNext = true) : Issued repr json sort s.cursor := by
  rintro c hc
  rcases h.sound.place hmore with ⟨hnone, -⟩ | ⟨b, -, hcursor⟩
  · simp_all
  · refine ⟨b, ?_⟩
    simp_all

theorem sessionOk_start {table : List Row} (hnodup : (table.map Row.id).Nodup)
    (hkeyed : ∀ row ∈ table, Keyed keys row) :
    SessionOk repr json stmt sort keys (.start table) :=
  ⟨hnodup, hkeyed, Keyset.sound_start⟩

theorem SessionOk.insert {s : Session} (h : SessionOk repr json stmt sort keys s) {row : Row}
    (hrow : Keyed keys row) : SessionOk repr json stmt sort keys
      { s with table := if row.id ∈ s.table.map Row.id then s.table else row :: s.table } := by
  split
  case isTrue => exact h
  case isFalse hfresh =>
    refine ⟨?_, ?_, h.sound⟩
    · exact List.nodup_cons.mpr ⟨hfresh, h.nodup⟩
    · exact List.forall_mem_cons.mpr ⟨hrow, h.keyed⟩

theorem SessionOk.delete {s : Session} (h : SessionOk repr json stmt sort keys s) (id : Nat) :
    SessionOk repr json stmt sort keys
      { s with table := s.table.filter fun row => row.id != id } := by
  refine ⟨?_, ?_, h.sound⟩
  · exact h.nodup.sublist (List.filter_sublist.map Row.id)
  · intro row hrow
    exact h.keyed row (List.mem_of_mem_filter hrow)

theorem SessionOk.request {s : Session} (h : SessionOk repr json stmt sort keys s)
    (hsort : CursorSort sort) (hmore : s.hasNext = true) :
    ∃ page, paginateByCursor repr json model s.table stmt ⟨s.cursor, size, size_pos⟩ sort =
        .ok page ∧
      SessionOk repr json stmt sort keys { s with
        cursor := page.nextCursor
        items := s.items ++ page.models
        hasNext := page.hasNext
        requested := s.requested ++ [s.table] } := by
  have hdistinct : Distinct (sqlKeyset repr json sort).lt (s.table.filter stmt.keeps) :=
    (distinct_of_nodup h.nodup).filter _
  have hcarrier : ∀ row ∈ s.table.filter stmt.keeps, Keyed keys row :=
    fun row hrow => h.keyed row (List.mem_of_mem_filter hrow)
  have hsound := h.sound.request (sqlKeyset_lawful_on _) size_pos hdistinct hcarrier
  rw [Keyset.request_of_more hmore] at hsound
  refine ⟨_, paginateByCursor_eq hsort (h.issued hmore) rfl, h.nodup, h.keyed, ?_⟩
  rw [List.map_append]
  exact hsound

theorem SessionOk.step {s : Session} (h : SessionOk repr json stmt sort keys s)
    (hsort : CursorSort sort) (event : Event)
    (hevent : ∀ row, event = .insert row → Keyed keys row) :
    ∃ s', s.step repr json model stmt sort size size_pos event = .ok s' ∧
      SessionOk repr json stmt sort keys s' := by
  cases event with
  | insert row => exact ⟨_, rfl, h.insert (hevent row rfl)⟩
  | delete id => exact ⟨_, rfl, h.delete id⟩
  | request =>
    by_cases hmore : s.hasNext = true
    · obtain ⟨page, hpage, hok⟩ := h.request hsort hmore
      refine ⟨_, ?_, hok⟩
      rw [Session.step, if_pos hmore, hpage]
      rfl
    · exact ⟨s, by rw [Session.step, if_neg hmore], h⟩

theorem SessionOk.run {s : Session} (h : SessionOk repr json stmt sort keys s)
    (hsort : CursorSort sort) (events : List Event)
    (hevents : ∀ row, .insert row ∈ events → Keyed keys row) :
    ∃ s', events.foldlM (Session.step repr json model stmt sort size size_pos) s = .ok s' ∧
      SessionOk repr json stmt sort keys s' := by
  induction events generalizing s with
  | nil => exact ⟨s, rfl, h⟩
  | cons event events ih =>
    obtain ⟨next, hnext, hok⟩ := h.step hsort event
      fun row hrow => hevents row (by simp [hrow])
    obtain ⟨s', hrun, hok'⟩ := ih hok fun row hrow => hevents row (List.mem_cons_of_mem _ hrow)
    refine ⟨s', ?_, hok'⟩
    rw [List.foldlM_cons, hnext]
    exact hrun

theorem Keyed.column_eq (hsort : CursorSort sort) {a b : Row} (ha : Keyed keys a)
    (hb : Keyed keys b) (hid : a.id = b.id) :
    a.column (cursorField sort) = b.column (cursorField sort) := by
  have hkeys : (a.createdAt, a.updatedAt) = (b.createdAt, b.updatedAt) := by rw [ha, hb, hid]
  obtain ⟨hcreated, hupdated⟩ := Prod.mk.inj hkeys
  have hfield : cursorField sort ∈ allowedCursorFields := by
    cases sort with
    | none => decide
    | some s => exact hsort s rfl
  simp only [allowedCursorFields, List.mem_cons, List.not_mem_nil, or_false] at hfield
  rcases hfield with h | h | h <;> simp [h, Row.column, hid, hcreated, hupdated]

theorem nodup_of_sorted (hsort : CursorSort sort) {items : List Row}
    (hsorted : items.Pairwise (Before sort)) (hkeyed : ∀ row ∈ items, Keyed keys row) :
    (items.map Row.id).Nodup := by
  apply List.pairwise_map.mpr
  apply hsorted.imp_of_mem
  intro a b ha hb hbefore hid
  have hcolumn := (hkeyed a ha).column_eq hsort (hkeyed b hb) hid
  unfold Before at hbefore
  simp only [hid, hcolumn] at hbefore
  split at hbefore <;> exact lt_irrefl _ hbefore

/-- Whatever rows come and go, no request of the walk fails, the items come in strictly
increasing order and none twice, and once `has_next` is false every row the filter keeps
that was there at each request has been returned exactly once. -/
theorem walk_exact (hsort : CursorSort sort) {table : List Row}
    (hnodup : (table.map Row.id).Nodup) (hkeyed : ∀ row ∈ table, Keyed keys row)
    (events : List Event) (hevents : ∀ row, .insert row ∈ events → Keyed keys row) :
    ∃ s, events.foldlM (Session.step repr json model stmt sort size size_pos) (.start table) =
        .ok s ∧
      s.items.Pairwise (Before sort) ∧ (s.items.map Row.id).Nodup ∧
      (s.hasNext = false → ∀ row, stmt.keeps row = true → (∀ table ∈ s.requested, row ∈ table) →
        row ∈ s.items ∧ (s.items.map Row.id).count row.id = 1) := by
  have hstart := @sessionOk_start repr json stmt sort keys table hnodup hkeyed
  obtain ⟨s, hrun, hok⟩ :=
    @SessionOk.run repr json model stmt sort size size_pos keys _ hstart hsort events hevents
  have hsorted : s.items.Pairwise (Before sort) := by
    apply hok.sound.sorted.imp
    intro a b hlt
    exact (lt_iff_before a b).mp hlt
  have hids := nodup_of_sorted hsort hsorted hok.sound.origin
  refine ⟨s, hrun, hsorted, hids, ?_⟩
  intro hdone row hkeeps hthere
  have hmem : row ∈ s.items := by
    have hkept : ∀ rows ∈ s.requested.map (List.filter stmt.keeps), row ∈ rows := by
      intro rows hrows
      obtain ⟨table, htable, rfl⟩ := List.mem_map.mp hrows
      exact List.mem_filter.mpr ⟨hthere table htable, hkeeps⟩
    rcases hok.sound.covers row hkept with hin | ⟨hmore, -⟩
    · exact hin
    · rw [hdone] at hmore
      cases hmore
  exact ⟨hmem, List.count_eq_one_of_mem hids (List.mem_map_of_mem hmem)⟩

end

section witness

def sampleModel : Model := ⟨"tickets", ["id", "created_at", "updated_at"], by simp⟩

def sampleRow (id : Nat) : Row := ⟨id, 0, 0, fun _ => 0⟩

theorem walk_exact_sample :
    ∃ s, [Event.request, .insert (sampleRow 3), .request].foldlM
        (Session.step id sampleJson sampleModel ⟨[], []⟩ none 1 (by decide))
        (.start [sampleRow 1, sampleRow 2]) = .ok s ∧
      s.items.Pairwise (Before none) ∧ (s.items.map Row.id).Nodup := by
  have hkeyed : ∀ id, Keyed (fun _ => (0, 0)) (sampleRow id) := fun _ => rfl
  obtain ⟨s, hrun, hsorted, hids, -⟩ := @walk_exact id sampleJson sampleModel ⟨[], []⟩ none 1
    (by decide) (fun _ => (0, 0)) (by rintro _ ⟨⟩) [sampleRow 1, sampleRow 2] (by decide)
    (by simp [hkeyed]) [.request, .insert (sampleRow 3), .request] (by simp [hkeyed])
  exact ⟨s, hrun, hsorted, hids⟩

end witness
end DddFramework.Paging
