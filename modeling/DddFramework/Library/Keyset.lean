import DddFramework.Library.Ordering

/-! Keyset pagination. A page is read one row further than asked for, the surplus row
telling that there is more, and the next page starts after the last row kept. The
table may change between two requests of a walk. -/
namespace DddFramework.Library

section pages
variable {α : Type} {size : Nat} {rows : List α}

theorem take_lookAhead : (rows.take (size + 1)).take size = rows.take size := by
  rw [List.take_take]
  congr 1
  omega

theorem lt_length_lookAhead : size < (rows.take (size + 1)).length ↔ size < rows.length := by
  rw [List.length_take]
  omega

/-- A page before the last ends at a row behind which the rest begins. -/
theorem exists_border (hsize : 0 < size) (h : size < rows.length) :
    ∃ earlier row, rows.take size = earlier ++ [row] ∧
      rows = earlier ++ row :: rows.drop size := by
  have hlength : (rows.take size).length = size := List.length_take_of_le h.le
  have hne : rows.take size ≠ [] := by
    apply List.ne_nil_of_length_pos
    omega
  have htake := (List.dropLast_append_getLast hne).symm
  refine ⟨_, _, htake, ?_⟩
  conv_lhs => rw [← List.take_append_drop size rows, htake]
  simp

end pages

structure Keyset (α C : Type) where
  lt : α → α → Bool
  admits : C → α → Bool
  cursorOf : α → C

/-- Where a walk stands: the next cursor, the rows returned and whether there is more. -/
structure Walk (α C : Type) where
  cursor : Option C
  items : List α
  more : Bool

def Walk.start {α C : Type} : Walk α C := ⟨none, [], true⟩

namespace Keyset
variable {α C : Type} (k : Keyset α C)

/-- The cursor of a row admits the rows after it, among rows of the carrier. -/
structure Lawful (carrier : α → Prop) : Prop where
  weak : WeakOrder k.lt
  admits_cursorOf : ∀ {a b}, carrier a → carrier b → k.admits (k.cursorOf a) b = k.lt a b

def continues (cursor : Option C) (a : α) : Bool := cursor.all fun c => k.admits c a

def ahead (cursor : Option C) (rows : List α) : List α :=
  sortBy k.lt (rows.filter (k.continues cursor))

variable (size : Nat)

def request (w : Walk α C) (rows : List α) : Walk α C :=
  if w.more then
    let found := (k.ahead w.cursor rows).take (size + 1)
    { cursor :=
        if size < found.length then (found.take size).getLast?.map k.cursorOf else none
      items := w.items ++ found.take size
      more := decide (size < found.length) }
  else w

/-- What a walk over these tables keeps to. -/
structure Sound (carrier : α → Prop) (tables : List (List α)) (w : Walk α C) : Prop where
  sorted : w.items.Pairwise fun a b => k.lt a b = true
  origin : ∀ a ∈ w.items, carrier a
  place : w.more = true → (w.cursor = none ∧ w.items = []) ∨
    ∃ b, w.items.getLast? = some b ∧ w.cursor = some (k.cursorOf b)
  covers : ∀ a, (∀ rows ∈ tables, a ∈ rows) → a ∈ w.items ∨
    w.more = true ∧ k.continues w.cursor a = true

section page
variable {k size} {carrier : α → Prop} {rows : List α} {cursor : Option C}

theorem mem_ahead {a : α} : a ∈ k.ahead cursor rows ↔ a ∈ rows ∧ k.continues cursor a = true := by
  rw [ahead, mem_sortBy, List.mem_filter]

theorem ahead_pairwise (lawful : k.Lawful carrier) (hrows : Distinct k.lt rows) :
    (k.ahead cursor rows).Pairwise fun a b => k.lt a b = true :=
  sortBy_pairwise lawful.weak (hrows.filter _)

theorem request_of_more {w : Walk α C} (h : w.more = true) :
    k.request size w rows =
      { cursor := if size < (k.ahead w.cursor rows).length then
          ((k.ahead w.cursor rows).take size).getLast?.map k.cursorOf else none
        items := w.items ++ (k.ahead w.cursor rows).take size
        more := decide (size < (k.ahead w.cursor rows).length) } := by
  rw [request, if_pos h]
  simp only [take_lookAhead, lt_length_lookAhead]

theorem request_of_done {w : Walk α C} (h : w.more = false) : k.request size w rows = w := by
  simp [request, h]

theorem exists_last_of_full {found : List α} (hsize : 0 < size) (hfull : size < found.length)
    (hsorted : found.Pairwise fun a b => k.lt a b = true) :
    ∃ b, (found.take size).getLast? = some b ∧ ∀ a ∈ found.drop size, k.lt b a = true := by
  obtain ⟨earlier, b, htake, hfound⟩ := exists_border hsize hfull
  rw [hfound, List.pairwise_append, List.pairwise_cons] at hsorted
  exact ⟨b, by rw [htake, List.getLast?_concat], hsorted.2.1.1⟩

end page

section walk
variable {k size} {carrier : α → Prop}

theorem sound_start : k.Sound carrier [] Walk.start where
  sorted := List.Pairwise.nil
  origin := by simp [Walk.start]
  place := fun _ => .inl ⟨rfl, rfl⟩
  covers := fun _ _ => .inr ⟨rfl, rfl⟩

/-- Every row already returned comes before every row a cursor still admits. -/
theorem Sound.before {tables : List (List α)} {w : Walk α C} (h : k.Sound carrier tables w)
    (lawful : k.Lawful carrier) (hmore : w.more = true) {a b : α} (ha : a ∈ w.items)
    (hb : carrier b) (hnext : k.continues w.cursor b = true) : k.lt a b = true := by
  rcases h.place hmore with ⟨-, hnone⟩ | ⟨last, hlast, hcursor⟩
  · rw [hnone] at ha
    cases ha
  · obtain ⟨earlier, hitems⟩ := List.getLast?_eq_some_iff.mp hlast
    have hlt : k.lt last b = true := by
      rw [← lawful.admits_cursorOf (h.origin last (by simp [hitems])) hb]
      simpa [continues, hcursor] using hnext
    have hsorted := h.sorted
    rw [hitems, List.pairwise_append] at hsorted
    rw [hitems, List.mem_append, List.mem_singleton] at ha
    rcases ha with ha | rfl
    · exact lawful.weak.trans (hsorted.2.2 a ha last (by simp)) hlt
    · exact hlt

theorem Sound.request {tables : List (List α)} {w : Walk α C} (h : k.Sound carrier tables w)
    (lawful : k.Lawful carrier) (hsize : 0 < size) {rows : List α} (hrows : Distinct k.lt rows)
    (hcarrier : ∀ a ∈ rows, carrier a) :
    k.Sound carrier (tables ++ [rows]) (k.request size w rows) := by
  by_cases hmore : w.more = true
  case neg =>
    rw [request_of_done (by simpa using hmore)]
    refine ⟨h.sorted, h.origin, h.place, fun a ha => h.covers a fun rows hrows => ?_⟩
    exact ha rows (List.mem_append_left _ hrows)
  case pos =>
    have hsorted : (k.ahead w.cursor rows).Pairwise _ := ahead_pairwise lawful hrows
    rw [request_of_more hmore]
    constructor
    · apply List.pairwise_append.mpr
      refine ⟨h.sorted, hsorted.take, ?_⟩
      intro a ha b hb
      obtain ⟨hin, hnext⟩ := mem_ahead.mp (List.mem_of_mem_take hb)
      exact h.before lawful hmore ha (hcarrier b hin) hnext
    · intro a ha
      rcases List.mem_append.mp ha with hold | hnew
      · exact h.origin a hold
      · exact hcarrier a (mem_ahead.mp (List.mem_of_mem_take hnew)).1
    · intro hfull
      have hlt : size < (k.ahead w.cursor rows).length := of_decide_eq_true hfull
      obtain ⟨b, hlast, -⟩ := exists_last_of_full hsize hlt hsorted
      right
      refine ⟨b, ?_, by simp [hlt, hlast]⟩
      simp [List.getLast?_append, hlast]
    · intro a ha
      rcases h.covers a fun rows hrows => ha rows (List.mem_append_left _ hrows) with
        hold | ⟨-, hnext⟩
      · exact .inl (List.mem_append_left _ hold)
      · have hrow : a ∈ rows := ha rows (by simp)
        have hahead : a ∈ k.ahead w.cursor rows := mem_ahead.mpr ⟨hrow, hnext⟩
        rw [← List.take_append_drop size (k.ahead w.cursor rows), List.mem_append] at hahead
        rcases hahead with hkept | hleft
        · exact .inl (List.mem_append_right _ hkept)
        · right
          have hlt : size < (k.ahead w.cursor rows).length := by
            have := List.length_pos_of_mem hleft
            rw [List.length_drop] at this
            omega
          obtain ⟨b, hlast, hafter⟩ := exists_last_of_full hsize hlt hsorted
          have hb := List.mem_of_getLast? hlast
          have hbrow := (mem_ahead.mp (List.mem_of_mem_take hb)).1
          refine ⟨decide_eq_true hlt, ?_⟩
          simp only [hlt, if_true, hlast, Option.map_some, continues, Option.all_some]
          rw [lawful.admits_cursorOf (hcarrier b hbrow) (hcarrier a hrow)]
          exact hafter a hleft

end walk

section unchanged
variable {k} {rows : List α}

theorem ahead_none : k.ahead none rows = sortBy k.lt rows := by
  rw [ahead]
  congr 1
  apply List.filter_eq_self.mpr
  intro a _
  rfl

theorem ahead_cursorOf (weak : WeakOrder k.lt) (hrows : Distinct k.lt rows)
    {before after : List α} {b : α} (h : sortBy k.lt rows = before ++ b :: after)
    (hadmits : ∀ a ∈ rows, k.admits (k.cursorOf b) a = k.lt b a) :
    k.ahead (some (k.cursorOf b)) rows = after := by
  have hadmits' : ∀ a ∈ sortBy k.lt rows, k.continues (some (k.cursorOf b)) a = k.lt b a :=
    fun a ha => hadmits a (mem_sortBy.mp ha)
  have hsorted := sortBy_pairwise weak hrows
  rw [ahead, sortBy_filter weak hrows]
  rw [h] at hadmits' hsorted ⊢
  rw [List.pairwise_append, List.pairwise_cons] at hsorted
  obtain ⟨-, ⟨hafter, -⟩, hbefore⟩ := hsorted
  have hsplit : before ++ b :: after = (before ++ [b]) ++ after := by simp
  have hstops : ∀ a ∈ before ++ [b], k.continues (some (k.cursorOf b)) a = false := by
    intro a ha
    have hle : k.lt b a = false := by
      rcases List.mem_append.mp ha with ha | ha
      · exact weak.asymm (hbefore a ha b (by simp))
      · rw [List.mem_singleton.mp ha]
        exact weak.irrefl b
    rw [hadmits' a (hsplit ▸ List.mem_append_left _ ha), hle]
  have hgoes : ∀ a ∈ after, k.continues (some (k.cursorOf b)) a = true := by
    intro a ha
    rw [hadmits' a (by simp [ha]), hafter a ha]
  rw [hsplit, List.filter_append, List.filter_eq_self.mpr hgoes,
    List.filter_eq_nil_iff.mpr fun a ha => by simp [hstops a ha], List.nil_append]

end unchanged
end Keyset

def chunks {α : Type} (size : Nat) (rows : List α) : List (List α) :=
  (List.range ((rows.length + size - 1) / size)).map fun i => (rows.drop (i * size)).take size

section chunks
variable {α : Type} {size : Nat} {rows : List α}

@[simp] theorem chunks_nil (h : 0 < size) : chunks size ([] : List α) = [] := by
  simp only [chunks, List.length_nil, List.map_eq_nil_iff, List.range_eq_nil]
  exact Nat.div_eq_of_lt (by omega)

theorem chunks_length : (chunks size rows).length = (rows.length + size - 1) / size := by
  simp [chunks]

theorem chunks_of_ne_nil (h : 0 < size) (hne : rows ≠ []) :
    chunks size rows = rows.take size :: chunks size (rows.drop size) := by
  have hpos := List.length_pos_of_ne_nil hne
  have hcount : (rows.length + size - 1) / size =
      (rows.length - size + size - 1) / size + 1 := by
    by_cases hle : rows.length ≤ size
    · have hzero : rows.length - size + size - 1 = size - 1 := by omega
      rw [hzero, Nat.div_eq_of_lt (by omega : size - 1 < size)]
      exact Nat.div_eq_of_lt_le (by omega) (by omega)
    · have hsplit : rows.length + size - 1 = rows.length - size + size - 1 + size := by omega
      rw [hsplit, Nat.add_div_right _ h]
  rw [chunks, hcount, List.range_succ_eq_map, List.map_cons, List.map_map, chunks,
    List.length_drop]
  simp only [Nat.zero_mul, List.drop_zero, List.cons.injEq, true_and]
  apply List.map_congr_left
  intro i _
  rw [Function.comp_apply, List.drop_drop, Nat.succ_eq_add_one, Nat.add_mul, Nat.one_mul,
    Nat.add_comm]

theorem chunks_flatten (h : 0 < size) : (chunks size rows).flatten = rows := by
  induction hn : rows.length using Nat.strong_induction_on generalizing rows with
  | _ n ih =>
    by_cases hne : rows = []
    · rw [hne, chunks_nil h, List.flatten_nil]
    · have hpos := List.length_pos_of_ne_nil hne
      have hrest := ih (rows.drop size).length (by rw [List.length_drop]; omega) rfl
      rw [chunks_of_ne_nil h hne, List.flatten_cons, hrest, List.take_append_drop]

end chunks
end DddFramework.Library
