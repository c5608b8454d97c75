import DddFramework.Library.Keyset
import DddFramework.Paging.Page

/-! The loop over the pages of a repository that hands out its rows piece by piece. A
repository paging by cursor does so when the cursor of a row brings the rows behind it. -/
namespace DddFramework.Paging
open Library

variable {α ε : Type} {find : Pagination → Except Exn (Page ε)} {size : Nat}

/-- A repository that answers each request with the next piece of what is left, says
whether more is left and continues after that piece, is read piece by piece. -/
theorem iterateBatches_eq_chunks (hsize : 0 < size) {fromModel : α → ε}
    (At : List α → Pagination → Prop)
    (hpage : ∀ left pagination, At left pagination → ∃ page, find pagination = .ok page ∧
      page.items = (left.take size).map fromModel ∧
      page.pageMeta.hasNext = decide (size < left.length) ∧
      (size < left.length → ∃ next, nextPagination pagination page.pageMeta = .ok next ∧
        At (left.drop size) next))
    {rounds : Nat} {left : List α} {pagination : Pagination} (hat : At left pagination)
    (hrounds : left.length < rounds) :
    iterateBatches find rounds pagination =
      ⟨(chunks size left).map (List.map fromModel), .stopped⟩ := by
  induction rounds generalizing left pagination with
  | zero => omega
  | succ rounds ih =>
    obtain ⟨page, hfind, hitems, hnext, hcontinue⟩ := hpage left pagination hat
    simp only [iterateBatches, hfind, hitems]
    by_cases hnil : left = []
    · simp [hnil, chunks_nil hsize]
    · have hpos := List.length_pos_of_ne_nil hnil
      have hfull : ¬((left.take size).map fromModel).isEmpty = true := by
        simp only [List.isEmpty_iff, List.map_eq_nil_iff, List.take_eq_nil_iff, hnil, or_false]
        omega
      rw [if_neg hfull, hnext, chunks_of_ne_nil hsize hnil]
      by_cases hmore : size < left.length
      · obtain ⟨next, hnextOk, hat'⟩ := hcontinue hmore
        have hlength : (left.drop size).length < rounds := by
          rw [List.length_drop]
          omega
        simp [hmore, hnextOk, ih hat' hlength]
      · have hlast : left.drop size = [] := List.drop_eq_nil_of_le (by omega)
        simp [hmore, hlast, chunks_nil hsize]

def pageOf (cursorOf : α → String) (fromModel : α → ε) (size : Nat) (left : List α) : Page ε where
  items := (left.take size).map fromModel
  pageMeta := .cursor {
    nextCursor :=
      if size < left.length then (left.take size).getLast?.map cursorOf else none
    hasNext := decide (size < left.length)
    size := size }

theorem iterateBatches_keyset (size_pos : 0 < size) (cursorOf : α → String) {fromModel : α → ε}
    {rows left : List α} {cursor : Option String} {rounds : Nat}
    (hafter : ∀ before row left, rows = before ++ row :: left →
      find (.cursor ⟨some (cursorOf row), size, size_pos⟩) =
        .ok (pageOf cursorOf fromModel size left))
    (hpage : find (.cursor ⟨cursor, size, size_pos⟩) = .ok (pageOf cursorOf fromModel size left))
    (hleft : left <:+ rows) (hrounds : left.length < rounds) :
    iterateBatches find rounds (.cursor ⟨cursor, size, size_pos⟩) =
      ⟨(chunks size left).map (List.map fromModel), .stopped⟩ := by
  apply iterateBatches_eq_chunks size_pos (fun left pagination => left <:+ rows ∧
    ∃ cursor, pagination = .cursor ⟨cursor, size, size_pos⟩ ∧
      find pagination = .ok (pageOf cursorOf fromModel size left)) _ _ hrounds
  · rintro left _ ⟨hleft, cursor, rfl, hfind⟩
    refine ⟨_, hfind, rfl, rfl, fun hmore => ⟨_, rfl, ?_, _, rfl, ?_⟩⟩
    · exact (List.drop_suffix size left).trans hleft
    · obtain ⟨earlier, row, htake, hsplit⟩ := exists_border size_pos hmore
      obtain ⟨before, hrows⟩ := hleft
      rw [if_pos hmore, htake, List.getLast?_concat, Option.map_some]
      apply hafter (before ++ earlier)
      rw [List.append_assoc, ← hsplit, hrows]
  · exact ⟨hleft, cursor, rfl, hpage⟩

/-- Paging by cursor where a row that is not `good` has a cursor that is refused, and the
cursor of a good row brings only the good rows behind it. -/
structure PartialCursor (find : Pagination → Except Exn (Page ε)) (size_pos : 0 < size)
    (cursorOf : α → String) (fromModel : α → ε) (good : α → Bool) (rows : List α) : Prop where
  start : find (.cursor ⟨none, size, size_pos⟩) = .ok (pageOf cursorOf fromModel size rows)
  after : ∀ before row left, rows.filter good = before ++ row :: left →
    find (.cursor ⟨some (cursorOf row), size, size_pos⟩) =
      .ok (pageOf cursorOf fromModel size left)
  refused : ∀ row, good row = false →
    ∃ exn, find (.cursor ⟨some (cursorOf row), size, size_pos⟩) = .error exn

namespace PartialCursor
variable {size_pos : 0 < size} {cursorOf : α → String} {fromModel : α → ε} {good : α → Bool}
  {rows : List α} {rounds : Nat}

theorem iterateBatches_border (h : PartialCursor find size_pos cursorOf fromModel good rows)
    {earlier : List α} {row : α} (htake : rows.take size = earlier ++ [row])
    (hmore : size < rows.length) :
    iterateBatches find (rounds + 1) (.cursor ⟨none, size, size_pos⟩) =
      let rest := iterateBatches find rounds (.cursor ⟨some (cursorOf row), size, size_pos⟩)
      ⟨(rows.take size).map fromModel :: rest.batches, rest.ending⟩ := by
  have hnext : (rows.take size).getLast? = some row := by rw [htake, List.getLast?_concat]
  have hne : rows ≠ [] := List.ne_nil_of_length_pos (by omega)
  simp [iterateBatches, h.start, pageOf, hmore, PaginationMeta.hasNext, nextPagination, hnext,
    size_pos.ne', hne]

theorem iterateBatches_good (h : PartialCursor find size_pos cursorOf fromModel good rows)
    {earlier : List α} {row : α} (htake : rows.take size = earlier ++ [row])
    (hsplit : rows = earlier ++ row :: rows.drop size) (hgood : good row = true)
    (hmore : size < rows.length) (hrounds : rows.length < rounds) :
    iterateBatches find rounds (.cursor ⟨none, size, size_pos⟩) =
      ⟨(rows.take size :: chunks size ((rows.drop size).filter good)).map (List.map fromModel),
        .stopped⟩ := by
  have hfilter : rows.filter good =
      earlier.filter good ++ row :: (rows.drop size).filter good := by
    conv_lhs => rw [hsplit, List.filter_append, List.filter_cons_of_pos hgood]
  have hlength : ((rows.drop size).filter good).length < rounds - 1 := by
    have hle := List.length_filter_le good (rows.drop size)
    rw [List.length_drop] at hle
    omega
  have hsuffix : (rows.drop size).filter good <:+ rows.filter good :=
    (List.drop_suffix size rows).filter good
  have hrest := iterateBatches_keyset size_pos cursorOf h.after (h.after _ _ _ hfilter) hsuffix
    hlength
  obtain ⟨rounds, rfl⟩ := Nat.exists_eq_add_one_of_ne_zero (Nat.ne_zero_of_lt hrounds)
  rw [Nat.add_sub_cancel] at hrest
  rw [h.iterateBatches_border htake hmore, hrest]
  rfl

theorem drop_border (size_pos : 0 < size) {earlier : List α} {row : α}
    (htake : rows.take size = earlier ++ [row])
    (hsplit : rows = earlier ++ row :: rows.drop size) (hmore : size < rows.length) :
    rows.drop (size - 1) = row :: rows.drop size := by
  have hlength : (rows.take size).length = size := List.length_take_of_le hmore.le
  rw [htake, List.length_append, List.length_singleton] at hlength
  conv_lhs => rw [hsplit]
  exact List.drop_left' (by omega)

theorem reads_all (h : PartialCursor find size_pos cursorOf fromModel good rows)
    (hgood : rows.length ≤ size ∨ ∀ row ∈ rows.drop (size - 1), good row = true)
    (hrounds : rows.length < rounds) :
    iterateBatches find rounds (.cursor ⟨none, size, size_pos⟩) =
      ⟨(chunks size rows).map (List.map fromModel), .stopped⟩ := by
  by_cases hmore : size < rows.length
  · obtain ⟨earlier, row, htake, hsplit⟩ := exists_border size_pos hmore
    have hrest := hgood.resolve_left (by omega)
    rw [drop_border size_pos htake hsplit hmore, List.forall_mem_cons] at hrest
    have hne : rows ≠ [] := List.ne_nil_of_length_pos (by omega)
    rw [h.iterateBatches_good htake hsplit hrest.1 hmore hrounds,
      List.filter_eq_self.mpr hrest.2, chunks_of_ne_nil size_pos hne]
  · apply iterateBatches_eq_chunks size_pos (fun left pagination => left = rows ∧
      pagination = .cursor ⟨none, size, size_pos⟩) _ ⟨rfl, rfl⟩ hrounds
    rintro _ _ ⟨rfl, rfl⟩
    exact ⟨_, h.start, rfl, rfl, fun hmore' => absurd hmore' hmore⟩

theorem good_of_reads_all (h : PartialCursor find size_pos cursorOf fromModel good rows)
    {batches : List (List ε)} {enough : Nat}
    (hrun : ∀ rounds, enough ≤ rounds →
      iterateBatches find rounds (.cursor ⟨none, size, size_pos⟩) = ⟨batches, .stopped⟩)
    (hlength : batches.flatten.length = rows.length) :
    rows.length ≤ size ∨ ∀ row ∈ rows.drop (size - 1), good row = true := by
  by_cases hmore : size < rows.length
  case neg => exact .inl (by omega)
  case pos =>
    right
    obtain ⟨earlier, row, htake, hsplit⟩ := exists_border size_pos hmore
    rw [drop_border size_pos htake hsplit hmore, List.forall_mem_cons]
    cases hgood : good row with
    | false =>
      obtain ⟨exn, hexn⟩ := h.refused row hgood
      have hstop := hrun (enough + 1 + 1) (by omega)
      rw [h.iterateBatches_border htake hmore] at hstop
      simp [iterateBatches, hexn] at hstop
    | true =>
      refine ⟨rfl, ?_⟩
      have hstop := hrun (enough + rows.length + 1) (by omega)
      rw [h.iterateBatches_good htake hsplit hgood hmore (by omega)] at hstop
      have hbatches := congrArg Batches.batches hstop
      simp only at hbatches
      rw [← hbatches, ← List.map_flatten, List.length_map, List.flatten_cons,
        chunks_flatten size_pos, List.length_append, List.length_take_of_le hmore.le] at hlength
      apply List.length_filter_eq_length_iff.mp
      rw [List.length_drop]
      omega

end PartialCursor
end DddFramework.Paging
