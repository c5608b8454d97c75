import DddFramework.Paging.KeysetWalk
import DddFramework.Paging.Loop

/-! Reading a whole table in batches. By page number the loop stops on arithmetic over
the total, by cursor on the surplus row; over an unchanged table both cut the sorted
rows into the same pieces. -/
namespace DddFramework.Paging
open Library

/-- `SqlAlchemyRepository.find`; `query` is the compiled filter, when there is one. -/
def find {ε : Type} (repr : String → String) (json : JsonCodec) (model : Model)
    (fromModel : Row → ε) (table : List Row) (query : Option (Row → Bool))
    (sort : Option Sorting) (pagination : Pagination) : Except Exn (Page ε) :=
  paginate repr json model table ⟨query.toList, []⟩ pagination fromModel sort

section strategies
variable {ε : Type} {repr : String → String} {json : JsonCodec} {model : Model}
  {fromModel : Row → ε} {table : List Row} {query : Option (Row → Bool)}
  {sort : Option Sorting} {size : Nat}

def sortedRows (repr : String → String) (json : JsonCodec) (table : List Row)
    (query : Option (Row → Bool)) (sort : Option Sorting) : List Row :=
  sortBy (sqlKeyset repr json sort).lt (table.filter (Select.keeps ⟨query.toList, []⟩))

theorem sortedRows_pairwise (hnodup : (table.map Row.id).Nodup) :
    (sortedRows repr json table query sort).Pairwise (Before sort) := by
  have hdistinct : Distinct (sqlKeyset repr json sort).lt table := distinct_of_nodup hnodup
  apply (sortBy_pairwise sqlKeyset_weak (hdistinct.filter _)).imp
  intro a b hlt
  exact (lt_iff_before a b).mp hlt

def OffsetAt (rows : List Row) (size : Nat) (left : List Row) : Pagination → Prop
  | .offset request =>
    request.size = size ∧ left = rows.drop request.offset ∧ request.offset ≤ rows.length
  | .cursor _ => False

theorem page_lt_pages {page size total : Nat} (hsize : 0 < size) :
    page < (total + size - 1) / size ↔ page * size < total := by
  rw [Nat.lt_iff_add_one_le, Nat.le_div_iff_mul_le hsize, Nat.add_mul, Nat.one_mul]
  omega

theorem length_sortedRows : (sortedRows repr json table query sort).length =
    (table.filter (Select.keeps ⟨query.toList, []⟩)).length :=
  (sortBy_perm _ _).length_eq

theorem paginateByOffset_eq (hsort : CursorSort sort) (request : OffsetPagination) :
    paginateByOffset repr model table ⟨query.toList, []⟩ request sort =
      .ok (((sortedRows repr json table query sort).drop request.offset).take request.size,
        (sortedRows repr json table query sort).length) := by
  rw [paginateByOffset, applySorting_eq hsort, length_sortedRows]
  rfl

theorem offset_page (hsort : CursorSort sort) {left : List Row} {pagination : Pagination}
    (hat : OffsetAt (sortedRows repr json table query sort) size left pagination) :
    ∃ page, find repr json model fromModel table query sort pagination = .ok page ∧
      page.items = (left.take size).map fromModel ∧
      page.pageMeta.hasNext = decide (size < left.length) ∧
      (size < left.length → ∃ next, nextPagination pagination page.pageMeta = .ok next ∧
        OffsetAt (sortedRows repr json table query sort) size (left.drop size) next) := by
  cases pagination with
  | cursor request => exact hat.elim
  | offset request =>
    obtain ⟨rfl, rfl, hbound⟩ := hat
    have hsize := request.size_pos
    have hnext : request.page * request.size = request.offset + request.size := by
      rw [OffsetPagination.offset, Nat.sub_mul, Nat.one_mul, Nat.sub_add_cancel]
      exact Nat.le_mul_of_pos_left _ request.page_pos
    have hfind : find repr json model fromModel table query sort (.offset request) =
        createPage (.offset request) ((((sortedRows repr json table query sort).drop
          request.offset).take request.size).map fromModel)
          (.offset (sortedRows repr json table query sort).length) := by
      rw [find, paginate, @paginateByOffset_eq repr json model table query sort hsort]
      rfl
    rw [hfind]
    refine ⟨_, rfl, rfl, ?_, fun hmore => ⟨_, rfl, rfl, ?_, ?_⟩⟩
    · rw [PaginationMeta.hasNext, decide_eq_decide, page_lt_pages hsize, hnext, List.length_drop]
      omega
    · rw [List.drop_drop, ← hnext]
      rfl
    · rw [List.length_drop] at hmore
      have hoffset : (request.page + 1 - 1) * request.size = request.offset + request.size := hnext
      rw [OffsetPagination.offset, hoffset]
      omega

theorem cursor_page (hsort : CursorSort sort) (request : CursorPagination) {left : List Row}
    (hissued : Issued repr json sort request.cursor)
    (hleft : (sqlKeyset repr json sort).ahead request.cursor
      (table.filter (Select.keeps ⟨query.toList, []⟩)) = left) :
    find repr json model fromModel table query sort (.cursor request) =
      .ok (pageOf (sqlKeyset repr json sort).cursorOf fromModel request.size left) := by
  rw [find, paginate, paginateByCursor_eq hsort hissued hleft]
  rfl

theorem cursor_page_after (hsort : CursorSort sort) (hnodup : (table.map Row.id).Nodup)
    (size_pos : 0 < size) {before left : List Row} {row : Row}
    (h : sortedRows repr json table query sort = before ++ row :: left) :
    find repr json model fromModel table query sort
        (.cursor ⟨some ((sqlKeyset repr json sort).cursorOf row), size, size_pos⟩) =
      .ok (pageOf (sqlKeyset repr json sort).cursorOf fromModel size left) := by
  have hdistinct : Distinct (sqlKeyset repr json sort).lt
      (table.filter (Select.keeps ⟨query.toList, []⟩)) := (distinct_of_nodup hnodup).filter _
  apply cursor_page hsort
  · intro c hc
    exact ⟨row, (Option.some.inj hc).symm⟩
  · apply Keyset.ahead_cursorOf sqlKeyset_weak hdistinct h
    intro a _
    exact sqlKeyset_lawful.admits_cursorOf trivial trivial

/-- Started at the first page, both strategies end after the same batches: the rows of the
filtered table in the order of the sort, in as many pieces as it takes. -/
theorem iterateBatches_agree (hsort : CursorSort sort) (hnodup : (table.map Row.id).Nodup)
    (size_pos : 0 < size) :
    ∃ rows batches, rows.Perm (table.filter fun row => query.all fun keeps => keeps row) ∧
      rows.Pairwise (Before sort) ∧
      (∀ rounds, rows.length < rounds →
        iterateBatches (find repr json model fromModel table query sort) rounds
          (.offset ⟨1, Nat.one_pos, size, size_pos⟩) = ⟨batches, .stopped⟩ ∧
        iterateBatches (find repr json model fromModel table query sort) rounds
          (.cursor ⟨none, size, size_pos⟩) = ⟨batches, .stopped⟩) ∧
      batches.flatten = rows.map fromModel ∧
      batches.length = (rows.length + size - 1) / size ∧ (rows = [] → batches = []) := by
  refine ⟨sortedRows repr json table query sort,
    (chunks size (sortedRows repr json table query sort)).map (List.map fromModel),
    ?_, sortedRows_pairwise hnodup, fun rounds hrounds => ⟨?_, ?_⟩, ?_, ?_, ?_⟩
  · have hkeeps : (fun row => query.all fun keeps => keeps row) =
        Select.keeps ⟨query.toList, []⟩ := by
      funext row
      cases query <;> simp [Select.keeps]
    rw [hkeeps]
    exact sortBy_perm _ _
  · apply iterateBatches_eq_chunks size_pos (OffsetAt (sortedRows repr json table query sort) size)
      _ _ hrounds
    · intro left pagination hat
      exact offset_page hsort hat
    · exact ⟨rfl, by simp [OffsetPagination.offset], by simp [OffsetPagination.offset]⟩
  · apply iterateBatches_keyset size_pos (sqlKeyset repr json sort).cursorOf
      (fun _ _ _ => cursor_page_after hsort hnodup size_pos) _ (List.suffix_refl _) hrounds
    apply cursor_page hsort
    · intro c hc
      cases hc
    · exact Keyset.ahead_none
  · rw [← List.map_flatten, chunks_flatten size_pos]
  · rw [List.length_map, chunks_length]
  · intro hnil
    rw [hnil, chunks_nil size_pos, List.map_nil]

end strategies

theorem iterateBatches_agree_sample :
    ∃ rows batches, rows.Perm [sampleRow 1, sampleRow 2, sampleRow 3] ∧
      rows.Pairwise (Before (some ⟨"created_at", .asc⟩)) ∧
      (∀ rounds, rows.length < rounds →
        iterateBatches (find id sampleJson sampleModel Row.id
            [sampleRow 1, sampleRow 2, sampleRow 3] none (some ⟨"created_at", .asc⟩)) rounds
          (.offset ⟨1, Nat.one_pos, 2, Nat.two_pos⟩) = ⟨batches, .stopped⟩ ∧
        iterateBatches (find id sampleJson sampleModel Row.id
            [sampleRow 1, sampleRow 2, sampleRow 3] none (some ⟨"created_at", .asc⟩)) rounds
          (.cursor ⟨none, 2, Nat.two_pos⟩) = ⟨batches, .stopped⟩) ∧
      batches.flatten = rows.map Row.id ∧ batches.length = (rows.length + 2 - 1) / 2 ∧
      (rows = [] → batches = []) := by
  have hsort : CursorSort (some ⟨"created_at", .asc⟩) := by
    intro s hs
    cases hs
    decide
  exact @iterateBatches_agree Nat id sampleJson sampleModel Row.id
    [sampleRow 1, sampleRow 2, sampleRow 3] none (some ⟨"created_at", .asc⟩) 2 hsort (by decide)
    Nat.two_pos

end DddFramework.Paging
