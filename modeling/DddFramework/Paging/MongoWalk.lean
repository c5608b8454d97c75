import Mathlib.Data.Prod.Lex
import Mathlib.Logic.Equiv.List
import DddFramework.Paging.Loop
import DddFramework.Paging.MongoPages

/-! A walk by cursor over a MongoDB collection. A cursor leaves out the null values of its
document and is refused for it on the next request, and its filter matches no document
whose sort field is null: a walk is exact when no null is at or behind the end of its
first page. -/
namespace DddFramework.Paging.Mongo
open Library

variable {V : Type} [LinearOrder V]

/-- The order of a sort by a field: nulls are least, ties are broken by `_id`. -/
def Before (field : String) (direction : SortDirection) (a b : Document V) : Prop :=
  let key (document : Document V) : WithBot V ×ₗ V := toLex (document.rank field, document.id)
  match direction with
  | .asc => key a < key b
  | .desc => key b < key a

/-- Following the cursors from the first page ends, without an error, and has by then
returned every matching document once, in the order of the sort. -/
def Exact {ε : Type} (find : Pagination → Except Exn (Page ε)) (fromDocument : Document V → ε)
    (matching : List (Document V)) (field : String) (direction : SortDirection) (size : Nat)
    (size_pos : 0 < size) : Prop :=
  ∃ (rows : List (Document V)) (batches : List (List ε)) (enough : Nat),
    rows.Perm matching ∧ rows.Pairwise (Before field direction) ∧
    (∀ rounds, enough ≤ rounds →
      iterateBatches find rounds (.cursor ⟨none, size, size_pos⟩) = ⟨batches, .stopped⟩) ∧
    batches.flatten = rows.map fromDocument

def mongoKeyset (json : JsonUtil V) (answers : Document V → String → Filters.Mongo.Test → Bool)
    (sort : List (String × SortDirection)) : Keyset (Document V) String where
  lt := order sort
  admits cursor document :=
    match buildCursorFilter json cursor sort with
    | .ok query => query.admits answers document
    | .error _ => false
  cursorOf document := encodeCursor json document sort

section cursor
variable {json : JsonUtil V} {answers : Document V → String → Filters.Mongo.Test → Bool}
  {field : String} {direction : SortDirection} {a b : Document V}

theorem order_weak (sort : List (String × SortDirection)) :
    WeakOrder (order (V := V) sort) := by
  apply lex_weak
  intro lt hlt
  obtain ⟨⟨field, _ | _⟩, -, rfl⟩ := List.mem_map.mp hlt
  · exact WeakOrder.of_key fun document => Document.rank document field
  · exact (WeakOrder.of_key fun document => Document.rank document field).swap

theorem order_iff_before :
    order (criteria field direction) a b = true ↔ Before field direction a b := by
  unfold Before order
  by_cases hid : field = "_id"
  · subst hid
    cases direction <;>
      simp only [criteria, if_true, List.map_cons, List.map_nil, lex, comparison,
        Document.rank_id, Bool.and_false, Bool.or_false, decide_eq_true_eq,
        Prod.Lex.toLex_lt_toLex, WithBot.coe_lt_coe, WithBot.coe_inj]
    · exact ⟨.inl, fun h => h.elim id And.right⟩
    · exact ⟨.inl, fun h => h.elim id And.right⟩
  · cases direction <;>
      simp only [criteria, hid, if_false, List.map_cons, List.map_nil, lex, comparison,
        lt_or_tied, Document.rank_id, Bool.and_false, Bool.or_false, decide_eq_true_eq,
        Bool.or_eq_true, Bool.and_eq_true, Prod.Lex.toLex_lt_toLex, WithBot.coe_lt_coe]

theorem buildCursorFilter_next {value : V} (hb : b.get field = some value) :
    ∃ cursorFilter, buildCursorFilter json (encodeCursor json b (criteria field direction))
        (criteria field direction) = .ok cursorFilter ∧
      ∀ a, cursorFilter.admits answers a =
        (order (criteria field direction) b a && (a.get field).isSome) := by
  by_cases hid : field = "_id"
  · subst hid
    refine ⟨.clause [("_id", operator direction b.id)], ?_, fun a => ?_⟩
    · simp [buildCursorFilter, decodeCursor_encodeCursor, criteria, clauses, setItem, bind,
        Except.bind]
    · cases direction <;>
        simp [criteria, operator, Query.admits, clauseHolds, Test.holds, order, lex, comparison]
  · have hrank : b.rank field = (value : WithBot V) := hb
    refine ⟨.or [[(field, operator direction value)],
      [(field, .eq value), ("_id", operator direction b.id)]], ?_, fun a => ?_⟩
    · simp [buildCursorFilter, decodeCursor_encodeCursor, criteria, hid, hb, clauses, setItem,
        bind, Except.bind]
    · cases ha : a.get field with
      | none =>
        cases direction <;> simp [operator, Query.admits, clauseHolds, Test.holds, ha]
      | some stored =>
        have hrank' : a.rank field = (stored : WithBot V) := ha
        cases direction <;>
          simp [criteria, hid, operator, Query.admits, clauseHolds, Test.holds, ha, order, lex,
            comparison, lt_or_tied, hrank, hrank', eq_comm]

theorem admits_cursorOf {value : V} (hb : b.get field = some value) :
    (mongoKeyset json answers (criteria field direction)).admits
        ((mongoKeyset json answers (criteria field direction)).cursorOf b) a =
      (order (criteria field direction) b a && (a.get field).isSome) := by
  obtain ⟨cursorFilter, hok, hadmits⟩ := @buildCursorFilter_next _ _ json answers _ direction _ _
    hb
  simp [mongoKeyset, hok, hadmits]

theorem distinct_of_nodup {documents : List (Document V)}
    (h : (documents.map Document.id).Nodup) :
    Distinct (order (criteria field direction)) documents := by
  apply (List.pairwise_map.mp h).imp
  intro a b hne
  rw [order_iff_before, order_iff_before]
  have hkeys : toLex (a.rank field, a.id) ≠ toLex (b.rank field, b.id) := by
    intro heq
    exact hne (congrArg (fun key => (ofLex key).2) heq)
  cases direction with
  | asc => exact lt_or_gt_of_ne hkeys
  | desc => exact (lt_or_gt_of_ne hkeys).symm

theorem mergeFilters_admits (left right : Query V) (document : Document V) :
    (mergeFilters left right).admits answers document =
      (left.admits answers document && right.admits answers document) := by
  fun_cases mergeFilters left right with
  | case1 => simp [Query.admits, Filters.Mongo.Filter.admits]
  | case2 => simp [Query.admits, Filters.Mongo.Filter.admits]
  | case3 => rfl

end cursor

section walk
variable {json : JsonUtil V} {answers : Document V → String → Filters.Mongo.Test → Bool}
  {collection : List (Document V)} {py : Filters.Python} {filterWhitelist : String → Option String}
  {μ ε : Type} {modelValidate : Document V → μ} {fromModel : μ → ε}
  {query : Option Filters.Expression} {sort : Option Sorting} {filter : Filters.Mongo.Filter}
  {field : String} {direction : SortDirection} {size : Nat} {size_pos : 0 < size}
  {left : List (Document V)} {b : Document V}

theorem find_page (hquery : compileQuery py filterWhitelist query = .ok filter)
    (hsort : compileSort py filterWhitelist sort = .ok (criteria field direction))
    {cursor : Option String} {effective : Query V}
    (heffective : effectiveFilter json cursor (.compiled filter) (criteria field direction) =
      .ok effective)
    (hleft : found answers collection effective (criteria field direction) = left) :
    find json answers collection py filterWhitelist modelValidate fromModel query sort
        (.cursor ⟨cursor, size, size_pos⟩) =
      .ok (pageOf (fun document => encodeCursor json document (criteria field direction))
        (fromModel ∘ modelValidate) size left) := by
  simp only [find, hquery, hsort, paginate, paginateByCursor, heffective, hleft, bind,
    Except.bind, take_lookAhead, lt_length_lookAhead, decide_eq_true_eq, createPage, Page.map,
    pageOf, List.map_map]

theorem find_start (hquery : compileQuery py filterWhitelist query = .ok filter)
    (hsort : compileSort py filterWhitelist sort = .ok (criteria field direction)) :
    find json answers collection py filterWhitelist modelValidate fromModel query sort
        (.cursor ⟨none, size, size_pos⟩) =
      .ok (pageOf (fun document => encodeCursor json document (criteria field direction))
        (fromModel ∘ modelValidate) size
        (found answers collection (.compiled filter) (criteria field direction))) :=
  find_page hquery hsort rfl rfl

theorem find_refused (hquery : compileQuery py filterWhitelist query = .ok filter)
    (hsort : compileSort py filterWhitelist sort = .ok (criteria field direction))
    (hb : b.get field = none) :
    find json answers collection py filterWhitelist modelValidate fromModel query sort
        (.cursor ⟨some (encodeCursor json b (criteria field direction)), size, size_pos⟩) =
      .error (.valueError "Cursor does not match current sort.") := by
  simp only [find, hquery, hsort, paginate, paginateByCursor, effectiveFilter,
    buildCursorFilter_refused hb, bind, Except.bind]

theorem find_after (hquery : compileQuery py filterWhitelist query = .ok filter)
    (hsort : compileSort py filterWhitelist sort = .ok (criteria field direction))
    (hnodup : (collection.map Document.id).Nodup) {before : List (Document V)}
    (h : (found answers collection (.compiled filter) (criteria field direction)).filter
      (fun document => (document.get field).isSome) = before ++ b :: left) :
    find json answers collection py filterWhitelist modelValidate fromModel query sort
        (.cursor ⟨some (encodeCursor json b (criteria field direction)), size, size_pos⟩) =
      .ok (pageOf (fun document => encodeCursor json document (criteria field direction))
        (fromModel ∘ modelValidate) size left) := by
  have hdistinct : Distinct (order (criteria field direction)) (collection.filter fun document =>
      Query.admits answers document (.compiled filter)) := (distinct_of_nodup hnodup).filter _
  have hb : (b.get field).isSome = true := by
    have hmem : b ∈ before ++ b :: left := by simp
    rw [← h] at hmem
    exact (List.mem_filter.mp hmem).2
  obtain ⟨value, hvalue⟩ := Option.isSome_iff_exists.mp hb
  obtain ⟨cursorFilter, hok, hadmits⟩ := @buildCursorFilter_next _ _ json answers _ direction _ _
    hvalue
  have heffective : effectiveFilter json
      (some (encodeCursor json b (criteria field direction))) (.compiled filter)
      (criteria field direction) = .ok (mergeFilters (.compiled filter) cursorFilter) := by
    simp only [effectiveFilter, hok, bind, Except.bind]
  apply find_page hquery hsort heffective
  rw [found, ← sortBy_filter (order_weak _) hdistinct] at h
  rw [← @Keyset.ahead_cursorOf _ _ (mongoKeyset json answers (criteria field direction)) _
    (order_weak _) (hdistinct.filter _) _ _ _ h]
  · rw [Keyset.ahead, List.filter_filter, List.filter_filter]
    simp only [found]
    congr 2
    funext a
    simp only [mergeFilters_admits, hadmits, Keyset.continues, Option.all_some,
      admits_cursorOf hvalue]
    cases (a.get field).isSome <;> simp [Bool.and_comm]
  · intro a ha
    rw [admits_cursorOf hvalue, (List.mem_filter.mp ha).2, Bool.and_true]
    rfl

theorem partialCursor (hquery : compileQuery py filterWhitelist query = .ok filter)
    (hsort : compileSort py filterWhitelist sort = .ok (criteria field direction))
    (hnodup : (collection.map Document.id).Nodup) :
    PartialCursor (find json answers collection py filterWhitelist modelValidate fromModel query
        sort) size_pos (fun document => encodeCursor json document (criteria field direction))
      (fromModel ∘ modelValidate) (fun document => (document.get field).isSome)
      (found answers collection (.compiled filter) (criteria field direction)) where
  start := find_start hquery hsort
  after _ _ _ h := find_after hquery hsort hnodup h
  refused _ h := ⟨_, find_refused hquery hsort (Option.isNone_iff_eq_none.mp (by simpa using h))⟩

end walk

section nulls
variable {field : String} {direction : SortDirection} {rows : List (Document V)}

theorem nulls_first {α : Type} {good : α → Bool} {rows : List α} {k : Nat}
    (h : rows.Pairwise fun a b => good a = true → good b = true) :
    (∀ row ∈ rows.drop k, good row = true) ↔ (rows.filter fun row => !good row).length ≤ k := by
  induction rows generalizing k with
  | nil => simp
  | cons row rows ih =>
    rw [List.pairwise_cons] at h
    obtain ⟨hrow, hrows⟩ := h
    cases hgood : good row with
    | true =>
      have hall : ∀ other ∈ row :: rows, good other = true := by
        rw [List.forall_mem_cons]
        exact ⟨hgood, fun other hother => hrow other hother hgood⟩
      have hnone : (row :: rows).filter (fun row => !good row) = [] := by
        rw [List.filter_eq_nil_iff]
        intro other hother
        simp [hall other hother]
      rw [hnone]
      exact iff_of_true (fun other hother => hall other (List.mem_of_mem_drop hother))
        (Nat.zero_le k)
    | false =>
      cases k with
      | zero => simp [hgood]
      | succ k => simpa [hgood] using ih hrows

theorem nulls_last {α : Type} {good : α → Bool} {rows : List α} {k : Nat}
    (h : rows.Pairwise fun a b => good b = true → good a = true) (hk : k < rows.length) :
    (∀ row ∈ rows.drop k, good row = true) ↔ ∀ row ∈ rows, good row = true := by
  constructor
  · intro hlast row hrow
    rw [← List.take_append_drop k rows, List.pairwise_append] at h
    rw [← List.take_append_drop k rows, List.mem_append] at hrow
    obtain ⟨last, hmem⟩ := List.exists_mem_of_length_pos (l := rows.drop k)
      (by rw [List.length_drop]; omega)
    exact hrow.elim (fun hrow => h.2.2 row hrow last hmem (hlast last hmem)) (hlast row)
  · intro hall row hrow
    exact hall row (List.mem_of_mem_drop hrow)

theorem isSome_of_rank_le {a b : Document V} (h : a.rank field ≤ b.rank field)
    (ha : (a.get field).isSome = true) : (b.get field).isSome = true := by
  obtain ⟨value, hvalue⟩ := Option.isSome_iff_exists.mp ha
  have hrank : (value : WithBot V) ≤ b.rank field := by
    have hcoe : a.rank field = (value : WithBot V) := hvalue
    rwa [hcoe] at h
  obtain ⟨stored, hstored, -⟩ := WithBot.coe_le_iff.mp hrank
  have hget : b.get field = some stored := hstored
  rw [hget, Option.isSome_some]

theorem rank_le_of_lt {a b : Document V}
    (h : toLex (a.rank field, a.id) < toLex (b.rank field, b.id)) :
    a.rank field ≤ b.rank field := by
  rcases Prod.Lex.toLex_lt_toLex.mp h with hlt | ⟨heq, -⟩
  · exact hlt.le
  · exact heq.le

/-- No null is at or behind the end of the first page exactly when the sort is by `_id`, the
nulls, sorted first, all fit before that end, or, sorted last, there are none. -/
theorem clear_iff (hsorted : rows.Pairwise (Before field direction)) {size : Nat}
    (size_pos : 0 < size) (hsize : size ≤ rows.length) :
    (∀ row ∈ rows.drop (size - 1), (row.get field).isSome = true) ↔
      field = "_id" ∨
      (direction = .asc ∧ (rows.filter fun row => (row.get field).isNone).length < size) ∨
      (direction = .desc ∧ ∀ row ∈ rows, (row.get field).isSome = true) := by
  by_cases hid : field = "_id"
  · subst hid
    simp
  cases direction with
  | asc =>
    have hmono : rows.Pairwise fun a b =>
        (a.get field).isSome = true → (b.get field).isSome = true := by
      apply hsorted.imp
      intro a b hbefore
      exact isSome_of_rank_le (rank_le_of_lt hbefore)
    rw [nulls_first hmono]
    simp only [hid, Option.not_isSome, true_and, false_or, reduceCtorEq, false_and, or_false]
    omega
  | desc =>
    have hmono : rows.Pairwise fun a b =>
        (b.get field).isSome = true → (a.get field).isSome = true := by
      apply hsorted.imp
      intro a b hbefore
      exact isSome_of_rank_le (rank_le_of_lt hbefore)
    rw [nulls_last hmono (by omega)]
    simp [hid]

/-- The matching documents leave no null at or behind the end of a first page: there is no
second page, or the field is `_id`, or the nulls fit before that end where they are sorted
first, or there are none where they are sorted last. -/
def NullsClear (field : String) (direction : SortDirection) (size : Nat)
    (matching : List (Document V)) : Prop :=
  field = "_id" ∨ matching.length ≤ size ∨
    (direction = .asc ∧ (matching.filter fun row => (row.get field).isNone).length < size) ∨
    (direction = .desc ∧ ∀ row ∈ matching, (row.get field).isSome = true)

theorem nullsClear_iff (hsorted : rows.Pairwise (Before field direction))
    {matching : List (Document V)} (hperm : rows.Perm matching) {size : Nat}
    (size_pos : 0 < size) :
    (rows.length ≤ size ∨ ∀ row ∈ rows.drop (size - 1), (row.get field).isSome = true) ↔
      NullsClear field direction size matching := by
  have hnulls := (hperm.filter fun row => (row.get field).isNone).length_eq
  have hfull : (∀ row ∈ rows, (row.get field).isSome = true) ↔
      ∀ row ∈ matching, (row.get field).isSome = true :=
    forall_congr' fun row => by rw [hperm.mem_iff]
  rw [NullsClear, ← hperm.length_eq, ← hnulls, ← hfull]
  by_cases hsize : rows.length ≤ size
  · simp [hsize]
  · rw [clear_iff hsorted size_pos (by omega)]
    simp [hsize]

end nulls

section exactness
variable {json : JsonUtil V} {answers : Document V → String → Filters.Mongo.Test → Bool}
  {collection : List (Document V)} {py : Filters.Python} {filterWhitelist : String → Option String}
  {μ ε : Type} {modelValidate : Document V → μ} {fromModel : μ → ε}
  {query : Option Filters.Expression} {sort : Option Sorting} {filter : Filters.Mongo.Filter}
  {field : String} {direction : SortDirection} {rest : List (String × SortDirection)} {size : Nat}

def matching (answers : Document V → String → Filters.Mongo.Test → Bool)
    (collection : List (Document V)) (filter : Filters.Mongo.Filter) : List (Document V) :=
  collection.filter fun document => filter.admits (answers document)

theorem found_perm : (found answers collection (.compiled filter) (criteria field direction)).Perm
    (matching answers collection filter) :=
  sortBy_perm _ _

theorem found_pairwise (hnodup : (collection.map Document.id).Nodup) :
    (found answers collection (.compiled filter) (criteria field direction)).Pairwise
      (Before field direction) := by
  apply (sortBy_pairwise (order_weak _) ((distinct_of_nodup hnodup).filter _)).imp
  intro a b hlt
  exact order_iff_before.mp hlt

theorem nullsClear_of_exact (hquery : compileQuery py filterWhitelist query = .ok filter)
    (hsort : compileSort py filterWhitelist sort = .ok ((field, direction) :: rest))
    (hnodup : (collection.map Document.id).Nodup) (size_pos : 0 < size)
    (hexact : Exact (find json answers collection py filterWhitelist modelValidate fromModel query
      sort) (fromModel ∘ modelValidate) (matching answers collection filter) field direction size
      size_pos) :
    NullsClear field direction size (matching answers collection filter) := by
  obtain ⟨rows, batches, enough, hperm, -, hrun, hflatten⟩ := hexact
  have hcursor := @partialCursor _ _ json answers _ _ _ _ _ modelValidate fromModel _ _ _ _ _ size
    size_pos hquery (compileSort_eq_ok _ _ hsort) hnodup
  apply (nullsClear_iff (found_pairwise hnodup) found_perm size_pos).mp
  apply hcursor.good_of_reads_all hrun
  rw [hflatten, List.length_map, hperm.length_eq, found_perm.length_eq]

theorem exact_of_nullsClear (hquery : compileQuery py filterWhitelist query = .ok filter)
    (hsort : compileSort py filterWhitelist sort = .ok ((field, direction) :: rest))
    (hnodup : (collection.map Document.id).Nodup) (size_pos : 0 < size)
    (hclear : NullsClear field direction size (matching answers collection filter)) :
    Exact (find json answers collection py filterWhitelist modelValidate fromModel query
      sort) (fromModel ∘ modelValidate) (matching answers collection filter) field direction size
      size_pos := by
  have hcursor := @partialCursor _ _ json answers _ _ _ _ _ modelValidate fromModel _ _ _ _ _ size
    size_pos hquery (compileSort_eq_ok _ _ hsort) hnodup
  have hgood := (nullsClear_iff (found_pairwise hnodup) found_perm size_pos).mpr hclear
  refine ⟨found answers collection (.compiled filter) (criteria field direction), _, _,
    found_perm, found_pairwise hnodup, fun rounds hrounds => hcursor.reads_all hgood hrounds, ?_⟩
  rw [← List.map_flatten, chunks_flatten size_pos]

/-- The walk over an unchanged collection is exact when the nulls are clear of its page ends,
and only then. -/
theorem mongoWalk_exact_iff (hquery : compileQuery py filterWhitelist query = .ok filter)
    (hsort : compileSort py filterWhitelist sort = .ok ((field, direction) :: rest))
    (hnodup : (collection.map Document.id).Nodup) (size_pos : 0 < size) :
    Exact (find json answers collection py filterWhitelist modelValidate fromModel query sort)
        (fromModel ∘ modelValidate) (matching answers collection filter) field direction size
        size_pos ↔
      NullsClear field direction size (matching answers collection filter) :=
  ⟨nullsClear_of_exact hquery hsort hnodup size_pos,
    exact_of_nullsClear hquery hsort hnodup size_pos⟩

end exactness

section witness

def codec (payload : Payload Nat) (text : List UInt8) (hbrace : (123 : UInt8) ∈ text) :
    JsonUtil Nat where
  dumps other :=
    if other = payload then text
    else List.replicate (Encodable.encode (other.v, other.values)) 0
  loads raw :=
    if raw = text then some (.dict (some payload.v) (some payload.values))
    else (Encodable.decode (α := Int × List Nat) raw.length).map fun parts =>
      .dict (some parts.1) (some parts.2)
  loads_dumps other := by
    by_cases h : other = payload
    · simp [h]
    · have hother (n : Nat) : List.replicate n 0 ≠ text := by
        intro heq
        rw [← heq, List.mem_replicate] at hbrace
        exact absurd hbrace.2 (by decide)
      rw [if_neg h, if_neg (hother _), List.length_replicate, Encodable.encodek]
      rfl

def oneValueText : List UInt8 :=
  ("\x7b\"v\":1,\"values\":[1]\x7d").toList.map fun c => UInt8.ofNat c.toNat

def sampleJson : JsonUtil Nat := codec ⟨1, [1]⟩ oneValueText (by decide)

def deletions : List (Document Nat) :=
  [⟨1, fun _ => none⟩, ⟨2, fun field => if field = "deletedAt" then some 5 else none⟩]

theorem deletions_nullsClear_fails :
    ¬NullsClear "deletedAt" .asc 1 (matching (fun _ _ _ => true) deletions .empty) := by
  rw [NullsClear]
  decide

theorem mongoWalk_exact_iff_deletions :
    Exact (find sampleJson (fun _ _ _ => true) deletions Filters.asciiPython some id id none
        (some ⟨"deletedAt", .asc⟩)) id (matching (fun _ _ _ => true) deletions .empty)
        "deletedAt" .asc 1 Nat.one_pos ↔
      NullsClear "deletedAt" .asc 1 (matching (fun _ _ _ => true) deletions .empty) :=
  mongoWalk_exact_iff rfl rfl (by decide) Nat.one_pos

/-- Read one by one in ascending order, the first page ends with the null: its cursor is
refused. -/
theorem deletions_not_exact :
    ¬Exact (find sampleJson (fun _ _ _ => true) deletions Filters.asciiPython some id id none
        (some ⟨"deletedAt", .asc⟩)) id (matching (fun _ _ _ => true) deletions .empty)
        "deletedAt" .asc 1 Nat.one_pos := by
  intro hexact
  apply deletions_nullsClear_fails
  exact nullsClear_of_exact rfl rfl (by decide) Nat.one_pos hexact

end witness
end DddFramework.Paging.Mongo
