import DddFramework.Paging.MongoWalk

/-! The filter of a cursor for a sort by any number of fields: it matches just the documents
whose keys come after those of the cursor's document. -/
namespace DddFramework.Paging.Mongo
open Library
variable {V : Type}

abbrev Document.values (document : Document V) (sort : List (String × SortDirection)) : List V :=
  sort.filterMap fun criterion => document.get criterion.1

/-- The key of a document in a sort, each value with the direction of its field. -/
def Document.key (document : Document V) (sort : List (String × SortDirection)) :
    List (SortDirection × V) :=
  sort.filterMap fun (field, direction) => (document.get field).map fun value => (direction, value)

def Document.Has (document : Document V) (sort : List (String × SortDirection)) : Prop :=
  ∀ criterion ∈ sort, (document.get criterion.1).isSome

theorem Document.Has.cons {document : Document V} {field : String} {direction : SortDirection}
    {sort : List (String × SortDirection)} (h : document.Has ((field, direction) :: sort)) :
    (∃ value, document.get field = some value) ∧ document.Has sort :=
  ⟨Option.isSome_iff_exists.mp (h _ List.mem_cons_self),
    fun other hother => h other (List.mem_cons_of_mem _ hother)⟩

theorem key_cons {document : Document V} {field : String} {value : V}
    (h : document.get field = some value) (direction : SortDirection)
    (sort : List (String × SortDirection)) :
    document.key ((field, direction) :: sort) = (direction, value) :: document.key sort := by
  simp [Document.key, h]

theorem Document.Has.length_eq {document : Document V} {sort : List (String × SortDirection)}
    (h : document.Has sort) :
    (document.values sort).length = sort.length := by
  induction sort with
  | nil => rfl
  | cons criterion sort ih =>
    obtain ⟨⟨value, hvalue⟩, hrest⟩ := h.cons
    simp [hvalue, ih hrest]

variable [LinearOrder V]

def Precedes : SortDirection × V → SortDirection × V → Prop
  | (.asc, value), (_, other) => value < other
  | (.desc, value), (_, other) => other < value

/-- What the clauses say together: the first field that is not equal decides. -/
def beyond (document : Document V) : List ((String × SortDirection) × V) → Bool
  | [] => false
  | ((field, direction), value) :: rest =>
    (operator direction value).holds (document.get field) ||
      ((Test.eq value).holds (document.get field) && beyond document rest)

theorem clauseHolds_concat (document : Document V) (tests : List (String × Test V))
    (field : String) (test : Test V) :
    clauseHolds document (tests ++ [(field, test)]) =
      (clauseHolds document tests && test.holds (document.get field)) := by
  simp only [clauseHolds, List.all_append, List.all_cons, List.all_nil, Bool.and_true]

theorem clauses_any (document : Document V) {previous : List (String × Test V)}
    {pairs : List ((String × SortDirection) × V)}
    (hnodup : (previous.map Prod.fst ++ pairs.map fun pair => pair.1.1).Nodup) :
    (clauses previous pairs).any (clauseHolds document) =
      (clauseHolds document previous && beyond document pairs) := by
  induction pairs generalizing previous with
  | nil => simp [clauses, beyond]
  | cons pair rest ih =>
    obtain ⟨⟨field, direction⟩, value⟩ := pair
    have hfield : field ∉ previous.map Prod.fst := by
      intro hmem
      exact (List.nodup_append.mp hnodup).2.2 field hmem field (by simp) rfl
    have hrest : ((previous ++ [(field, Test.eq value)]).map Prod.fst ++
        rest.map fun pair => pair.1.1).Nodup := by
      simpa using hnodup
    rw [clauses, setItem_of_notMem hfield, setItem_of_notMem hfield, List.any_cons, ih hrest,
      clauseHolds_concat, clauseHolds_concat, beyond, Bool.and_assoc, ← Bool.and_or_distrib_left]

theorem operator_holds (direction : SortDirection) (value stored : V) :
    (operator direction value).holds (some stored) = true ↔
      Precedes (direction, value) (direction, stored) := by
  cases direction <;> simp [operator, Test.holds, Precedes]

theorem eq_holds (value stored : V) :
    (Test.eq value).holds (some stored) = true ↔ value = stored := by
  rw [Test.holds, decide_eq_true_eq, eq_comm]

theorem beyond_iff_lex {document last : Document V} {sort : List (String × SortDirection)}
    (hdocument : document.Has sort) (hlast : last.Has sort) :
    beyond document (sort.zip (last.values sort)) = true ↔
      List.Lex Precedes (last.key sort) (document.key sort) := by
  induction sort with
  | nil => simp [beyond, Document.key]
  | cons criterion sort ih =>
    obtain ⟨field, direction⟩ := criterion
    obtain ⟨⟨stored, hstored⟩, hdocumentRest⟩ := hdocument.cons
    obtain ⟨⟨value, hvalue⟩, hlastRest⟩ := hlast.cons
    have hrest := ih hdocumentRest hlastRest
    have hvalues : last.values ((field, direction) :: sort) = value :: last.values sort :=
      List.filterMap_cons_some hvalue
    rw [key_cons hstored, key_cons hvalue, List.cons_lex_cons_iff, hvalues, List.zip_cons_cons,
      beyond, hstored, Bool.or_eq_true, Bool.and_eq_true, operator_holds, eq_holds, hrest,
      Prod.mk.injEq, and_iff_right rfl]

/-- What comes after a document in the sort itself. -/
theorem order_iff_lex {document last : Document V} {sort : List (String × SortDirection)}
    (hdocument : document.Has sort) (hlast : last.Has sort) :
    order sort last document = true ↔
      List.Lex Precedes (last.key sort) (document.key sort) := by
  induction sort with
  | nil => simp [order, lex, Document.key]
  | cons criterion sort ih =>
    obtain ⟨field, direction⟩ := criterion
    obtain ⟨⟨stored, hstored⟩, hdocumentRest⟩ := hdocument.cons
    obtain ⟨⟨value, hvalue⟩, hlastRest⟩ := hlast.cons
    have hrest := ih hdocumentRest hlastRest
    have hdocumentRank : document.rank field = (stored : WithBot V) := hstored
    have hlastRank : last.rank field = (value : WithBot V) := hvalue
    rw [key_cons hstored, key_cons hvalue, List.cons_lex_cons_iff, ← hrest]
    cases direction
    · simp [order, lex, comparison, lt_or_tied, hdocumentRank, hlastRank, Precedes]
    · simp [order, lex, comparison, lt_or_tied, hdocumentRank, hlastRank, Precedes,
        @eq_comm _ stored value]

theorem buildCursorFilter_eq_ok (json : JsonUtil V)
    (answers : Document V → String → Filters.Mongo.Test → Bool) {last : Document V}
    {sort : List (String × SortDirection)} (hlast : last.Has sort) :
    ∃ query, buildCursorFilter json (encodeCursor json last sort) sort = .ok query ∧
      ∀ document, query.admits answers document =
        (clauses [] (sort.zip (last.values sort))).any (clauseHolds document) := by
  simp only [buildCursorFilter, decodeCursor_encodeCursor, bind, Except.bind]
  rw [if_neg (not_not.mpr hlast.length_eq)]
  generalize clauses [] (sort.zip (last.values sort)) = built
  cases built with
  | nil => exact ⟨.or [], rfl, fun _ => rfl⟩
  | cons clause rest =>
    cases rest with
    | nil => exact ⟨.clause clause, rfl, fun _ => by simp [Query.admits]⟩
    | cons second rest => exact ⟨.or (clause :: second :: rest), rfl, fun _ => rfl⟩

/-- The filter of a cursor is the strict lexicographic order of the sort, each field in its
direction. `V` orders the scalars of all types, so that each field may have its own. -/
theorem cursorFilter_iff_lex (json : JsonUtil V)
    (answers : Document V → String → Filters.Mongo.Test → Bool) {document last : Document V}
    {criterion : String × SortDirection} {rest : List (String × SortDirection)}
    (hfields : ((criterion :: rest).map Prod.fst).Nodup)
    (hdocument : document.Has (criterion :: rest)) (hlast : last.Has (criterion :: rest)) :
    ∃ query, buildCursorFilter json (encodeCursor json last (criterion :: rest))
        (criterion :: rest) = .ok query ∧
      (query.admits answers document = true ↔
        List.Lex Precedes (last.key (criterion :: rest)) (document.key (criterion :: rest))) := by
  generalize criterion :: rest = sort at *
  obtain ⟨query, hquery, hadmits⟩ := buildCursorFilter_eq_ok json answers hlast
  refine ⟨query, hquery, ?_⟩
  have hnames : (sort.zip (last.values sort)).map (fun pair => pair.1.1) = sort.map Prod.fst := by
    calc
      _ = ((sort.zip (last.values sort)).map Prod.fst).map Prod.fst := by
        rw [List.map_map]
        rfl
      _ = sort.map Prod.fst := by rw [List.map_fst_zip hlast.length_eq.ge]
  rw [← hnames] at hfields
  have hany : (clauses [] (sort.zip (last.values sort))).any (clauseHolds document) =
      beyond document (sort.zip (last.values sort)) := clauses_any document hfields
  rw [hadmits, hany, beyond_iff_lex hdocument hlast]

def threeValuesText : List UInt8 :=
  ("\x7b\"v\":1,\"values\":[30,7,1]\x7d").toList.map fun c => UInt8.ofNat c.toNat

theorem cursorFilter_iff_lex_threeValues :
    ∃ query, buildCursorFilter (codec ⟨1, [30, 7, 1]⟩ threeValuesText (by decide))
        (encodeCursor (codec ⟨1, [30, 7, 1]⟩ threeValuesText (by decide))
          ⟨1, fun field => if field = "age" then some 30 else some 7⟩
          [("age", .asc), ("city", .desc), ("_id", .asc)])
        [("age", .asc), ("city", .desc), ("_id", .asc)] = .ok query ∧
      (query.admits (fun _ _ _ => true)
          ⟨2, fun field => if field = "age" then some 30 else some 5⟩ = true ↔
        List.Lex Precedes [(.asc, 30), (.desc, 7), (.asc, 1)]
          [(.asc, 30), (.desc, 5), (.asc, 2)]) :=
  cursorFilter_iff_lex _ _ (by decide) (by simp [Document.Has, Document.get])
    (by simp [Document.Has, Document.get])

end DddFramework.Paging.Mongo
