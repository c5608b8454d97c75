import DddFramework.Filters.Agreement
import DddFramework.Paging.Batches
import DddFramework.Paging.MongoWalk

/-! One collection of records behind either repository. Where its rows and its documents hold
the same, in the same order, and every node of the query means the same of them, a client cannot
tell the back ends apart by what it reads. -/
namespace DddFramework.Paging.BackEnds
open Library
open Filters (Expression Scalar Database Python meaning)
open Mongo (Document JsonUtil criteria)
open Filters.Mongo (Comparisons)

structure SqlRepository (ε : Type) where
  json : JsonCodec
  model : Model
  filterWhitelist : List String
  search : Option (String → Filters.Clause)
  fromModel : Row → ε

structure MongoRepository (V μ ε : Type) where
  json : JsonUtil V
  filterWhitelist : String → Option String
  modelValidate : Document V → μ
  fromModel : μ → ε

/-- What the database knows of a row: how it compares values, and those that the row holds. -/
structure Stored where
  db : Database
  attributes : Row → Filters.Row

section find
variable {V μ ε : Type} [LinearOrder V] (py : Python)

def SqlRepository.columns (repository : SqlRepository ε) : Filters.Model :=
  ⟨repository.model.columns⟩

def SqlRepository.compiled (repository : SqlRepository ε) (stored : Stored)
    (query : Option Expression) : Except Exn (Option (Row → Bool)) :=
  match query with
  | none => .ok none
  | some query =>
    ((Filters.compileFilter py repository.columns repository.filterWhitelist repository.search
      query).map fun q => some fun row => decide (q.eval stored.db (stored.attributes row) = .yes))
      |>.mapError Mongo.Exn.ofCompiler

def SqlRepository.find (repository : SqlRepository ε) (stored : Stored) (table : List Row)
    (query : Option Expression) (sort : Option Sorting) (pagination : Pagination) :
    Except Exn (Page ε) := do
  let compiled ← repository.compiled py stored query
  Paging.find py.repr repository.json repository.model repository.fromModel table compiled sort
    pagination

def MongoRepository.find (repository : MongoRepository V μ ε)
    (answers : Document V → String → Filters.Mongo.Test → Bool) (collection : List (Document V))
    (query : Option Expression) (sort : Option Sorting) (pagination : Pagination) :
    Except Exn (Page ε) :=
  Mongo.find repository.json answers collection py repository.filterWhitelist
    repository.modelValidate repository.fromModel query sort pagination

end find

/-- Every node of the query is portable, at each of the records. -/
def Portable (py : Python) (comparisons : Comparisons) (fold : Char → Char)
    (columns : Filters.Model)
    (filterWhitelist : List String) (stored : Stored) (query : Option Expression)
    (records : Set Row) : Prop :=
  ∀ e ∈ query, e.Throughout Filters.NoSearch ∧ ∀ row ∈ records, e.Throughout
    (Filters.Portable stored.db comparisons fold py columns filterWhitelist
      (stored.attributes row))

section order
variable {V μ ε : Type} [LinearOrder V] {py : Python} {sql : SqlRepository ε}
  {mongo : MongoRepository V μ ε} {stored : Stored} {values : Document V → String → Option Scalar}
  {document : Row → Document V} {sort : Option Sorting} {records : Set Row} {a b : Row}

namespace StoredAlike

end StoredAlike
end order

section filters
variable {db : Database} {comparisons : Comparisons} {fold : Char → Char} {py : Python}
  {model : Filters.Model} {allowedFields : List String} {fields : String → Option String}
  {row : Filters.Row} {doc : String → Option Scalar}

end filters

section queries
variable {V μ ε : Type} [LinearOrder V] {py : Python} {sql : SqlRepository ε}
  {mongo : MongoRepository V μ ε} {stored : Stored} {values : Document V → String → Option Scalar}
  {document : Row → Document V} {query : Option Expression} {sort : Option Sorting}
  {records : Set Row} {comparisons : Comparisons} {fold : Char → Char}

end queries

section walks
variable {V μ ε : Type} [LinearOrder V] {py : Python} {sql : SqlRepository ε}
  {mongo : MongoRepository V μ ε} {stored : Stored} {values : Document V → String → Option Scalar}
  {document : Row → Document V} {query : Option Expression} {sort : Option Sorting}
  {records : Set Row} {comparisons : Comparisons} {fold : Char → Char} {table : List Row}
  {collection : List (Document V)}
  {keeps : Option (Row → Bool)} {filter : Filters.Mongo.Filter}

/-- Both back ends hold the same records, in any order, and each once. -/
structure Holds (document : Row → Document V) (records : Set Row) (table : List Row)
    (collection : List (Document V)) : Prop where
  known : ∀ row ∈ table, row ∈ records
  ids : (table.map Row.id).Nodup
  documents : collection.Perm (table.map document)

end walks

section witness

end witness
end DddFramework.Paging.BackEnds
