import Mathlib.Data.List.Basic

/-! Pages, the parameters that ask for them and the loop that reads all of them.
A request is by page number or by cursor, and its page answers in the same terms. -/
namespace DddFramework.Paging

inductive Exn where
  | valueError (message : String)
  | typeError (message : String)
  | keyError (key : String)
  | attributeError (message : String)
  | argumentError (message : String)
deriving DecidableEq

inductive SortDirection where
  | asc
  | desc
deriving DecidableEq

structure Sorting where
  field : String
  direction : SortDirection := .asc
deriving DecidableEq

structure OffsetPagination where
  page : Nat
  page_pos : 0 < page
  size : Nat
  size_pos : 0 < size

def OffsetPagination.offset (pagination : OffsetPagination) : Nat :=
  (pagination.page - 1) * pagination.size

structure CursorPagination where
  cursor : Option String
  size : Nat
  size_pos : 0 < size

inductive Pagination where
  | offset (pagination : OffsetPagination)
  | cursor (pagination : CursorPagination)

structure OffsetMeta where
  page : Nat
  size : Nat
  total : Nat
  pages : Nat
  hasNext : Bool
  hasPrev : Bool
deriving DecidableEq

structure CursorMeta where
  nextCursor : Option String
  hasNext : Bool
  size : Nat
deriving DecidableEq

inductive PaginationMeta where
  | offset (pageMeta : OffsetMeta)
  | cursor (pageMeta : CursorMeta)
deriving DecidableEq

def PaginationMeta.hasNext : PaginationMeta → Bool
  | .offset pageMeta => pageMeta.hasNext
  | .cursor pageMeta => pageMeta.hasNext

structure Page (ε : Type) where
  items : List ε
  pageMeta : PaginationMeta

def Page.map {ε δ : Type} (page : Page ε) (convert : ε → δ) : Page δ :=
  ⟨page.items.map convert, page.pageMeta⟩

inductive PageArgs where
  | offset (total : Nat)
  | cursor (nextCursor : Option String) (hasNext : Bool)

def createPage {ε : Type} (pagination : Pagination) (items : List ε) (args : PageArgs) :
    Except Exn (Page ε) :=
  match pagination, args with
  | .offset pagination, .offset total =>
    let pages := (total + pagination.size - 1) / pagination.size
    .ok ⟨items, .offset {
      page := pagination.page
      size := pagination.size
      total := total
      pages := pages
      hasNext := decide (pagination.page < pages)
      hasPrev := decide (1 < pagination.page) }⟩
  | .offset _, .cursor _ _ => .error (.keyError "total")
  | .cursor pagination, .cursor nextCursor hasNext =>
    .ok ⟨items, .cursor ⟨nextCursor, hasNext, pagination.size⟩⟩
  | .cursor _, .offset _ => .error (.keyError "has_next")

def nextPagination (pagination : Pagination) (pageMeta : PaginationMeta) : Except Exn Pagination :=
  match pagination, pageMeta with
  | .offset pagination, .offset _ =>
    .ok (.offset ⟨pagination.page + 1, by omega, pagination.size, pagination.size_pos⟩)
  | .cursor pagination, .cursor pageMeta =>
    .ok (.cursor ⟨pageMeta.nextCursor, pagination.size, pagination.size_pos⟩)
  | .offset _, .cursor _ => .error (.valueError ("Missmatch between pagination " ++
      "(<class 'OffsetPagination'>) and meta (<class 'CursorMeta'>)."))
  | .cursor _, .offset _ => .error (.valueError ("Missmatch between pagination " ++
      "(<class 'CursorPagination'>) and meta (<class 'OffsetMeta'>)."))

/-- How the loop over the pages ended, `running` where it was not followed further. -/
inductive Ending where
  | stopped
  | raised (exn : Exn)
  | running
deriving DecidableEq

structure Batches (ε : Type) where
  batches : List (List ε)
  ending : Ending
deriving DecidableEq

/-- `iterate_batches`, followed for a number of rounds; `find` is the repository's method. -/
def iterateBatches {ε : Type} (find : Pagination → Except Exn (Page ε)) :
    Nat → Pagination → Batches ε
  | 0, _ => ⟨[], .running⟩
  | rounds + 1, pagination =>
    match find pagination with
    | .error exn => ⟨[], .raised exn⟩
    | .ok page =>
      if page.items.isEmpty then ⟨[], .stopped⟩
      else if page.pageMeta.hasNext = false then ⟨[page.items], .stopped⟩
      else
        match nextPagination pagination page.pageMeta with
        | .error exn => ⟨[page.items], .raised exn⟩
        | .ok next =>
          let rest := iterateBatches find rounds next
          ⟨page.items :: rest.batches, rest.ending⟩

end DddFramework.Paging
