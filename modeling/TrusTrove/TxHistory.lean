import Mathlib.Data.List.Basic
import Mathlib.Tactic

/-!
# The pages of the transaction history

`apps/web/hooks/useTxHistory.ts`: `fetchPage` asks Horizon for ten transactions after a cursor, and
the hook keeps the cursors it has been given in a stack. `goNext` and `goPrev` are those of the
render that shows the current page, whose data has arrived. Which item a transaction makes of its
operations, if any, is a parameter.
-/

namespace TrusTrove

/-- A transaction record of Horizon. -/
structure TxRecord where
  hash : String
  pagingToken : String
  createdAt : String
  successful : Bool
  deriving DecidableEq, Repr

structure TxPage (ι : Type) where
  items : List ι
  nextCursor : Option String
  deriving DecidableEq, Repr

/-- The state of the hook. The first page's cursor is `undefined`. -/
structure TxHistory where
  cursorStack : List (Option String)
  page : ℕ
  deriving DecidableEq, Repr

inductive TxNav
  | goNext
  | goPrev
  deriving DecidableEq, Repr

section Hook

variable {ι : Type} (transactions : Option String → List TxRecord) (item : TxRecord → Option ι)

/-- A string that is empty counts as none. -/
def truthyString (s : Option String) : Option String := s.filter (· ≠ "")

/-- `fetchPage`; `transactions` is Horizon's answer for a cursor, newest first and ten at most. -/
def fetchPage (cursor : Option String) : TxPage ι :=
  let records := transactions (truthyString cursor)
  match records.getLast? with
  | none => ⟨[], none⟩
  | some lastRecord =>
    ⟨records.filterMap item, if records.length = 10 then some lastRecord.pagingToken else none⟩

namespace TxHistory

def initial : TxHistory := ⟨[none], 0⟩

/-- The cursor of the current page. -/
def cursor (s : TxHistory) : Option String := s.cursorStack[s.page]?.join

def data (s : TxHistory) : TxPage ι := fetchPage transactions item s.cursor

def goNext (s : TxHistory) : TxHistory :=
  match truthyString (s.data transactions item).nextCursor with
  | some nextCursor => ⟨s.cursorStack ++ [some nextCursor], s.page + 1⟩
  | none => s

def goPrev (s : TxHistory) : TxHistory := if 0 < s.page then { s with page := s.page - 1 } else s

def navigate (s : TxHistory) : TxNav → TxHistory
  | .goNext => s.goNext transactions item
  | .goPrev => s.goPrev

/-- The states the calls pass through. -/
def visited : List TxNav → TxHistory → List TxHistory
  | [], s => [s]
  | nav :: navs, s => s :: visited navs (s.navigate transactions item nav)

end TxHistory

end Hook

end TrusTrove
