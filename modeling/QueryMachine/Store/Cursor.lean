import QueryMachine.Record.Reader
import QueryMachine.Store.Position
import QueryMachine.Store.Sorter

/-!
Cursors. A cursor works on a tree of the database, on a tree of its own, on the record in a register or
on a sorter.
-/

namespace QueryMachine

inductive Source
  | main (root : Int)
  /-- A tree with pages of its own. -/
  | own (t : Tree) (s : Space)
  | register (i : Int)
  | sorter (s : Sorter)
  deriving Repr, DecidableEq, Inhabited

structure Cursor where
  source : Source
  position : Position := {}
  info : Option KeyInfo := none
  isTable : Bool := false
  isOrdered : Bool := false
  /-- Entries are expected in order, so pages are filled up. -/
  bulk : Bool := false
  /-- There is no row; every column is without a value. -/
  nullRow : Bool := false
  /-- The row to go to before anything is read. -/
  deferred : Option Int := none
  seekResult : Ordering := .eq
  sequence : Int := 0
  /-- The largest row number is taken, so new ones are drawn at random. -/
  randomRowid : Bool := false
  reader : Option Reader := none
  /-- The buffer of the record, if it lies in a register. -/
  buffer : Option Nat := none
  /-- When the reader was made; zero if it must not be used any more. -/
  stamp : Nat := 0
  deriving Repr, DecidableEq, Inhabited

namespace Cursor

/-- Forgets what was read of the row. -/
def stale (c : Cursor) : Cursor := { c with stamp := 0 }

def isSorter (c : Cursor) : Bool :=
  match c.source with
  | .sorter _ => true
  | _ => false

def hasTree (c : Cursor) : Bool :=
  match c.source with
  | .register _ => false
  | _ => true

def pseudo? (c : Cursor) : Option Int :=
  match c.source with
  | .register i => some i
  | _ => none

end Cursor

end QueryMachine
