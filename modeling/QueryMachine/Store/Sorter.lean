import QueryMachine.Record.Order

/-!
Sorters: records are put in and come out in order. Records that are level come out in the order in
which they were put in.
-/

namespace QueryMachine

structure Sorter where
  info : KeyInfo
  /-- Before sorting, the record that was put in last is the first one. -/
  rows : List Bytes := []
  deriving Repr, DecidableEq, Inhabited

namespace Sorter

/-- A sorter by the first `n` columns, or by all of them. -/
def ofKey (info : KeyInfo) (n : Int) : Sorter :=
  { info := if n = 0 then info else { info with columns := info.columns.take n.toNat } }

def insert (s : Sorter) (record : Bytes) : Sorter := { s with rows := record :: s.rows }

def key (s : Sorter) (record : Bytes) : SearchKey :=
  let k := SearchKey.ofRecord s.info record
  { k with cells := k.cells.take s.info.columns.length }

def le (s : Sorter) (a b : Bytes) : Bool := (s.key b).compare a != some .gt

def sort (s : Sorter) : Sorter := { s with rows := s.rows.reverse.mergeSort s.le }

def current (s : Sorter) : Bytes := s.rows.headD []

def next (s : Sorter) : Bool × Sorter := (1 < s.rows.length, { s with rows := s.rows.tail })

end Sorter

end QueryMachine
