import QueryMachine.Function.Registry
import QueryMachine.Opcode.Basic

/-!
Instructions: an opcode, three small operands, one operand of any kind and a set of option bits.
-/

namespace QueryMachine

/-- How the columns of an index are ordered; its records have `extra` more columns. -/
structure KeyInfo where
  columns : List (Collation × Bool)
  extra : Nat
  deriving Repr, DecidableEq, Inhabited

namespace KeyInfo

def width (k : KeyInfo) : Nat := k.columns.length + k.extra

def collation (k : KeyInfo) (i : Nat) : Collation := (k.columns.getD i (.binary, false)).1

def descending (k : KeyInfo) (i : Nat) : Bool := (k.columns.getD i (.binary, false)).2

end KeyInfo

inductive Operand
  | none
  | int (n : Int)
  | wide (n : Int)
  | real (x : Double)
  | bytes (b : Bytes)
  | collation (c : Collation)
  | func (f : FuncRef)
  | key (k : KeyInfo)
  deriving Repr, DecidableEq, Inhabited

namespace Operand

def toInt : Operand → Int
  | .int n => n
  | _ => 0

def isInt : Operand → Bool
  | .int _ => true
  | _ => false

/-- The bytes of a text up to a zero byte. -/
def text? : Operand → Option Bytes
  | .bytes b => some (b.takeWhile (· != 0))
  | _ => Option.none

def collation? : Operand → Option Collation
  | .collation c => some c
  | _ => Option.none

/-- A collation, or nothing in its place. -/
def mayCollate : Operand → Bool
  | .none | .collation _ => true
  | .int n => n == 0
  | _ => false

def key? : Operand → Option KeyInfo
  | .key k => some k
  | _ => Option.none

def func? : Operand → Option FuncRef
  | .func f => some f
  | _ => Option.none

end Operand

structure Instruction where
  op : Opcode
  p1 : Int
  p2 : Int
  p3 : Int
  p4 : Operand
  p5 : Nat
  deriving Repr, DecidableEq, Inhabited

namespace Instruction

def option (i : Instruction) (bit : Nat) : Bool := i.p5.testBit bit

end Instruction

/-- What a step of a program leads to. -/
inductive Flow
  | next
  | jump (target : Int)
  /-- The run ends with a code, once the step is complete. -/
  | fail (code : Nat)
  /-- The run ends with a code at once. -/
  | leave (code : Nat)
  deriving Repr, DecidableEq, Inhabited

namespace Flow

def jumpIf (p : Bool) (target : Int) : Flow := if p then .jump target else .next

/-- Goes on after a direct rule that answered with a code. -/
def ofCode (code : Nat) : Flow := if code = 0 then .next else .fail code

end Flow

end QueryMachine
