import QueryMachine.Bank.Register
import QueryMachine.Number.Short

/-!
A register in one line of text, for people who look at a run.
-/

namespace QueryMachine.Bank

def describeNumber : Number → String
  | .int n => toString n
  | .real x => Decimal.short x

def describe (i : Nat) : BankM Bytes := do
  let f ← flags i
  if f.undefined then return Bytes.ofString "undefined\n"
  else if f.null then return Bytes.ofString "NULL\n"
  else if f.int then
    return Bytes.ofString ((if f.str then "si:" else "i:") ++ toString (← int i) ++ "\n")
  else if f.real then
    return Bytes.ofString ((if f.str then "sr:" else "r:") ++ describeNumber (← real i) ++ "\n")
  else if f.rowSet then return Bytes.ofString "(rowset)\n"
  else
    let c ← cell i
    let storage := if f.dyn then "z" else if f.static then "t" else if f.ephem then "e" else "s"
    return Bytes.ofString (storage ++ toString c.size ++ "[") ++ c.bytes ++
      Bytes.ofString (if c.encoding % 2 = 1 then "](8)\n" else "]\n")

end QueryMachine.Bank
