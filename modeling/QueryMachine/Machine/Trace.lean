import QueryMachine.Machine.Basic

/-!
Traces: which instructions were executed, and what each of them changed in the registers. The changes
of an instruction are seen when the next one starts.
-/

namespace QueryMachine.Machine

def views (m : Machine) : List View :=
  (List.range m.registers).map fun i => (m.bank.cells.getD (i + 1) {}).view

def differences (before after : List View) : List (Nat × View) :=
  ((before.zip after).zipIdx 1).filterMap fun ((a, b), i) => if a = b then none else some (i, b)

/-- Enters the changes of the last instruction. The end of a program is not looked at. -/
def settleTrace (m : Machine) : Machine :=
  match m.trace with
  | [] => { m with shown := m.views }
  | last :: rest =>
    if last.op = .halt then m
    else
      let now := m.views
      { m with trace := { last with changes := differences m.shown now } :: rest, shown := now }

/-- Enters an instruction that is about to be executed. -/
def enterTrace (pc : Int) (op : Opcode) (m : Machine) : Machine :=
  let m := m.settleTrace
  { m with trace := { address := pc, op } :: m.trace }

end QueryMachine.Machine
