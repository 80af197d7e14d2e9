import QueryMachine.Bank.Describe
import QueryMachine.Dispatch.File
import QueryMachine.Function.Fold
import QueryMachine.Machine.Statement
import QueryMachine.Main
import QueryMachine.Workload.Calls
import QueryMachine.Workload.Folds
import QueryMachine.Workload.Source
import QueryMachine.Workload.Switches
import QueryMachine.Proofs.Effects
import QueryMachine.Proofs.Knowing
import QueryMachine.Proofs.Accesses
import QueryMachine.Proofs.Codec
import QueryMachine.Proofs.Records
import QueryMachine.Proofs.Columns
import QueryMachine.Proofs.RoundTrip
import QueryMachine.Proofs.Unaware
import QueryMachine.Proofs.Simulation
import QueryMachine.Proofs.Copies
import QueryMachine.Proofs.Turns
import QueryMachine.Proofs.Lockstep
import QueryMachine.Proofs.Order
import QueryMachine.Proofs.Comparing
import QueryMachine.Proofs.Oblivious
import QueryMachine.Proofs.Builtins
import QueryMachine.Proofs.CellRules
import QueryMachine.Proofs.Contexts
import QueryMachine.Proofs.Calls
import QueryMachine.Proofs.Checked
import QueryMachine.Proofs.Frames
import QueryMachine.Proofs.Abiding
import QueryMachine.Proofs.Sides
import QueryMachine.Proofs.Flows
import QueryMachine.Proofs.Delivery
import QueryMachine.Proofs.Renaming
import QueryMachine.Proofs.Certain
import QueryMachine.Proofs.Values
import QueryMachine.Proofs.Deciding
import QueryMachine.Proofs.Agreement
import QueryMachine.Proofs.Gathering
import QueryMachine.Proofs.Storing
import QueryMachine.Proofs.Aggregates
import QueryMachine.Proofs.Ranges
import QueryMachine.Proofs.Scanning
import QueryMachine.Proofs.Affinities
import QueryMachine.Proofs.Seeking
import QueryMachine.Proofs.Writing
import QueryMachine.Proofs.Normalising
import QueryMachine.Proofs.Ownership
import QueryMachine.Proofs.Overflow
import QueryMachine.Proofs.Arithmetic
import QueryMachine.Proofs.Relations
import QueryMachine.Proofs.Casting
import QueryMachine.Proofs.Transparency
import QueryMachine.Proofs.Moving
import QueryMachine.Proofs.Numbering
import QueryMachine.Proofs.Folding
import QueryMachine.Proofs.Registering
import QueryMachine.Proofs.Switching
import QueryMachine.Proofs.Coupling
import QueryMachine.Proofs.Binding
import QueryMachine.Proofs.Arms
import QueryMachine.Proofs.Headers
