import CowMachine.Main
import CowMachine.Proofs.Execution
import CowMachine.Proofs.LoopMarks
import CowMachine.Proofs.LoopCounts
import CowMachine.Proofs.LoopPairs
import CowMachine.Proofs.Nesting
import CowMachine.Proofs.Reaction
import CowMachine.Proofs.Safety
import CowMachine.Proofs.Grammar
import CowMachine.Proofs.Substitution
import CowMachine.Proofs.StraightLine
import CowMachine.Proofs.FlatLoop
import CowMachine.Proofs.Transfer
import CowMachine.Proofs.Failure
import CowMachine.Proofs.EndlessTape
import CowMachine.Proofs.Numerals
import CowMachine.Proofs.Running
import CowMachine.Proofs.Hooks
import CowMachine.Proofs.Handlers
import CowMachine.Proofs.Diagnostics
import CowMachine.Proofs.Shift
import CowMachine.Proofs.Composition
import CowMachine.Proofs.Terminals
import CowMachine.Proofs.UnreadInput
import CowMachine.Proofs.Printing
import CowMachine.Proofs.Resumption
import CowMachine.Proofs.Legibility
import CowMachine.Proofs.Watching
import CowMachine.Proofs.Tracing
import CowMachine.Proofs.Stepping
import CowMachine.Proofs.Disassembly
import CowMachine.Proofs.Positions
import CowMachine.Proofs.UnknownWords
import CowMachine.Proofs.Joining
import CowMachine.Proofs.LineEnds
import CowMachine.Proofs.Printout
import CowMachine.Proofs.Obstacles
import CowMachine.Proofs.Aborts
import CowMachine.Proofs.Exits
import CowMachine.Proofs.Progress
import CowMachine.Proofs.NumeralGrammar
import CowMachine.Proofs.WordReading
import CowMachine.Proofs.ReadBack
import CowMachine.Proofs.Footprint
import CowMachine.Proofs.Toggles
import CowMachine.Proofs.HighWater
import CowMachine.Proofs.Adder
import CowMachine.Proofs.LoopExits
import CowMachine.Proofs.Reports
import CowMachine.Proofs.Interrupts
