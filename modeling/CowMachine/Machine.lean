import CowMachine.Fault
import CowMachine.Memory
import CowMachine.Terminal

/-!
# The machine

The control holds all of the machine but its tape. It sees the current cell
only, and answers an instruction with an action on the tape and the control
as it is afterwards. An instruction that fails leaves the machine as it was,
except for input already read.
-/

set_option autoImplicit false

namespace CowMachine

structure Control where
  program : Program
  register : Register
  pc : Int
  halted : Bool
  terminal : Terminal
  journal : Journal
  deriving DecidableEq, Repr

structure Machine extends Control where
  tape : Tape
  deriving DecidableEq, Repr

inductive Reaction where
  | act (action : Tape.Action) (control : Control)
  | fail (fault : Fault) (control : Control)
  deriving DecidableEq, Repr

inductive Outcome where
  | next (machine : Machine)
  | fail (fault : Fault) (machine : Machine)
  deriving DecidableEq, Repr

inductive Operation where
  | call (c : Call)
  | step
  deriving DecidableEq, Repr

namespace Control

def advance (c : Control) : Control := { c with pc := c.pc + 1 }

def note (c : Control) (level : Level) (message : Text) : Control :=
  { c with journal := c.journal ++ [⟨level, message⟩] }

def halt (c : Control) : Control := { c with halted := true }

/-- A loop whose test fails goes on behind its loop end, or simply on when it
has none. -/
def leaveLoop (c : Control) : Reaction :=
  match c.program.loopExit c.pc with
  | .found place => .act .keep { c with pc := place + 1 }
  | .absent => .act .keep c.advance
  | .outside place => .fail (.outsideProgram place) c

def repeatLoop (c : Control) : Reaction :=
  match c.program.loopStart c.pc with
  | .found place => .act .keep { c with pc := place }
  | .absent => .act .keep c.advance
  | .outside place => .fail (.outsideProgram place) c

def readChar (c : Control) : Reaction :=
  match c.terminal.readChar with
  | .ok (v, terminal) => .act (.write v) { c with terminal }.advance
  | .error fault => .fail fault c

def readNumber (c : Control) : Reaction :=
  match c.terminal.readNumber with
  | (.ok v, terminal) => .act (.write v) { c with terminal }.advance
  | (.error fault, terminal) => .fail fault { c with terminal }

def written (c : Control) : Except Fault Terminal → Reaction
  | .ok terminal => .act .keep { c with terminal }.advance
  | .error fault => .fail fault c

def called (c : Control) (cell : Int) (call : Call) : Reaction :=
  let (register, action) := call.answer c.register cell
  .act action { c with register }.advance

/-- One instruction with the current cell at hand. A cell that delegates to
delegation would never end. -/
def obey (c : Control) (cell : Int) : Instruction → Reaction
  | .loopEnd => c.repeatLoop
  | .left => c.called cell .left
  | .right => c.called cell .right
  | .delegate => .fail (.abort .selfDelegation) c
  | .character => if cell = 0 then c.readChar else c.written (c.terminal.writeChar cell)
  | .decrement => c.called cell .decrement
  | .increment => c.called cell .increment
  | .loopTest => if cell = 0 then c.leaveLoop else .act .keep c.advance
  | .clear => c.called cell .clear
  | .toggle => c.called cell .toggle
  | .printNumber => c.written (c.terminal.writeNumber cell)
  | .readNumber => c.readNumber

/-- Carries out the instruction whose code the cell holds; a cell that holds
none halts the machine, with a note that has to be written first. -/
def delegate (c : Control) (cell : Int) : Reaction :=
  match Instruction.ofCode? cell with
  | some i => c.obey cell i
  | none =>
    match Text.decimal? cell with
    | some digits =>
      .act .keep
        (c.note .debug ("Invalid command code ".toList ++ digits ++ ", halting".toList)).halt
    | none => .fail .numberTooLong c

def react (c : Control) (cell code : Int) : Reaction :=
  if code = stopCode then .act .keep c.halt
  else
    match Instruction.ofCode? code with
    | some .delegate => c.delegate cell
    | some i => c.obey cell i
    | none => .fail (.unknownCode code) c

end Control

namespace Machine

def start (program : Program) (terminal : Terminal) : Machine :=
  { program, register := none, pc := 0, halted := false, terminal, journal := [],
    tape := .blank }

def dispatch (m : Machine) (code : Int) : Outcome :=
  match m.toControl.react m.tape.current code with
  | .fail fault control => .fail fault { m with toControl := control }
  | .act action control =>
    match m.tape.act? action with
    | some tape => .next { toControl := control, tape }
    | none => .fail (.abort .tapeUnderflow) m

def current? (m : Machine) : Option Int := m.program.fetch? m.pc

/-- One instruction of the program; a halted machine stays as it is. -/
def step (m : Machine) : Outcome :=
  if m.halted then .next m
  else
    match m.current? with
    | some code => m.dispatch code
    | none => .fail (.outsideProgram m.pc) m

def note (m : Machine) (level : Level) (message : Text) : Machine :=
  { m with toControl := m.toControl.note level message }

/-- One piece of work on a machine: a call on its memory or a step of its own. -/
def operate (m : Machine) : Operation → Outcome
  | .call c =>
    let (register, action) := c.answer m.register m.tape.current
    match m.tape.act? action with
    | some tape => .next { m with register, tape }
    | none => .fail (.abort .tapeUnderflow) m
  | .step => m.step

end Machine

def Outcome.andThen (o : Outcome) (f : Machine → Outcome) : Outcome :=
  match o with
  | .next m => f m
  | .fail fault m => .fail fault m

end CowMachine
