import CowMachine.Report

/-!
# Running a machine

A run repeats a cycle until the machine halts or a cycle fails. The number of
cycles is bounded, and a run that reaches the bound can be taken up again. An
abort is a result of the run, once it has been noted together with a summary
of the machine; every other fault breaks the run off.

A cycle is a step, in a debugging session together with what goes on around it:
a traced run announces each instruction on the screen and shows the state after
it, a stepped run waits for a return key instead of announcing.
-/

set_option autoImplicit false

namespace CowMachine

inductive Ending where
  | halted
  | aborted (cause : Abort)
  | failed (fault : Fault)
  | unfinished
  deriving DecidableEq, Repr

structure Run where
  ending : Ending
  machine : Machine
  deriving DecidableEq, Repr

namespace Machine

def finish (m : Machine) : Run := ⟨.halted, m.note .info "Execution halted gracefully".toList⟩

def breakOff (m : Machine) : Fault → Run
  | .abort cause =>
    match (m.note .info ("Execution aborted: ".toList ++ cause.message)).summarise with
    | .next m => ⟨.aborted cause, m⟩
    | .fail fault m => ⟨.failed fault, m⟩
  | fault => ⟨.failed fault, m⟩

def runBy (cycle : Machine → Outcome) : Nat → Machine → Run
  | 0, m => if m.halted then m.finish else ⟨.unfinished, m⟩
  | bound + 1, m =>
    if m.halted then m.finish
    else
      match cycle m with
      | .next m => runBy cycle bound m
      | .fail fault m => m.breakOff fault

def run (bound : Nat) (m : Machine) : Run := m.runBy step bound

/-- The program pointer before each step of a run, and after it unless the
step failed. -/
def trace : Nat → Machine → List Int
  | 0, _ => []
  | bound + 1, m =>
    if m.halted then []
    else
      match m.step with
      | .next m' => m.pc :: m'.pc :: trace bound m'
      | .fail _ _ => [m.pc]

end Machine

namespace Machine

def display (m : Machine) (content : Text) : Machine :=
  { m with terminal := m.terminal.display content }

def announce (m : Machine) : Outcome :=
  match Report.codeAt m.program m.pc with
  | .ok name => .next (m.display (Text.unlines ["Executing: ".toList ++ name]))
  | .error fault => .fail fault m

def promptText (m : Machine) (name : Text) : Text :=
  "Press [return] to execute command at pointer ".toList ++ Text.decimal m.pc ++ " (".toList ++
    name ++ ")...".toList

def prompt (m : Machine) : Outcome :=
  match Report.codeAt m.program m.pc with
  | .ok name =>
    let asked := m.display (m.promptText name)
    match asked.terminal.awaitReturn with
    | .ok terminal => .next { asked with terminal }
    | .error fault => .fail fault asked
  | .error fault => .fail fault m

def displayState (m : Machine) : Outcome :=
  match Report.state m with
  | .ok lines => .next (m.display (Text.unlines lines))
  | .error fault => .fail fault m

end Machine

inductive Mode where
  | plain
  | traced
  | stepped
  deriving DecidableEq, Repr

namespace Mode

/-- Stepping is a way of debugging and has no effect without it. -/
def ofFlags (debug step : Bool) : Mode :=
  match debug, step with
  | false, _ => .plain
  | true, false => .traced
  | true, true => .stepped

def cycle : Mode → Machine → Outcome
  | .plain, m => m.step
  | .traced, m => (m.announce.andThen Machine.step).andThen Machine.displayState
  | .stepped, m => (m.prompt.andThen Machine.step).andThen Machine.displayState

def run (mode : Mode) (bound : Nat) (m : Machine) : Run := m.runBy mode.cycle bound

end Mode

end CowMachine
