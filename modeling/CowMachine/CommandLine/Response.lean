import CowMachine.CommandLine.Arguments
import CowMachine.Run
import CowMachine.Source
import CowMachine.Text.Quoted

/-!
# Responses of the command

Loading and running a source ends in an exit code and what was written to the
two output streams. The journal goes to the error stream, without its debug
notes unless they are asked for. A failure also writes there the trace of the
calls that led to it, which is left out of `errors`.
-/

set_option autoImplicit false

namespace CowMachine.CommandLine

open Source (Path FileError Listing)

inductive Exit where
  | halted
  | unreadable
  | aborted
  | interrupted
  | failed
  deriving DecidableEq, Repr

def Exit.code : Exit → Nat
  | .halted => 0
  | .unreadable => 1
  | .aborted => 2
  | .interrupted => 3
  | .failed => 100

structure Response where
  code : Nat
  output : Text
  errors : Text
  deriving DecidableEq, Repr

def usageLine : Text := "Usage: cowvm [OPTIONS] SOURCE".toList

def helpText : Text := Text.unlines [
  usageLine,
  [],
  "Options:".toList,
  "  -v, --verbose  Sets logging level to debug".toList,
  "  -d, --debug    Prints machine state after every command".toList,
  "  -s, --step     With --debug, waits for [return] before every command".toList,
  "  --help         Show this message and exit.".toList]

def usageCode : Nat := 2

/-- The usage is recalled unless a known flag was misused. Arguments may hold
control sequences, which are not passed on. -/
def UsageError.text (e : UsageError) : Text :=
  let reason := Text.withoutSequences ("Error: ".toList ++ e.message)
  match e with
  | .valueForFlag _ => Text.unlines [reason]
  | _ => Text.unlines [usageLine, "Try 'cowvm --help' for help.".toList, [], reason]

def noteText (n : Note) : Text := n.level.name ++ ":root:".toList ++ n.message

def journalText (verbose : Bool) (j : Journal) : Text :=
  Text.unlines ((j.filter fun n => verbose || n.level != .debug).map noteText)

def greeting : Note := ⟨.info, "COW".toList⟩

def openingNote (p : Path) : Note := ⟨.debug, "Loading file ".toList ++ p.text⟩

def failureNote (message : Text) : Note :=
  ⟨.info, "Execution halted on general error ".toList ++ message⟩

def exitOfFault : Fault → Note × Exit
  | .interrupted => (⟨.info, "Execution halted by the user".toList⟩, .interrupted)
  | fault => (failureNote fault.message, .failed)

def conclude (verbose : Bool) (loading : Journal) (run : Run) : Option Response :=
  let output := run.machine.terminal.transcript
  let journal := loading ++ run.machine.journal
  match run.ending with
  | .halted => some ⟨Exit.halted.code, output, journalText verbose journal⟩
  | .aborted cause =>
    some ⟨Exit.aborted.code, output,
      journalText verbose journal ++ Text.unlines ["Aborted: ".toList ++ cause.message]⟩
  | .failed fault =>
    let (note, exit) := exitOfFault fault
    some ⟨exit.code, output, journalText verbose (journal ++ [note])⟩
  | .unfinished => none

/-- The command on a program that could be loaded. No response is given when
the run takes more than `bound` cycles. -/
def runProgram (options : Options) (loading : Journal) (input : Input) (bound : Nat)
    (program : Program) : Option Response :=
  let terminal := { Terminal.ofInput input with encodes := true }
  let mode := Mode.ofFlags options.debug options.step
  conclude options.verbose loading (mode.run bound (Machine.start program terminal))

def runSource (options : Options) (path : Path) (file : Except FileError (List UInt8))
    (input : Input) (bound : Nat) : Option Response :=
  let opening := [greeting, openingNote path]
  match file with
  | .error e =>
    some ⟨Exit.failed.code, [],
      journalText options.verbose (opening ++ [failureNote (e.message path)])⟩
  | .ok bytes =>
    let listing := Listing.ofBytes bytes
    let loading := opening ++ listing.journal
    match listing.program with
    | .ok program => runProgram options loading input bound program
    | .error unknown =>
      some ⟨Exit.unreadable.code, [], journalText options.verbose (loading ++
        [⟨.error, "Cannot load ".toList ++ path.text ++ ": ".toList ++ unknown.message⟩])⟩

def loads : Except FileError (List UInt8) → Bool
  | .error _ => false
  | .ok bytes => (Listing.ofBytes bytes).unknown.isNone

theorem runSource_of_not_loads (options : Options) (path : Path)
    {file : Except FileError (List UInt8)} (h : loads file = false) (i j : Input) (a b : Nat) :
    runSource options path file i a = runSource options path file j b := by
  cases file with
  | error e => rfl
  | ok bytes =>
    cases hunknown : (Listing.ofBytes bytes).unknown with
    | none => simp [loads, hunknown] at h
    | some unknown => simp only [runSource, Listing.program, hunknown]

/-- The whole command, where `contents` opens a file. -/
def respond (arguments : List Text) (contents : Path → Except FileError (List UInt8))
    (input : Input) (bound : Nat) : Option Response :=
  match Request.ofArguments arguments with
  | .error e => some ⟨usageCode, [], e.text⟩
  | .ok .help => some ⟨Exit.halted.code, helpText, []⟩
  | .ok (.run options source) =>
    let path := Path.ofText source
    runSource options path (contents path) input bound

end CowMachine.CommandLine
