import CowMachine.Program
import CowMachine.Text.Quoted
import CowMachine.Text.Utf8

/-!
# Notes and faults

Loading and running are noted in a journal, each note with a level.

An abort ends a run by the rules of the language and is reported as its
result. Every other fault breaks the run off: a place outside the program, a
code that is no instruction, a number too long to be written, or trouble with
the streams.
-/

set_option autoImplicit false

namespace CowMachine

inductive Level where
  | debug
  | info
  | error
  deriving DecidableEq, Repr

def Level.name : Level → Text
  | .debug => "DEBUG".toList
  | .info => "INFO".toList
  | .error => "ERROR".toList

structure Note where
  level : Level
  message : Text
  deriving DecidableEq, Repr

abbrev Journal := List Note

inductive Abort where
  | tapeUnderflow
  | selfDelegation
  | numberMissing
  | numberMalformed (token : Text)
  deriving DecidableEq, Repr

def Abort.message : Abort → Text
  | .tapeUnderflow => "Memory pointer moved below zero".toList
  | .selfDelegation => "Halting to prevent infinite loop".toList
  | .numberMissing => "Expected an integer, got end of input".toList
  | .numberMalformed token => "Expected an integer, got ".toList ++ Text.quoted token

inductive Fault where
  | abort (cause : Abort)
  | outsideProgram (place : Int)
  | unknownCode (code : Int)
  | numberTooLong
  | interrupted
  | promptClosed
  | undecodable (flaw : Utf8.Flaw)
  | unencodable (surrogate : Nat)
  deriving DecidableEq, Repr

def Fault.message : Fault → Text
  | .abort cause => cause.message
  | .outsideProgram place =>
    if Program.isAddress place then "tuple index out of range".toList
    else "cannot fit 'int' into an index-sized integer".toList
  | .unknownCode code => Text.decimal code
  | .numberTooLong => "Exceeds the limit (".toList ++ Text.natural Text.digitLimit ++
      " digits) for integer string conversion; ".toList ++
      "use sys.set_int_max_str_digits() to increase the limit".toList
  | .interrupted => []
  | .promptClosed => []
  | .undecodable flaw => flaw.message
  | .unencodable surrogate => "'utf-8' codec can't encode character '".toList ++
      Text.escapedNumber surrogate ++ "' in position 0: surrogates not allowed".toList

end CowMachine
