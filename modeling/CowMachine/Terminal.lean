import CowMachine.Input

/-!
# The terminal

A machine reads from its input and prints lines. A line is text or a single
16-bit unit, which need not be a character: a lone surrogate can be printed
unless the terminal has to encode it. Text shown by a debugging session is
kept in the same transcript, so that both can be told apart or seen in order.
-/

set_option autoImplicit false

namespace CowMachine

inductive Line where
  | text (content : Text)
  | surrogate (number : Nat)
  deriving DecidableEq, Repr

namespace Line

def unitCount : Nat := 0x10000

def ofUnit (n : Nat) : Line :=
  if 0xD800 ≤ n ∧ n < 0xE000 then .surrogate n else .text [Char.ofNat n]

/-- The low sixteen bits of a value, negative ones in two's complement. -/
def ofValue (v : Int) : Line := ofUnit (v % unitCount).toNat

/-- Text has no surrogates. The character `0x100000` above stands for one, which
is beyond all sixteen-bit units. -/
def render : Line → Text
  | .text content => content ++ ['\n']
  | .surrogate n => [Char.ofNat (0x100000 + n), '\n']

end Line

inductive Printed where
  | line (content : Line)
  | shown (content : Text)
  deriving DecidableEq, Repr

namespace Printed

def render : Printed → Text
  | .line content => content.render
  | .shown content => content

def line? : Printed → Option Line
  | .line content => some content
  | .shown _ => none

def shown? : Printed → Option Text
  | .line _ => none
  | .shown content => some content

end Printed

/-- Prompts read lines of `keys` where there are keys of their own, and of the
input otherwise. What was printed last comes first in `recent`. -/
structure Terminal where
  input : Input
  keys : Option Input
  encodes : Bool
  recent : List Printed
  deriving DecidableEq, Repr

namespace Terminal

def ofInput (input : Input) : Terminal := ⟨input, none, false, []⟩

def printed (t : Terminal) : List Printed := t.recent.reverse

def lines (t : Terminal) : List Line := t.printed.filterMap Printed.line?

def output (t : Terminal) : Text := t.lines.flatMap Line.render

def screen (t : Terminal) : Text := (t.printed.filterMap Printed.shown?).flatten

def transcript (t : Terminal) : Text := t.printed.flatMap Printed.render

def endOfInput : Int := -1

def readChar (t : Terminal) : Except Fault (Int × Terminal) :=
  match t.input.readChar with
  | .ok (some c, input) => .ok (c.toNat, { t with input })
  | .ok (none, input) => .ok (endOfInput, { t with input })
  | .error fault => .error fault

def readNumber (t : Terminal) : Except Fault Int × Terminal :=
  let (answer, input) := t.input.readNumber
  (answer, { t with input })

def print (t : Terminal) (entry : Printed) : Terminal :=
  { t with recent := entry :: t.recent }

@[simp] theorem printed_print (t : Terminal) (entry : Printed) :
    (t.print entry).printed = t.printed ++ [entry] := by
  simp [print, printed]

def writeLine (t : Terminal) (line : Line) : Except Fault Terminal :=
  match line, t.encodes with
  | .surrogate n, true => .error (.unencodable n)
  | line, _ => .ok (t.print (.line line))

def writeChar (t : Terminal) (v : Int) : Except Fault Terminal := t.writeLine (.ofValue v)

def writeNumber (t : Terminal) (v : Int) : Except Fault Terminal :=
  match Text.decimal? v with
  | some content => t.writeLine (.text content)
  | none => .error .numberTooLong

def display (t : Terminal) (content : Text) : Terminal := t.print (.shown content)

def awaitReturn (t : Terminal) : Except Fault Terminal :=
  match t.keys with
  | some keys => keys.skipLine.map fun keys => { t with keys := some keys }
  | none => t.input.skipLine.map fun input => { t with input }

end Terminal

end CowMachine
