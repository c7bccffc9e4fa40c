import CowMachine.Fault
import CowMachine.Text.Basic

/-!
# The input

An input is the characters still to be read and what a read beyond them
meets: the end, an interrupt from the keyboard, or bytes that do not decode.
Bytes are decoded in blocks, each when the first of it is needed, so a flaw
leaves nothing of its block to read; a sequence cut off by the end is met only
there.
-/

set_option autoImplicit false

namespace CowMachine

inductive Input.Ending where
  | finished
  | interrupt
  | undecodable (flaw : Utf8.Flaw)
  deriving DecidableEq, Repr

structure Input where
  rest : Text
  ending : Input.Ending
  deriving DecidableEq, Repr

namespace Input

def Ending.fault? : Ending → Option Fault
  | .finished => none
  | .interrupt => some .interrupted
  | .undecodable flaw => some (.undecodable flaw)

def ofText (t : Text) (interrupt : Bool) : Input :=
  ⟨t, if interrupt then .interrupt else .finished⟩

/-- A carriage return at the very end waits for what follows, since a newline
behind it would belong to it. -/
def withoutPendingReturn (t : Text) : Text :=
  if t.getLast? = some '\r' then t.dropLast else t

def blockSize : Nat := 8192

def blocks (count : Nat) (bytes : List UInt8) : List UInt8 := bytes.take (count * blockSize)

def soundBlocks (bytes : List UInt8) : Nat :=
  let all := bytes.length / blockSize
  ((List.range all).find? fun count =>
    (Utf8.decode (blocks (count + 1) bytes)).isFlawed).getD all

/-- The blocks before a flaw can be read. The place of the flaw is counted from
the bytes that they leave over. -/
def ofFlawed (bytes : List UInt8) (flaw : Utf8.Flaw) : Input :=
  let count := soundBlocks bytes
  let sound := Utf8.decode (blocks count bytes)
  ⟨Text.foldNewlines (withoutPendingReturn sound.chars),
    .undecodable { flaw with
      position := flaw.position + sound.remainder.length - count * blockSize }⟩

def ofBytes (bytes : List UInt8) (interrupt : Bool) : Input :=
  let decoded := Utf8.decode bytes
  match decoded.ending, interrupt with
  | .flawed flaw, _ => ofFlawed bytes flaw
  | .whole, false => ⟨Text.foldNewlines decoded.chars, .finished⟩
  | .cut tail, false =>
    ⟨Text.foldNewlines (withoutPendingReturn decoded.chars), .undecodable (.ofCut tail)⟩
  | _, true => ⟨Text.foldNewlines (withoutPendingReturn decoded.chars), .interrupt⟩

def readChar (i : Input) : Except Fault (Option Char × Input) :=
  match i.rest with
  | c :: rest => .ok (some c, { i with rest })
  | [] =>
    match i.ending.fault? with
    | none => .ok (none, i)
    | some fault => .error fault

/-- The next word, which is empty when only blanks are left. The blank behind
it is taken too; a word that no blank closes reads on into the ending. -/
def readWord (i : Input) : Except Fault Text × Input :=
  let start := i.rest.dropWhile Text.isBlank
  let word := start.takeWhile fun c => !Text.isBlank c
  match start.dropWhile fun c => !Text.isBlank c with
  | _ :: rest => (.ok word, { i with rest })
  | [] =>
    let spent := { i with rest := [] }
    match i.ending.fault? with
    | none => (.ok word, spent)
    | some fault => (.error fault, spent)

def readNumber (i : Input) : Except Fault Int × Input :=
  match i.readWord with
  | (.error fault, i) => (.error fault, i)
  | (.ok [], i) => (.error (.abort .numberMissing), i)
  | (.ok word, i) =>
    match Text.numeral? word with
    | some v => (.ok v, i)
    | none => (.error (.abort (.numberMalformed word)), i)

/-- Past the next newline, or past an unclosed last line. The end of the input
and an interrupt both close the prompt that asked for the line. -/
def skipLine (i : Input) : Except Fault Input :=
  match i.rest.dropWhile (· != '\n') with
  | _ :: rest => .ok { i with rest }
  | [] =>
    match i.ending with
    | .finished => if i.rest.isEmpty then .error .promptClosed else .ok { i with rest := [] }
    | .interrupt => .error .promptClosed
    | .undecodable flaw => .error (.undecodable flaw)

end Input

end CowMachine
