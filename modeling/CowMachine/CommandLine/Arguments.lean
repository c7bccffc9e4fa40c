import CowMachine.Text.Quoted

/-!
# Arguments of the command

Flags stand anywhere among the arguments; short ones may be joined behind one
dash, and a double dash ends them. The first bad flag decides, before help is
given, and help is given before the source is counted.

Known flags that are close to a bad one are suggested in its place. Two words
are compared by their longest common stretch, then by what lies to the left and
to the right of it, and so on. They are close when the characters matched,
counted in both words, make up at least three fifths of all; words whose lengths
alone rule that out are not compared.
-/

set_option autoImplicit false

namespace CowMachine.CommandLine

def commonStart : Text → Text → Nat
  | a :: as, b :: bs => if a = b then commonStart as bs + 1 else 0
  | _, _ => 0

/-- Where a stretch starts in each of two words, and how long it is. -/
structure Stretch where
  left : Nat
  right : Nat
  size : Nat
  deriving DecidableEq, Repr

def stretches (a b : Text) : List Stretch :=
  (List.range a.length).flatMap fun i =>
    (List.range b.length).map fun j => ⟨i, j, commonStart (a.drop i) (b.drop j)⟩

def longest (a b : Text) : Stretch :=
  (stretches a b).foldl (fun best s => if best.size < s.size then s else best) ⟨0, 0, 0⟩

def matched (a b : Text) : Nat :=
  match longest a b with
  | ⟨left, right, size⟩ =>
    if 0 < size ∧ left + size ≤ a.length then
      size + matched (a.take left) (b.take right) +
        matched (a.drop (left + size)) (b.drop (right + size))
    else 0
termination_by a.length
decreasing_by all_goals simp only [List.length_take, List.length_drop]; omega

structure Candidate where
  word : Text
  matched : Nat
  total : Nat
  deriving DecidableEq, Repr

def Candidate.isClose (c : Candidate) : Bool := 6 * c.total ≤ 20 * c.matched

/-- The closer candidate goes first, of two equally close the later word. -/
def Candidate.precedes (a b : Candidate) : Bool :=
  if a.matched * b.total = b.matched * a.total then Text.sorted b.word a.word
  else b.matched * a.total < a.matched * b.total

def candidate (word other : Text) : Candidate :=
  let total := other.length + word.length
  let most : Candidate := ⟨other, min other.length word.length, total⟩
  if most.isClose then ⟨other, matched other word, total⟩ else ⟨other, 0, total⟩

def closeMatches (word : Text) (others : List Text) : List Text :=
  let close := (others.map (candidate word)).filter Candidate.isClose
  ((close.mergeSort Candidate.precedes).take 3).map Candidate.word

inductive Flag where
  | verbose
  | debug
  | step
  | help
  deriving DecidableEq, Repr

namespace Flag

def all : List Flag := [verbose, debug, step, help]

def long : Flag → Text
  | verbose => "--verbose".toList
  | debug => "--debug".toList
  | step => "--step".toList
  | help => "--help".toList

def short? : Flag → Option Char
  | verbose => some 'v'
  | debug => some 'd'
  | step => some 's'
  | help => none

def ofLong? (t : Text) : Option Flag := all.find? fun f => f.long == t

def ofShort? (c : Char) : Option Flag := all.find? fun f => f.short? == some c

end Flag

inductive UsageError where
  | missingSource
  | extraArguments (arguments : List Text)
  | unknownFlag (spelling : Text) (similar : List Text)
  | valueForFlag (spelling : Text)
  deriving DecidableEq, Repr

namespace UsageError

def suggestion : List Text → Text
  | [] => []
  | [word] => " Did you mean ".toList ++ Text.quoted word ++ ['?']
  | words =>
    " (Did you mean one of: ".toList ++
      ", ".toList.intercalate ((words.mergeSort Text.sorted).map Text.quoted) ++ ['?', ')']

def message : UsageError → Text
  | .missingSource => "Missing argument 'SOURCE'.".toList
  | .extraArguments [argument] => "Got unexpected extra argument (".toList ++ argument ++ [')']
  | .extraArguments arguments =>
    "Got unexpected extra arguments (".toList ++ [' '].intercalate arguments ++ [')']
  | .unknownFlag spelling similar =>
    "No such option ".toList ++ Text.quoted spelling ++ ['.'] ++ suggestion similar
  | .valueForFlag spelling =>
    "Option ".toList ++ Text.quoted spelling ++ " does not take a value.".toList

end UsageError

structure Arguments where
  flags : List Flag
  operands : List Text
  deriving DecidableEq, Repr

def joinedFlags : Text → Except UsageError (List Flag)
  | [] => .ok []
  | c :: rest =>
    match Flag.ofShort? c with
    | some flag => (joinedFlags rest).map (flag :: ·)
    | none => .error (.unknownFlag ['-', c] [])

/-- The flags in one argument that begins with a dash. What stands behind an
equals sign would be a value, and no flag takes one. -/
def flagsOf (argument : Text) : Except UsageError (List Flag) :=
  let spelling := argument.takeWhile (· != '=')
  match Flag.ofLong? spelling with
  | some flag => if argument.contains '=' then .error (.valueForFlag spelling) else .ok [flag]
  | none =>
    match argument with
    | '-' :: '-' :: _ =>
      .error (.unknownFlag spelling (closeMatches spelling (Flag.all.map Flag.long)))
    | _ => joinedFlags (argument.drop 1)

def isFlag : Text → Bool
  | '-' :: _ :: _ => true
  | _ => false

def Arguments.ofList : List Text → Except UsageError Arguments
  | [] => .ok ⟨[], []⟩
  | argument :: rest =>
    if argument = ['-', '-'] then .ok ⟨[], rest⟩
    else if isFlag argument then do
      let flags ← flagsOf argument
      let others ← ofList rest
      return { others with flags := flags ++ others.flags }
    else do
      let others ← ofList rest
      return { others with operands := argument :: others.operands }

structure Options where
  verbose : Bool
  debug : Bool
  step : Bool
  deriving DecidableEq, Repr

def Arguments.options (a : Arguments) : Options :=
  ⟨a.flags.contains .verbose, a.flags.contains .debug, a.flags.contains .step⟩

inductive Request where
  | help
  | run (options : Options) (source : Text)
  deriving DecidableEq, Repr

def Request.ofArguments (arguments : List Text) : Except UsageError Request := do
  let a ← Arguments.ofList arguments
  if a.flags.contains .help then return .help
  else
    match a.operands with
    | [] => .error .missingSource
    | [source] => return .run a.options source
    | _ :: extra => .error (.extraArguments extra)

end CowMachine.CommandLine
