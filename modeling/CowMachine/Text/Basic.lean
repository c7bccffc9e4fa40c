/-!
# Text and numbers

Everything the machine reads and writes is a list of characters. Blanks are
the six characters that separate words, in a source as on the input; line
ends are the two that close a comment.

Values are unbounded, their text is not: a number of more than 4300 digits
can be held and computed with but neither printed nor read. A numeral is an
optional sign and decimal digits, where single underscores may stand between
two digits and wide blanks around the whole. Digits come from any of the
decimal scripts. Each script has its ten digits in a row, so the table lists
the zeros. It is that of Unicode 14; the scripts that later versions add are
not read as digits here.

Hexadecimal digits name a character inside quotes, in lower case and padded to
a width, and a code that is no instruction, in upper case without padding.
-/

set_option autoImplicit false

namespace CowMachine

abbrev Text := List Char

namespace Text

def blanks : Text := [' ', '\t', '\r', '\n', '\x0c', '\x0b']

def isBlank (c : Char) : Bool := blanks.contains c

def isLineEnd (c : Char) : Bool := c == '\r' || c == '\n'

def sorted : Text → Text → Bool
  | [], _ => true
  | _ :: _, [] => false
  | a :: as, b :: bs => a.toNat < b.toNat || (a == b && sorted as bs)

def unlines (lines : List Text) : Text := lines.flatMap (· ++ ['\n'])

/-- A carriage return, alone or before a newline, becomes a newline. -/
def foldNewlines : Text → Text
  | [] => []
  | '\r' :: '\n' :: rest => '\n' :: foldNewlines rest
  | '\r' :: rest => '\n' :: foldNewlines rest
  | c :: rest => c :: foldNewlines rest

def natural (n : Nat) : Text := Nat.toDigits 10 n

def decimal (v : Int) : Text :=
  if v < 0 then '-' :: natural v.natAbs else natural v.natAbs

def digitLimit : Nat := 4300

/-- The sign is not counted. -/
def Printable (v : Int) : Prop := (natural v.natAbs).length ≤ digitLimit

instance (v : Int) : Decidable (Printable v) := inferInstanceAs (Decidable (_ ≤ _))

def decimal? (v : Int) : Option Text := if Printable v then some (decimal v) else none

def hexLower (n : Nat) : Text := Nat.toDigits 16 n

def hexUpper (n : Nat) : Text := (Nat.toDigits 16 n).map Char.toUpper

def hexPadded (width n : Nat) : Text :=
  List.replicate (width - (hexLower n).length) '0' ++ hexLower n

def hexSigned (n : Int) : Text :=
  if n < 0 then '-' :: hexUpper n.natAbs else hexUpper n.natAbs

def zeros : List Nat := [
  0x30, 0x660, 0x6F0, 0x7C0, 0x966, 0x9E6, 0xA66, 0xAE6, 0xB66, 0xBE6, 0xC66, 0xCE6, 0xD66,
  0xDE6, 0xE50, 0xED0, 0xF20, 0x1040, 0x1090, 0x17E0, 0x1810, 0x1946, 0x19D0, 0x1A80, 0x1A90,
  0x1B50, 0x1BB0, 0x1C40, 0x1C50, 0xA620, 0xA8D0, 0xA900, 0xA9D0, 0xA9F0, 0xAA50, 0xABF0,
  0xFF10, 0x104A0, 0x10D30, 0x11066, 0x110F0, 0x11136, 0x111D0, 0x112F0, 0x11450, 0x114D0,
  0x11650, 0x116C0, 0x11730, 0x118E0, 0x11950, 0x11C50, 0x11D50, 0x11DA0, 0x16A60, 0x16AC0,
  0x16B50, 0x1D7CE, 0x1D7D8, 0x1D7E2, 0x1D7EC, 0x1D7F6, 0x1E140, 0x1E2F0, 0x1E950, 0x1FBF0]

def digitValue? (c : Char) : Option Nat :=
  (zeros.find? fun first => first ≤ c.toNat && c.toNat < first + 10).map (c.toNat - ·)

/-- The blanks beyond ASCII, which do not separate words but are dropped at
both ends of a numeral. -/
def isWideBlank (c : Char) : Bool :=
  [0x85, 0xA0, 0x1680, 0x2028, 0x2029, 0x202F, 0x205F, 0x3000].contains c.toNat ||
    (0x2000 ≤ c.toNat && c.toNat ≤ 0x200A)

def strip (t : Text) : Text :=
  ((t.dropWhile isWideBlank).reverse.dropWhile isWideBlank).reverse

def digits? : Text → Option (List Nat)
  | [] => none
  | c :: rest =>
    match digitValue? c, rest with
    | none, _ => none
    | some d, [] => some [d]
    | some d, '_' :: more => (digits? more).map (d :: ·)
    | some d, more => (digits? more).map (d :: ·)

def valueOfDigits (ds : List Nat) : Nat := ds.foldl (fun value d => 10 * value + d) 0

/-- Leading zeros count towards the limit on digits. -/
def magnitude? (t : Text) : Option Nat :=
  match digits? t with
  | some ds => if ds.length ≤ digitLimit then some (valueOfDigits ds) else none
  | none => none

def numeral? (t : Text) : Option Int :=
  match strip t with
  | '-' :: run => (magnitude? run).map fun n => -(n : Int)
  | '+' :: run => (magnitude? run).map fun n => (n : Int)
  | run => (magnitude? run).map fun n => (n : Int)

end Text

end CowMachine
