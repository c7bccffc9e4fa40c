import CowMachine.Fault

/-!
# Loading a source

A source is cut into blanks, comments and words. A comment begins where a
word could begin and runs to the end of its line. A word is a run of at most
three characters that are not blank, so a longer run is several words and a
comment mark inside a word is part of it.

The words are instructions, up to the first that is none. A listing keeps the
instructions issued and that word, if there is one, with its place in the
text.

A file is read as ASCII. A byte that is no ASCII character becomes a
replacement character, which is harmless in a comment and part of no
instruction. Every line end becomes a newline. Its path is shown without empty
and `.` segments; `..` stays, since it may lead out of a directory that is not
there.
-/

set_option autoImplicit false

namespace CowMachine.Source

inductive Item where
  | blank (c : Char)
  | comment (mark : Char) (body : Text)
  | word (spelling : Text)
  deriving DecidableEq, Repr

def Item.text : Item → Text
  | .blank c => [c]
  | .comment mark body => mark :: body
  | .word spelling => spelling

def wordSize : Nat := 3

def commentMarks : Text := [';', '/']

def isCommentMark (c : Char) : Bool := commentMarks.contains c

def commentBody (t : Text) : Text := t.takeWhile fun c => !Text.isLineEnd c

/-- What a word takes of the text behind its first character. -/
def wordRest (t : Text) : Text := (t.take (wordSize - 1)).takeWhile fun c => !Text.isBlank c

def items (t : Text) : List Item :=
  match t with
  | [] => []
  | c :: rest =>
    if Text.isBlank c then .blank c :: items rest
    else if isCommentMark c then
      .comment c (commentBody rest) :: items (rest.drop (commentBody rest).length)
    else .word (c :: wordRest rest) :: items (rest.drop (wordRest rest).length)
termination_by t.length
decreasing_by all_goals simp only [List.length_cons, List.length_drop]; omega

theorem commentBody_append (t : Text) : commentBody t ++ t.drop (commentBody t).length = t :=
  List.prefix_iff_eq_append.1 (List.takeWhile_prefix _)

theorem wordRest_append (t : Text) : wordRest t ++ t.drop (wordRest t).length = t :=
  List.prefix_iff_eq_append.1 ((List.takeWhile_prefix _).trans (List.take_prefix _ _))

theorem flatMap_text_items (t : Text) : (items t).flatMap Item.text = t := by
  fun_induction items t with
  | case1 => rfl
  | case2 c rest hc ih => simp [Item.text, ih]
  | case3 c rest hc hm ih => simp [Item.text, ih, commentBody_append]
  | case4 c rest hc hm ih => simp [Item.text, ih, wordRest_append]

structure Position where
  line : Nat
  column : Nat
  deriving DecidableEq, Repr

namespace Position

def start : Position := ⟨1, 1⟩

/-- Only a newline begins a line. -/
def next (p : Position) (c : Char) : Position :=
  if c = '\n' then ⟨p.line + 1, 1⟩ else ⟨p.line, p.column + 1⟩

def past (p : Position) (t : Text) : Position := t.foldl next p

end Position

structure UnknownWord where
  word : Text
  position : Position
  deriving DecidableEq, Repr

def UnknownWord.message (u : UnknownWord) : Text :=
  "Unknown command ".toList ++ Text.quoted u.word ++ " at ".toList ++
    Text.natural u.position.line ++ [':'] ++ Text.natural u.position.column

structure Listing where
  issued : List Instruction
  unknown : Option UnknownWord
  deriving DecidableEq, Repr

namespace Listing

def ofItems (p : Position) : List Item → Listing
  | [] => ⟨[], none⟩
  | .word w :: rest =>
    match Instruction.ofMnemonic? w with
    | some i =>
      let listing := ofItems (p.past w) rest
      { listing with issued := i :: listing.issued }
    | none => ⟨[], some ⟨w, p⟩⟩
  | item :: rest => ofItems (p.past item.text) rest

def ofText (t : Text) : Listing := ofItems .start (items t)

def codes (l : Listing) : Program := l.issued.map Instruction.code ++ [stopCode]

def program (l : Listing) : Except UnknownWord Program :=
  match l.unknown with
  | none => .ok l.codes
  | some unknown => .error unknown

theorem program_eq_ok_iff {l : Listing} {p : Program} :
    l.program = .ok p ↔ l.unknown = none ∧ p = l.codes := by
  cases h : l.unknown <;> simp [program, h, eq_comm]

theorem program_eq_error_iff {l : Listing} {u : UnknownWord} :
    l.program = .error u ↔ l.unknown = some u := by
  cases h : l.unknown <;> simp [program, h]

def issueNote (i : Instruction × Nat) : Note :=
  ⟨.debug, "Issuing command ".toList ++ i.1.mnemonic ++ " @ ".toList ++ Text.natural i.2⟩

def journal (l : Listing) : Journal :=
  l.issued.zipIdx.map issueNote ++
    match l.unknown with
    | none => [⟨.debug, "Loaded ".toList ++ Text.natural l.issued.length ++
        " instructions".toList⟩]
    | some _ => []

end Listing

structure Path where
  root : Text
  segments : List Text
  deriving DecidableEq, Repr

namespace Path

def split : Text → List Text
  | [] => [[]]
  | '/' :: rest => [] :: split rest
  | c :: rest =>
    match split rest with
    | segment :: segments => (c :: segment) :: segments
    | [] => [[c]]

/-- Two slashes in front are kept as two, more than two count as one. -/
def rootOf (t : Text) : Text :=
  let slashes := t.takeWhile (· == '/')
  if slashes.length ≤ 2 then slashes else ['/']

def ofText (t : Text) : Path :=
  ⟨rootOf t, (split t).filter fun segment => segment != [] && segment != ['.']⟩

def text (p : Path) : Text :=
  if p.root.isEmpty && p.segments.isEmpty then ['.']
  else p.root ++ ['/'].intercalate p.segments

end Path

inductive FileError where
  | notFound
  | isDirectory
  | notDirectory
  | denied
  | tooLong
  | nullCharacter
  deriving DecidableEq, Repr

def FileError.message (p : Path) : FileError → Text
  | .notFound => "[Errno 2] No such file or directory: ".toList ++ Text.quoted p.text
  | .isDirectory => "[Errno 21] Is a directory: ".toList ++ Text.quoted p.text
  | .notDirectory => "[Errno 20] Not a directory: ".toList ++ Text.quoted p.text
  | .denied => "[Errno 13] Permission denied: ".toList ++ Text.quoted p.text
  | .tooLong => "[Errno 36] File name too long: ".toList ++ Text.quoted p.text
  | .nullCharacter => "embedded null byte".toList

def replacement : Char := '�'

def decodeByte (b : UInt8) : Char :=
  if b.toNat < 0x80 then Char.ofNat b.toNat else replacement

def fileText (bytes : List UInt8) : Text := Text.foldNewlines (bytes.map decodeByte)

def Listing.ofBytes (bytes : List UInt8) : Listing := .ofText (fileText bytes)

end CowMachine.Source
