import CowMachine.Text.Basic

/-!
# Strict UTF-8

Bytes decode into characters one sequence at a time. The lead byte fixes how
many bytes follow and, for four of the leads, narrows the range of the second
byte so that overlong forms, surrogates and numbers above `0x10FFFF` never
start. A sequence that the end of the bytes cuts off is no flaw yet: more
bytes might still have completed it. The same patience is shown to two bytes
that can only begin a surrogate.
-/

set_option autoImplicit false

namespace CowMachine.Utf8

inductive Cause where
  | start
  | continuation
  | cutOff
  deriving DecidableEq, Repr

structure Flaw where
  position : Nat
  bytes : List UInt8
  cause : Cause
  deriving DecidableEq, Repr

def Cause.message : Cause → Text
  | .start => "invalid start byte".toList
  | .continuation => "invalid continuation byte".toList
  | .cutOff => "unexpected end of data".toList

def Flaw.place (f : Flaw) : Text :=
  match f.bytes with
  | [b] => "byte 0x".toList ++ Text.hexPadded 2 b.toNat ++ " in position ".toList ++
      Text.natural f.position
  | bs => "bytes in position ".toList ++ Text.natural f.position ++ ['-'] ++
      Text.natural (f.position + bs.length - 1)

def Flaw.message (f : Flaw) : Text :=
  "'utf-8' codec can't decode ".toList ++ f.place ++ ": ".toList ++ f.cause.message

/-- What a lead byte announces: its share of the character's number, how many
bytes follow, and the range of the first of them. -/
structure Lead where
  bits : Nat
  following : Nat
  low : Nat
  high : Nat
  deriving DecidableEq, Repr

def lead? (b : Nat) : Option Lead :=
  if b < 0x80 then some ⟨b, 0, 0x80, 0xBF⟩
  else if b < 0xC2 then none
  else if b < 0xE0 then some ⟨b - 0xC0, 1, 0x80, 0xBF⟩
  else if b = 0xE0 then some ⟨0, 2, 0xA0, 0xBF⟩
  else if b = 0xED then some ⟨0xD, 2, 0x80, 0x9F⟩
  else if b < 0xF0 then some ⟨b - 0xE0, 2, 0x80, 0xBF⟩
  else if b = 0xF0 then some ⟨0, 3, 0x90, 0xBF⟩
  else if b < 0xF4 then some ⟨b - 0xF0, 3, 0x80, 0xBF⟩
  else if b = 0xF4 then some ⟨4, 3, 0x80, 0x8F⟩
  else none

inductive Tail where
  | whole (number : Nat) (rest : List UInt8)
  | broken (taken : Nat)
  | cut
  deriving DecidableEq, Repr

def tail (number : Nat) : Nat → Nat → Nat → Nat → List UInt8 → Tail
  | 0, _, _, _, rest => .whole number rest
  | _ + 1, _, _, _, [] => .cut
  | k + 1, low, high, taken, b :: rest =>
    if low ≤ b.toNat ∧ b.toNat ≤ high then
      tail (number * 64 + (b.toNat - 0x80)) k 0x80 0xBF (taken + 1) rest
    else .broken taken

theorem tail_rest_le {number k low high taken : Nat} {bs rest : List UInt8} {n : Nat}
    (h : tail number k low high taken bs = .whole n rest) : rest.length ≤ bs.length := by
  induction k generalizing number low high taken bs with
  | zero => simp only [tail, Tail.whole.injEq] at h; simp [h.2]
  | succ k ih =>
    cases bs with
    | nil => simp [tail] at h
    | cons b bs =>
      simp only [tail] at h
      split at h
      · exact Nat.le_succ_of_le (ih h)
      · simp at h

inductive Ending where
  | whole
  | cut (bytes : List UInt8)
  | flawed (flaw : Flaw)
  deriving DecidableEq, Repr

structure Decoded where
  chars : Text
  ending : Ending
  deriving DecidableEq, Repr

/-- The last two bytes, if they begin a surrogate. -/
def isCutSurrogate : List UInt8 → Bool
  | [a, b] => a.toNat == 0xED && 0xA0 ≤ b.toNat && b.toNat ≤ 0xBF
  | _ => false

/-- A sequence that stays cut off is a flaw of its own, placed from its first
byte. -/
def Flaw.ofCut (bytes : List UInt8) : Flaw :=
  if isCutSurrogate bytes then ⟨0, bytes.take 1, .continuation⟩ else ⟨0, bytes, .cutOff⟩

def Decoded.cons (c : Char) (d : Decoded) : Decoded := { d with chars := c :: d.chars }

def decodeFrom (position : Nat) (bytes : List UInt8) : Decoded :=
  match bytes with
  | [] => ⟨[], .whole⟩
  | b :: rest =>
    match lead? b.toNat with
    | none => ⟨[], .flawed ⟨position, [b], .start⟩⟩
    | some l =>
      match h : tail l.bits l.following l.low l.high 0 rest with
      | .whole number rest' =>
        (decodeFrom (position + 1 + l.following) rest').cons (Char.ofNat number)
      | .broken taken =>
        if isCutSurrogate (b :: rest) then ⟨[], .cut (b :: rest)⟩
        else ⟨[], .flawed ⟨position, b :: rest.take taken, .continuation⟩⟩
      | .cut => ⟨[], .cut (b :: rest)⟩
termination_by bytes.length
decreasing_by exact Nat.lt_succ_of_le (tail_rest_le h)

def decode (bytes : List UInt8) : Decoded := decodeFrom 0 bytes

def Decoded.remainder (d : Decoded) : List UInt8 :=
  match d.ending with
  | .cut bytes => bytes
  | _ => []

def Decoded.isFlawed (d : Decoded) : Bool :=
  match d.ending with
  | .flawed _ => true
  | _ => false

end CowMachine.Utf8
