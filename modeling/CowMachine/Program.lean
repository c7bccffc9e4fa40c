import CowMachine.Instruction

/-!
# Programs and their loop marks

A place in a program is an integer; a negative place counts back from the
end, and places go as far as a word of 64 bits with a sign. Both searches for
the partner of a loop mark pass over the place next to the mark they start
from, and then fetch one code after the other. The search forward takes the
nearest loop end; the search back counts loop ends against loop tests.
-/

set_option autoImplicit false

namespace CowMachine

abbrev Program := List Int

namespace Program

def fetch? (p : Program) (place : Int) : Option Int :=
  if 0 ≤ place then p[place.toNat]?
  else if 0 ≤ place + p.length then p[(place + p.length).toNat]?
  else none

theorem fetch?_natCast (p : Program) (n : Nat) : p.fetch? n = p[n]? := by
  simp [fetch?]

theorem fetch?_eq_none_iff (p : Program) (place : Int) :
    p.fetch? place = none ↔ place < -(p.length : Int) ∨ (p.length : Int) ≤ place := by
  unfold fetch?
  split
  · rw [List.getElem?_eq_none_iff]
    omega
  · split
    · rw [List.getElem?_eq_none_iff]
      omega
    · simp
      omega

def isAddress (place : Int) : Bool := -0x8000000000000000 ≤ place && place < 0x8000000000000000

/-- The answer of a search: a place, none, or the place that it could not fetch. -/
inductive Search where
  | found (place : Int)
  | absent
  | outside (place : Int)
  deriving DecidableEq, Repr

def endOnward (p : Program) : Nat → Int → Search
  | 0, _ => .absent
  | count + 1, place =>
    match p.fetch? place with
    | none => .outside place
    | some code =>
      if code = Instruction.loopEnd.code then .found place else endOnward p count (place + 1)

def loopExit (p : Program) (place : Int) : Search :=
  p.endOnward ((p.length : Int) - (place + 2)).toNat (place + 2)

/-- The walk back over so many places, the last of them zero, with some loop
ends still open. -/
def testBack (p : Program) : Nat → Nat → Search
  | _, 0 => .absent
  | pending, count + 1 =>
    match p.fetch? count with
    | none => .outside count
    | some code =>
      if code = Instruction.loopEnd.code then testBack p (pending + 1) count
      else if code = Instruction.loopTest.code then
        match pending with
        | 0 => .found count
        | pending + 1 => testBack p pending count
      else testBack p pending count

def loopStart (p : Program) (place : Int) : Search := p.testBack 0 (place - 1).toNat

end Program

end CowMachine
