import CowMachine.Text.Basic

/-!
# Instructions of COW

Twelve instructions, each with a code and a spelling of three letters. A
program holds codes, not instructions: the machine can be told to carry out
whatever number a memory cell holds, and a stop code beyond the twelve closes
every program that was loaded from a source.
-/

set_option autoImplicit false

namespace CowMachine

inductive Instruction where
  | loopEnd
  | left
  | right
  | delegate
  | character
  | decrement
  | increment
  | loopTest
  | clear
  | toggle
  | printNumber
  | readNumber
  deriving DecidableEq, Repr

namespace Instruction

def all : List Instruction :=
  [loopEnd, left, right, delegate, character, decrement, increment, loopTest, clear, toggle,
    printNumber, readNumber]

def code : Instruction → Int
  | loopEnd => 0
  | left => 1
  | right => 2
  | delegate => 3
  | character => 4
  | decrement => 5
  | increment => 6
  | loopTest => 7
  | clear => 8
  | toggle => 9
  | printNumber => 10
  | readNumber => 11

def mnemonic : Instruction → Text
  | loopEnd => ['m', 'o', 'o']
  | left => ['m', 'O', 'o']
  | right => ['m', 'o', 'O']
  | delegate => ['m', 'O', 'O']
  | character => ['M', 'o', 'o']
  | decrement => ['M', 'O', 'o']
  | increment => ['M', 'o', 'O']
  | loopTest => ['M', 'O', 'O']
  | clear => ['O', 'O', 'O']
  | toggle => ['M', 'M', 'M']
  | printNumber => ['O', 'O', 'M']
  | readNumber => ['o', 'o', 'm']

def ofCode? (n : Int) : Option Instruction := all.find? fun i => i.code == n

def ofMnemonic? (t : Text) : Option Instruction := all.find? fun i => i.mnemonic == t

theorem ofCode?_code (i : Instruction) : ofCode? i.code = some i := by cases i <;> decide

theorem code_inj {i j : Instruction} (h : i.code = j.code) : i = j := by
  have hi := ofCode?_code i
  rw [h, ofCode?_code] at hi
  exact (Option.some.inj hi).symm

theorem ofMnemonic?_mnemonic (i : Instruction) : ofMnemonic? i.mnemonic = some i := by
  cases i <;> decide

theorem ofCode?_eq_some_iff {n : Int} {i : Instruction} : ofCode? n = some i ↔ i.code = n := by
  constructor
  · intro h
    simpa using List.find?_some h
  · rintro rfl
    exact ofCode?_code i

theorem ofCode?_eq_none_iff {n : Int} : ofCode? n = none ↔ n < 0 ∨ 11 < n := by
  simp only [ofCode?, all, List.find?_eq_none, List.mem_cons, List.not_mem_nil, or_false,
    forall_eq_or_imp, forall_eq, code, beq_iff_eq]
  omega

theorem exists_code_eq {n : Int} (h0 : 0 ≤ n) (h1 : n ≤ 11) : ∃ i : Instruction, i.code = n := by
  cases h : ofCode? n with
  | none =>
    rw [ofCode?_eq_none_iff] at h
    omega
  | some i => exact ⟨i, ofCode?_eq_some_iff.1 h⟩

theorem ofMnemonic?_eq_some_iff {t : Text} {i : Instruction} :
    ofMnemonic? t = some i ↔ i.mnemonic = t := by
  constructor
  · intro h
    simpa using List.find?_some h
  · rintro rfl
    exact ofMnemonic?_mnemonic i

end Instruction

/-- The code that closes a loaded program. -/
def stopCode : Int := 255

theorem Instruction.code_ne_stopCode (i : Instruction) : i.code ≠ stopCode := by
  cases i <;> decide

def stopName : Text := ['E', 'O', 'F']

/-- A code that names nothing is shown as its number. -/
def codeName (n : Int) : Text :=
  match Instruction.ofCode? n with
  | some i => i.mnemonic
  | none => if n = stopCode then stopName else ['0', 'x'] ++ Text.hexSigned n

end CowMachine
