import CowMachine.Proofs.Reaction

/-!
# The same instruction in another machine

An instruction works on the store of a machine, which is its tape, register
and terminal, and sees nothing else unless it is a mark of a loop. Two
machines with one store react alike, in whatever programs and however far
apart their pointers are, as long as a search from a loop mark leads as far
apart in both.
-/

set_option autoImplicit false

namespace CowMachine

structure Store where
  tape : Tape
  register : Register
  terminal : Terminal
  deriving DecidableEq, Repr

namespace Machine

def store (m : Machine) : Store := ⟨m.tape, m.register, m.terminal⟩

def resume (m : Machine) (place : Int) (s : Store) : Machine :=
  { m with pc := place, tape := s.tape, register := s.register, terminal := s.terminal }

@[simp] theorem resume_program (m : Machine) (place : Int) (s : Store) :
    (m.resume place s).program = m.program := rfl

@[simp] theorem resume_pc (m : Machine) (place : Int) (s : Store) :
    (m.resume place s).pc = place := rfl

@[simp] theorem resume_resume (m : Machine) (place place' : Int) (s s' : Store) :
    (m.resume place s).resume place' s' = m.resume place' s' := rfl

end Machine

def Program.Search.Apart (shift : Int) (s t : Search) : Prop :=
  (∃ place, s = .found place ∧ t = .found (place + shift)) ∨ s = .absent ∧ t = .absent

/-- The reaction of a control, made by another some places further on. -/
def Reaction.transfer (d : Control) (shift : Int) : Reaction → Reaction
  | .act action c =>
    .act action { d with pc := c.pc + shift, register := c.register, terminal := c.terminal }
  | .fail fault c => .fail fault { d with register := c.register, terminal := c.terminal }

def Outcome.transfer (m : Machine) (shift : Int) : Outcome → Outcome
  | .next n => .next (m.resume (n.pc + shift) n.store)
  | .fail fault n => .fail fault (m.resume m.pc n.store)

theorem Control.obey_transfer_of_zero (c d : Control) {shift : Int}
    (hr : d.register = c.register) (ht : d.terminal = c.terminal) (hpc : d.pc = c.pc + shift)
    (cell : Int) {i : Instruction}
    (hexit : i = .loopTest → cell = 0 →
      (c.program.loopExit c.pc).Apart shift (d.program.loopExit d.pc))
    (hstart : i = .loopEnd → (c.program.loopStart c.pc).Apart shift (d.program.loopStart d.pc)) :
    d.obey cell i = (c.obey cell i).transfer d shift := by
  obtain ⟨p, register, pc, halted, terminal, journal⟩ := d
  dsimp only at hr ht hpc hexit hstart
  subst hr ht hpc
  have hnext : c.pc + shift + 1 = c.pc + 1 + shift := by omega
  cases i with
  | loopEnd =>
    simp only [obey, repeatLoop]
    rcases hstart rfl with ⟨place, hc, hd⟩ | ⟨hc, hd⟩ <;> rw [hc, hd]
    · rfl
    · simp only [Reaction.transfer, advance, hnext]
  | loopTest =>
    simp only [obey, leaveLoop]
    split
    · rename_i hcell
      rcases hexit rfl hcell with ⟨place, hc, hd⟩ | ⟨hc, hd⟩ <;> rw [hc, hd]
      · simp only [Reaction.transfer, Int.add_right_comm]
      · simp only [Reaction.transfer, advance, hnext]
    · simp only [Reaction.transfer, advance, hnext]
  | character =>
    simp only [obey, readChar]
    split
    · cases c.terminal.readChar <;> simp only [Reaction.transfer, advance, hnext]
    · cases c.terminal.writeChar cell <;> simp only [written, Reaction.transfer, advance, hnext]
  | printNumber =>
    simp only [obey]
    cases c.terminal.writeNumber cell <;> simp only [written, Reaction.transfer, advance, hnext]
  | readNumber =>
    simp only [obey, readNumber]
    obtain ⟨answer, terminal⟩ := c.terminal.readNumber
    cases answer <;> simp only [Reaction.transfer, advance, hnext]
  | left | right | delegate | decrement | increment | clear | toggle =>
    simp only [obey, called, Reaction.transfer, advance, hnext]

theorem Control.obey_transfer (c d : Control) {shift : Int} (hr : d.register = c.register)
    (ht : d.terminal = c.terminal) (hpc : d.pc = c.pc + shift) (cell : Int) {i : Instruction}
    (hexit : i = .loopTest → (c.program.loopExit c.pc).Apart shift (d.program.loopExit d.pc))
    (hstart : i = .loopEnd → (c.program.loopStart c.pc).Apart shift (d.program.loopStart d.pc)) :
    d.obey cell i = (c.obey cell i).transfer d shift :=
  obey_transfer_of_zero c d hr ht hpc cell (fun hi _ => hexit hi) hstart

theorem Machine.dispatch_transfer (m n : Machine) {code code' shift : Int}
    (hs : m.store = n.store)
    (h : m.toControl.react m.tape.current code =
      (n.toControl.react n.tape.current code').transfer m.toControl shift) :
    m.dispatch code = (n.dispatch code').transfer m shift := by
  have htape : m.tape = n.tape := congrArg Store.tape hs
  have hsame : m.resume m.pc n.store = m := by
    rw [← hs]
    rfl
  rw [dispatch, dispatch, h]
  cases n.toControl.react n.tape.current code' with
  | fail fault c =>
    simp only [Reaction.transfer, Outcome.transfer]
    rw [htape]
    rfl
  | act action c =>
    simp only [Reaction.transfer, htape]
    cases n.tape.act? action with
    | some tape => rfl
    | none => simp only [Outcome.transfer, hsame]

end CowMachine
