import CowMachine.Proofs.Execution
import CowMachine.Proofs.Running

/-!
# One machine at two terminals

A machine meets its terminal in three ways: it reads a character, it reads a
number, or it prints a line. Where a second terminal answers these as the first
one does, a machine at the second goes through the same steps and the same run,
failures included.
-/

set_option autoImplicit false

namespace CowMachine

variable {f : Terminal → Terminal}

def Control.atTerminal (f : Terminal → Terminal) (c : Control) : Control :=
  { c with terminal := f c.terminal }

def Machine.atTerminal (f : Terminal → Terminal) (m : Machine) : Machine :=
  { m with terminal := f m.terminal }

def Reaction.atTerminal (f : Terminal → Terminal) : Reaction → Reaction
  | .act action c => .act action (c.atTerminal f)
  | .fail fault c => .fail fault (c.atTerminal f)

def Outcome.atTerminal (f : Terminal → Terminal) : Outcome → Outcome
  | .next m => .next (m.atTerminal f)
  | .fail fault m => .fail fault (m.atTerminal f)

def Run.atTerminal (f : Terminal → Terminal) (r : Run) : Run :=
  { r with machine := r.machine.atTerminal f }

/-- The instruction, carried out on the cell, cannot tell the terminal from
what `f` makes of it. -/
structure Terminal.Alike (f : Terminal → Terminal) (t : Terminal) (cell : Int)
    (i : Instruction) : Prop where
  readChar : i = .character → cell = 0 → (f t).readChar = t.readChar.map (Prod.map id f)
  readNumber : i = .readNumber → (f t).readNumber = Prod.map id f t.readNumber
  writeLine : ∀ line, (f t).writeLine line = (t.writeLine line).map f

theorem Terminal.writeLine_of_print {t : Terminal} (hencodes : (f t).encodes = t.encodes)
    (hprint : ∀ line, (f t).print (.line line) = f (t.print (.line line))) (line : Line) :
    (f t).writeLine line = (t.writeLine line).map f := by
  cases line with
  | text content => exact congrArg Except.ok (hprint _)
  | surrogate n =>
    simp only [writeLine, hencodes]
    cases t.encodes with
    | true => rfl
    | false => exact congrArg Except.ok (hprint _)

def Machine.Alike (f : Terminal → Terminal) (m : Machine) : Prop :=
  ∀ i code, m.halted = false → m.current? = some code → i.Effective m.tape.current code →
    m.terminal.Alike f m.tape.current i

namespace Control

variable {c : Control}

theorem written_atTerminal (c : Control) (r : Except Fault Terminal) :
    (c.atTerminal f).written (r.map f) = (c.written r).atTerminal f := by
  cases r <;> rfl

theorem readChar_atTerminal
    (h : (f c.terminal).readChar = c.terminal.readChar.map (Prod.map id f)) :
    (c.atTerminal f).readChar = c.readChar.atTerminal f := by
  have hread : (c.atTerminal f).terminal.readChar = c.terminal.readChar.map (Prod.map id f) := h
  rw [readChar, readChar, hread]
  cases c.terminal.readChar <;> rfl

theorem readNumber_atTerminal
    (h : (f c.terminal).readNumber = Prod.map id f c.terminal.readNumber) :
    (c.atTerminal f).readNumber = c.readNumber.atTerminal f := by
  have hread : (c.atTerminal f).terminal.readNumber = Prod.map id f c.terminal.readNumber := h
  rw [readNumber, readNumber, hread]
  obtain ⟨answer, terminal⟩ := c.terminal.readNumber
  cases answer <;> rfl

theorem writeNumber_atTerminal
    (h : ∀ line, (f c.terminal).writeLine line = (c.terminal.writeLine line).map f) (v : Int) :
    (f c.terminal).writeNumber v = (c.terminal.writeNumber v).map f := by
  rw [Terminal.writeNumber, Terminal.writeNumber]
  cases Text.decimal? v with
  | some digits => exact h _
  | none => rfl

theorem obey_atTerminal {cell : Int} {i : Instruction} (h : c.terminal.Alike f cell i) :
    (c.atTerminal f).obey cell i = (c.obey cell i).atTerminal f := by
  cases i with
  | loopEnd =>
    have hsearch : (c.atTerminal f).program.loopStart (c.atTerminal f).pc =
        c.program.loopStart c.pc := rfl
    rw [obey, obey, repeatLoop, repeatLoop, hsearch]
    cases c.program.loopStart c.pc <;> rfl
  | loopTest =>
    have hsearch : (c.atTerminal f).program.loopExit (c.atTerminal f).pc =
        c.program.loopExit c.pc := rfl
    rw [obey, obey, leaveLoop, leaveLoop, hsearch]
    split
    · cases c.program.loopExit c.pc <;> rfl
    · rfl
  | character =>
    rw [obey, obey]
    split
    · rename_i hcell
      exact readChar_atTerminal (h.readChar rfl hcell)
    · have hwrite : (c.atTerminal f).terminal.writeChar cell =
          (c.terminal.writeChar cell).map f := h.writeLine _
      rw [hwrite, written_atTerminal]
  | printNumber =>
    have hwrite : (c.atTerminal f).terminal.writeNumber cell =
        (c.terminal.writeNumber cell).map f := writeNumber_atTerminal h.writeLine cell
    rw [obey, obey, hwrite, written_atTerminal]
  | readNumber => exact readNumber_atTerminal (h.readNumber rfl)
  | left | right | delegate | decrement | increment | clear | toggle => rfl

theorem react_atTerminal {cell code : Int}
    (h : ∀ i : Instruction, i.Effective cell code → c.terminal.Alike f cell i) :
    (c.atTerminal f).react cell code = (c.react cell code).atTerminal f := by
  obtain ⟨rule, hrule, hreact⟩ := react_rule cell code
  rw [hreact, hreact]
  cases hrule with
  | obey i hi => exact obey_atTerminal (h i hi)
  | stop | selfDelegation | noCode | noDigits | unknown => rfl

end Control

namespace Machine

variable {m : Machine}

theorem dispatch_atTerminal {code : Int}
    (h : ∀ i : Instruction, i.Effective m.tape.current code →
      m.terminal.Alike f m.tape.current i) :
    (m.atTerminal f).dispatch code = (m.dispatch code).atTerminal f := by
  have hreact : (m.atTerminal f).toControl.react (m.atTerminal f).tape.current code =
      (m.toControl.react m.tape.current code).atTerminal f := Control.react_atTerminal h
  rw [dispatch, dispatch, hreact]
  cases m.toControl.react m.tape.current code with
  | fail fault c => rfl
  | act action c =>
    have htape : (m.atTerminal f).tape.act? action = m.tape.act? action := rfl
    simp only [Reaction.atTerminal, htape]
    cases m.tape.act? action <;> rfl

theorem step_atTerminal (h : m.Alike f) : (m.atTerminal f).step = m.step.atTerminal f := by
  have hcurrent : (m.atTerminal f).current? = m.current? := rfl
  cases hrun : m.halted with
  | true =>
    have hrun' : (m.atTerminal f).halted = true := hrun
    rw [step_halted hrun, step_halted hrun']
    rfl
  | false =>
    have hrun' : (m.atTerminal f).halted = false := hrun
    cases hcode : m.current? with
    | none =>
      rw [step_outside hrun hcode, step_outside hrun' (hcurrent.trans hcode)]
      rfl
    | some code =>
      rw [step_running hrun hcode, step_running hrun' (hcurrent.trans hcode)]
      exact dispatch_atTerminal fun i hi => h i code hrun hcode hi

theorem machine_atTerminal (o : Outcome) :
    (o.atTerminal f).machine = o.machine.atTerminal f := by
  cases o <;> rfl

theorem after_atTerminal {n : Nat} (h : ∀ k, k < n → (m.after k).Alike f) :
    (m.atTerminal f).after n = (m.after n).atTerminal f := by
  induction n with
  | zero => rfl
  | succ n ih =>
    have hn := ih fun k hk => h k (Nat.lt_succ_of_lt hk)
    rw [after, after, hn, step_atTerminal (h n (Nat.lt_succ_self n)), machine_atTerminal]

theorem breakOff_atTerminal (m : Machine) (fault : Fault) :
    (m.atTerminal f).breakOff fault = (m.breakOff fault).atTerminal f := by
  cases fault with
  | abort cause =>
    rw [breakOff, breakOff, summarise, summarise]
    have hsummary (message : Text) : Report.summary ((m.atTerminal f).note .info message) =
        Report.summary (m.note .info message) := rfl
    rw [hsummary]
    cases Report.summary (m.note .info ("Execution aborted: ".toList ++ cause.message)) <;> rfl
  | outsideProgram | unknownCode | numberTooLong | interrupted | promptClosed | undecodable
  | unencodable => rfl

theorem run_atTerminal {n : Nat} (h : ∀ k, k < n → (m.after k).Alike f) :
    (m.atTerminal f).run n = (m.run n).atTerminal f := by
  induction n generalizing m with
  | zero =>
    rw [run, run, runBy, runBy]
    have hhalted : (m.atTerminal f).halted = m.halted := rfl
    rw [hhalted]
    split <;> rfl
  | succ n ih =>
    cases hrun : m.halted with
    | true =>
      have hrun' : (m.atTerminal f).halted = true := hrun
      rw [run, run, runBy_halted hrun, runBy_halted hrun']
      rfl
    | false =>
      have hrun' : (m.atTerminal f).halted = false := hrun
      have hstep := step_atTerminal (h 0 (Nat.succ_pos n))
      cases hnext : m.step with
      | fail fault m' =>
        rw [after, hnext] at hstep
        rw [run, run, runBy_fail hrun hnext, runBy_fail hrun' hstep]
        exact m'.breakOff_atTerminal fault
      | next m' =>
        rw [after, hnext] at hstep
        rw [run, run, runBy_next hrun hnext, runBy_next hrun' hstep]
        apply ih
        intro k hk
        have hone : m.after 1 = m' := congrArg Outcome.machine hnext
        rw [← hone, ← after_add, Nat.add_comm]
        exact h (k + 1) (Nat.succ_lt_succ hk)

end Machine

end CowMachine
