import CowMachine.Proofs.Diagnostics
import CowMachine.Proofs.LoopMarks
import CowMachine.Proofs.Transfer

/-!
# Machines some places apart

Two machines are apart when they have one store and the pointer of the second
is a fixed number of places further on. They stay apart through a step that
finds the same code for both, as long as searches for loop marks lead as far
apart. Codes without a loop test may stand before a program: the program then
runs behind them as it runs alone.
-/

set_option autoImplicit false

namespace CowMachine

structure Control.Apart (shift : Int) (c d : Control) : Prop where
  register : d.register = c.register
  terminal : d.terminal = c.terminal
  pc : d.pc = c.pc + shift
  halted : d.halted = c.halted

structure Machine.Apart (shift : Int) (m n : Machine) : Prop
    extends Control.Apart shift m.toControl n.toControl where
  tape : n.tape = m.tape

inductive Reaction.Apart (shift : Int) : Reaction → Reaction → Prop
  | act {action : Tape.Action} {c d : Control} (h : c.Apart shift d) :
      Apart shift (.act action c) (.act action d)
  | fail {fault : Fault} {c d : Control} (h : c.Apart shift d) :
      Apart shift (.fail fault c) (.fail fault d)

inductive Outcome.Apart (shift : Int) : Outcome → Outcome → Prop
  | next {m n : Machine} (h : m.Apart shift n) : Apart shift (.next m) (.next n)
  | fail {fault : Fault} {m n : Machine} (h : m.Apart shift n) :
      Apart shift (.fail fault m) (.fail fault n)

structure Run.Apart (shift : Int) (r s : Run) : Prop where
  ending : s.ending = r.ending
  machine : r.machine.Apart shift s.machine

theorem Outcome.Apart.machine {shift : Int} {o u : Outcome} (h : o.Apart shift u) :
    o.machine.Apart shift u.machine := by
  cases h with
  | next h => exact h
  | fail h => exact h

variable {shift : Int}

namespace Control

theorem Apart.obey {c d : Control} (h : c.Apart shift d) {cell : Int} {i : Instruction}
    (hexit : i = .loopTest → cell = 0 →
      (c.program.loopExit c.pc).Apart shift (d.program.loopExit d.pc))
    (hstart : i = .loopEnd → (c.program.loopStart c.pc).Apart shift (d.program.loopStart d.pc)) :
    (c.obey cell i).Apart shift (d.obey cell i) := by
  rw [obey_transfer_of_zero c d h.register h.terminal h.pc cell hexit hstart]
  cases ho : c.obey cell i with
  | act action c' =>
    obtain ⟨place, register, terminal, -, rfl⟩ := obey_act ho
    exact .act ⟨rfl, rfl, rfl, h.halted⟩
  | fail fault c' =>
    obtain ⟨rfl | ⟨-, rfl⟩, -⟩ := obey_fail ho
    · exact .fail ⟨rfl, rfl, h.pc, h.halted⟩
    · exact .fail ⟨rfl, rfl, h.pc, h.halted⟩

theorem Apart.react {c d : Control} (h : c.Apart shift d) {cell code : Int}
    (hexit : Instruction.loopTest.Effective cell code → cell = 0 →
      (c.program.loopExit c.pc).Apart shift (d.program.loopExit d.pc))
    (hstart : Instruction.loopEnd.Effective cell code →
      (c.program.loopStart c.pc).Apart shift (d.program.loopStart d.pc)) :
    (c.react cell code).Apart shift (d.react cell code) := by
  obtain ⟨rule, hrule, hreact⟩ := react_rule cell code
  rw [hreact c, hreact d]
  cases hrule with
  | obey i hi => exact h.obey (fun heq => hexit (heq ▸ hi)) fun heq => hstart (heq ▸ hi)
  | stop | noCode => exact .act ⟨h.register, h.terminal, h.pc, rfl⟩
  | selfDelegation | noDigits | unknown => exact .fail h

end Control

namespace Machine

theorem Apart.dispatch {m n : Machine} (h : m.Apart shift n) {code : Int}
    (hr : (m.toControl.react m.tape.current code).Apart shift
      (n.toControl.react m.tape.current code)) :
    (m.dispatch code).Apart shift (n.dispatch code) := by
  rw [Machine.dispatch, Machine.dispatch, h.tape]
  generalize m.toControl.react m.tape.current code = r at hr
  generalize n.toControl.react m.tape.current code = s at hr
  cases hr with
  | fail hc => exact .fail ⟨hc, rfl⟩
  | @act action c d hc =>
    cases hact : m.tape.act? action with
    | some tape =>
      simp only [hact]
      exact .next ⟨hc, rfl⟩
    | none =>
      simp only [hact]
      exact .fail h

theorem Apart.step {m n : Machine} (h : m.Apart shift n) {code : Int}
    (hm : m.current? = some code) (hn : n.current? = some code)
    (hexit : Instruction.loopTest.Effective m.tape.current code → m.tape.current = 0 →
      (m.program.loopExit m.pc).Apart shift (n.program.loopExit n.pc))
    (hstart : Instruction.loopEnd.Effective m.tape.current code →
      (m.program.loopStart m.pc).Apart shift (n.program.loopStart n.pc)) :
    m.step.Apart shift n.step := by
  cases hrun : m.halted with
  | true =>
    rw [step_halted hrun, step_halted (h.halted.trans hrun)]
    exact .next h
  | false =>
    rw [step_running hrun hm, step_running (h.halted.trans hrun) hn]
    exact h.dispatch (h.toApart.react hexit hstart)

theorem Apart.finish {m n : Machine} (h : m.Apart shift n) :
    m.finish.Apart shift n.finish :=
  ⟨rfl, ⟨⟨h.register, h.terminal, h.pc, h.halted⟩, h.tape⟩⟩

/-- A failure is reported alike, since both summaries show the same numbers. -/
theorem Apart.breakOff {p q : Program} {m n : Machine} (h : m.Apart shift n) (hm : m.Safe p)
    (hn : n.Safe q) (fault : Fault) : (m.breakOff fault).Apart shift (n.breakOff fault) := by
  have hprintable : n.Printable ↔ m.Printable := by
    rw [Printable, Printable, h.tape, h.register]
  have hjournal (j k : Journal) : Apart shift { m with journal := j } { n with journal := k } :=
    ⟨⟨h.register, h.terminal, h.pc, h.halted⟩, h.tape⟩
  cases fault with
  | abort cause =>
    by_cases hp : m.Printable
    · obtain ⟨j, hj⟩ := breakOff_of_printable hm hp cause
      obtain ⟨k, hk⟩ := breakOff_of_printable hn (hprintable.2 hp) cause
      rw [hj, hk]
      exact ⟨rfl, hjournal j k⟩
    · obtain ⟨j, hj⟩ := breakOff_of_not_printable hm hp cause
      obtain ⟨k, hk⟩ := breakOff_of_not_printable hn (fun hq => hp (hprintable.1 hq)) cause
      rw [hj, hk]
      exact ⟨rfl, hjournal j k⟩
  | outsideProgram | unknownCode | numberTooLong | interrupted | promptClosed | undecodable
  | unencodable => exact ⟨rfl, h⟩

theorem Apart.run_halted {m n : Machine} (h : m.Apart shift n) (hm : m.halted = true)
    (bound : Nat) : (m.run bound).Apart shift (n.run bound) := by
  rw [run, run, runBy_halted hm, runBy_halted (h.halted.trans hm)]
  exact h.finish

theorem Apart.run_zero {m n : Machine} (h : m.Apart shift n) :
    (m.run 0).Apart shift (n.run 0) := by
  cases hrun : m.halted with
  | true => exact h.run_halted hrun _
  | false =>
    have hrun' : n.halted = false := h.halted.trans hrun
    simp only [run, runBy, hrun, hrun', Bool.false_eq_true, if_false]
    exact ⟨rfl, h⟩

theorem Apart.run_succ {p q : Program} {m n : Machine} (h : m.Apart shift n)
    (hstep : m.step.Apart shift n.step) (hm : m.step.machine.Safe p)
    (hn : n.step.machine.Safe q) (bound : Nat)
    (hrest : ∀ m' n', m.step = .next m' → n.step = .next n' → m'.Apart shift n' →
      (m'.run bound).Apart shift (n'.run bound)) :
    (m.run (bound + 1)).Apart shift (n.run (bound + 1)) := by
  cases hrun : m.halted with
  | true => exact h.run_halted hrun _
  | false =>
    have hrun' : n.halted = false := h.halted.trans hrun
    generalize hms : m.step = o at hstep hm hrest
    generalize hns : n.step = u at hstep hn hrest
    cases hstep with
    | next h' =>
      rw [run, run, runBy_next hrun hms, runBy_next hrun' hns]
      exact hrest _ _ rfl rfl h'
    | fail h' =>
      rw [run, run, runBy_fail hrun hms, runBy_fail hrun' hns]
      exact h'.breakOff hm hn _

end Machine

namespace Program

theorem loopExit_append (front p : List Int) (n : Nat) :
    (Program.loopExit p n).Apart front.length
      (Program.loopExit (front ++ p) (front.length + n : Nat)) := by
  have hdrop : (front ++ p).drop (front.length + n + 2) = p.drop (n + 2) := by
    rw [Nat.add_assoc, List.drop_length_add_append]
  rw [loopExit_natCast, loopExit_natCast, hdrop]
  cases (p.drop (n + 2)).findIdx? (· == Instruction.loopEnd.code) with
  | none => exact .inr ⟨rfl, rfl⟩
  | some distance => exact .inl ⟨_, rfl, congrArg Search.found (by omega)⟩

theorem loopStart_append {front : List Int}
    (h : ∀ code ∈ front, code ≠ Instruction.loopTest.code) (p : List Int) {n : Nat}
    (hn : n < p.length) :
    (Program.loopStart p n).Apart front.length
      (Program.loopStart (front ++ p) (front.length + n : Nat)) := by
  cases n with
  | zero =>
    have hp : Program.loopStart p (0 : Nat) = .absent :=
      @loopStart_absent [] (by simp) p 0 (Nat.le_refl 0)
    rw [hp, Nat.add_zero, loopStart_absent h p (Nat.le_refl _)]
    exact .inr ⟨rfl, rfl⟩
  | succ n =>
    have htake : (front ++ p).take (front.length + (n + 1) - 1) = front ++ p.take n := by
      rw [show front.length + (n + 1) - 1 = front.length + n by omega,
        List.take_length_add_append]
    have hreverse : ∀ code ∈ front.reverse, code ≠ Instruction.loopTest.code :=
      fun code hm => h code (List.mem_reverse.1 hm)
    rw [loopStart_natCast p (by omega), loopStart_natCast _ (by simp; omega), htake,
      List.reverse_append, openingTest_append_right hreverse, List.length_reverse,
      Nat.add_sub_cancel]
    cases openingTest 0 (p.take n).reverse with
    | none => exact .inr ⟨rfl, rfl⟩
    | some found => exact .inl ⟨_, rfl, rfl⟩

end Program

namespace Machine

variable {front p : List Int}

/-- A program behind codes without a loop test takes the steps it takes
alone. -/
theorem Apart.step_behind {m n : Machine}
    (hfront : ∀ code ∈ front, code ≠ Instruction.loopTest.code) (hp : Program.Closed p)
    (h : m.Apart front.length n) (hm : m.Safe p) (hn : n.Safe (front ++ p)) :
    m.step.Apart front.length n.step := by
  obtain ⟨k, hk, hlt⟩ := hm.inside
  obtain ⟨code, hcode, -⟩ := hm.current hp
  have hpc : n.pc = (front.length + k : Nat) := by
    rw [h.pc, hk]
    omega
  apply h.step hcode
  · rw [current?_natCast hpc, hn.program, List.getElem?_append_right (by omega),
      Nat.add_sub_cancel_left, ← hm.program, ← current?_natCast hk, hcode]
  · intro _ _
    rw [hm.program, hn.program, hk, hpc]
    exact Program.loopExit_append front p k
  · intro _
    rw [hm.program, hn.program, hk, hpc]
    exact Program.loopStart_append hfront p hlt

theorem Apart.after_behind {m n : Machine}
    (hfront : ∀ code ∈ front, code ≠ Instruction.loopTest.code) (hp : Program.Closed p)
    (hq : Program.Closed (front ++ p)) (h : m.Apart front.length n) (hm : m.Safe p)
    (hn : n.Safe (front ++ p)) (k : Nat) :
    (m.after k).Apart front.length (n.after k) ∧ (m.after k).Safe p ∧
      (n.after k).Safe (front ++ p) := by
  induction k with
  | zero => exact ⟨h, hm, hn⟩
  | succ k ih =>
    obtain ⟨h, hm, hn⟩ := ih
    exact ⟨(h.step_behind hfront hp hm hn).machine, hm.step hp, hn.step hq⟩

theorem Apart.run_behind {m n : Machine}
    (hfront : ∀ code ∈ front, code ≠ Instruction.loopTest.code) (hp : Program.Closed p)
    (hq : Program.Closed (front ++ p)) (h : m.Apart front.length n) (hm : m.Safe p)
    (hn : n.Safe (front ++ p)) (bound : Nat) :
    (m.run bound).Apart front.length (n.run bound) := by
  induction bound generalizing m n with
  | zero => exact h.run_zero
  | succ bound ih =>
    have hm' := hm.step hp
    have hn' := hn.step hq
    refine h.run_succ (h.step_behind hfront hp hm hn) hm' hn' bound ?_
    intro m' n' hms hns h'
    rw [hms] at hm'
    rw [hns] at hn'
    exact ih h' hm' hn'

end Machine

end CowMachine
