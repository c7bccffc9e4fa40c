import CowMachine.Machine
import CowMachine.Proofs.Faults

/-!
# What an instruction can do

The answers of the control, told apart by what they leave as it was. Carrying
out an instruction moves the program pointer to one of three places and keeps
program, journal and the halted mark; halting keeps all else; failing keeps
everything but the terminal.
-/

set_option autoImplicit false

namespace CowMachine

/-- The instruction that a code asks for, with the current cell at hand. -/
def Instruction.Effective (cell code : Int) (i : Instruction) : Prop :=
  i ≠ .delegate ∧ (code = i.code ∨ code = Instruction.delegate.code ∧ cell = i.code)

theorem Instruction.Effective.ne_stopCode {cell code : Int} {i : Instruction}
    (h : i.Effective cell code) : code ≠ stopCode := by
  rcases h.2 with rfl | ⟨rfl, -⟩
  · exact i.code_ne_stopCode
  · exact Instruction.delegate.code_ne_stopCode

namespace Control

inductive Leads (c : Control) (i : Instruction) : Int → Prop
  | onward : c.Leads i (c.pc + 1)
  | behind {place : Int} (hi : i = .loopTest) (h : c.program.loopExit c.pc = .found place) :
      c.Leads i (place + 1)
  | back {place : Int} (hi : i = .loopEnd) (h : c.program.loopStart c.pc = .found place) :
      c.Leads i place

/-- A search for a loop mark begins outside the program. -/
def Astray (c : Control) : Prop :=
  ∃ place, c.program.loopExit c.pc = .outside place ∨ c.program.loopStart c.pc = .outside place

theorem leaveLoop_found {c : Control} {place : Int}
    (h : c.program.loopExit c.pc = .found place) :
    c.leaveLoop = .act .keep { c with pc := place + 1 } := by
  rw [leaveLoop, h]

theorem repeatLoop_found {c : Control} {place : Int}
    (h : c.program.loopStart c.pc = .found place) :
    c.repeatLoop = .act .keep { c with pc := place } := by
  rw [repeatLoop, h]

theorem leaveLoop_act {c c' : Control} {action : Tape.Action} (h : c.leaveLoop = .act action c') :
    ∃ place, c.Leads .loopTest place ∧ c' = { c with pc := place } := by
  unfold leaveLoop at h
  split at h <;> simp only [Reaction.act.injEq, reduceCtorEq] at h
  · rename_i place hs
    exact ⟨place + 1, .behind rfl hs, h.2.symm⟩
  · exact ⟨c.pc + 1, .onward, h.2.symm⟩

theorem repeatLoop_act {c c' : Control} {action : Tape.Action}
    (h : c.repeatLoop = .act action c') :
    ∃ place, c.Leads .loopEnd place ∧ c' = { c with pc := place } := by
  unfold repeatLoop at h
  split at h <;> simp only [Reaction.act.injEq, reduceCtorEq] at h
  · rename_i place hs
    exact ⟨place, .back rfl hs, h.2.symm⟩
  · exact ⟨c.pc + 1, .onward, h.2.symm⟩

theorem written_act {c c' : Control} {action : Tape.Action} {r : Except Fault Terminal}
    (h : c.written r = .act action c') :
    ∃ terminal, c' = { c with pc := c.pc + 1, terminal } := by
  cases r with
  | error fault => simp [written] at h
  | ok terminal =>
    simp only [written, Reaction.act.injEq] at h
    exact ⟨terminal, h.2.symm⟩

theorem readChar_act {c c' : Control} {action : Tape.Action}
    (h : c.readChar = .act action c') : ∃ terminal, c' = { c with pc := c.pc + 1, terminal } := by
  unfold readChar at h
  split at h <;> simp only [Reaction.act.injEq, reduceCtorEq] at h
  exact ⟨_, h.2.symm⟩

theorem readNumber_act {c c' : Control} {action : Tape.Action}
    (h : c.readNumber = .act action c') :
    ∃ terminal, c' = { c with pc := c.pc + 1, terminal } := by
  unfold readNumber at h
  split at h <;> simp only [Reaction.act.injEq, reduceCtorEq] at h
  exact ⟨_, h.2.symm⟩

theorem obey_act {c c' : Control} {cell : Int} {i : Instruction} {action : Tape.Action}
    (h : c.obey cell i = .act action c') :
    ∃ place register terminal, c.Leads i place ∧
      c' = { c with pc := place, register, terminal } := by
  have hnext {register : Register} (ht : ∃ terminal,
      c' = { c with pc := c.pc + 1, register, terminal }) :
      ∃ place register terminal, c.Leads i place ∧
        c' = { c with pc := place, register, terminal } := by
    obtain ⟨terminal, ht⟩ := ht
    exact ⟨_, _, _, .onward, ht⟩
  cases i with
  | loopEnd =>
    obtain ⟨place, hl, hc⟩ := repeatLoop_act h
    exact ⟨place, _, _, hl, hc⟩
  | loopTest =>
    simp only [obey] at h
    split at h
    · obtain ⟨place, hl, hc⟩ := leaveLoop_act h
      exact ⟨place, _, _, hl, hc⟩
    · simp only [Reaction.act.injEq] at h
      exact hnext ⟨_, h.2.symm⟩
  | delegate => simp [obey] at h
  | character =>
    simp only [obey] at h
    split at h
    · exact hnext (readChar_act h)
    · exact hnext (written_act h)
  | printNumber => exact hnext (written_act h)
  | readNumber => exact hnext (readNumber_act h)
  | left | right | decrement | increment | clear | toggle =>
    simp only [obey, called, Reaction.act.injEq] at h
    exact hnext ⟨_, h.2.symm⟩

theorem leaveLoop_fail {c c' : Control} {fault : Fault} (h : c.leaveLoop = .fail fault c') :
    c' = c ∧ c.Astray := by
  unfold leaveLoop at h
  split at h <;> simp only [Reaction.fail.injEq, reduceCtorEq] at h
  rename_i place hs
  exact ⟨h.2.symm, place, .inl hs⟩

theorem repeatLoop_fail {c c' : Control} {fault : Fault} (h : c.repeatLoop = .fail fault c') :
    c' = c ∧ c.Astray := by
  unfold repeatLoop at h
  split at h <;> simp only [Reaction.fail.injEq, reduceCtorEq] at h
  rename_i place hs
  exact ⟨h.2.symm, place, .inr hs⟩

theorem written_fail {c c' : Control} {fault : Fault} {r : Except Fault Terminal}
    (h : c.written r = .fail fault c') : c' = c ∧ r = .error fault := by
  cases r with
  | ok terminal => simp [written] at h
  | error fault' =>
    simp only [written, Reaction.fail.injEq] at h
    exact ⟨h.2.symm, by rw [h.1]⟩

theorem readChar_fail {c c' : Control} {fault : Fault} (h : c.readChar = .fail fault c') :
    c' = c ∧ ¬fault.Internal := by
  unfold readChar at h
  split at h <;> simp only [Reaction.fail.injEq, reduceCtorEq] at h
  rename_i hr
  exact ⟨h.2.symm, h.1 ▸ c.terminal.readChar_sound _ hr⟩

theorem readNumber_fail {c c' : Control} {fault : Fault} (h : c.readNumber = .fail fault c') :
    c' = { c with terminal := c.terminal.readNumber.2 } ∧ ¬fault.Internal := by
  unfold readNumber at h
  split at h <;> simp only [Reaction.fail.injEq, reduceCtorEq] at h
  rename_i hr
  have hs := c.terminal.input.readNumber_sound _ (congrArg Prod.fst hr)
  exact ⟨by rw [← h.2, hr], h.1 ▸ hs⟩

/-- Only the reading of a number can have done something before it fails. -/
theorem obey_fail {c c' : Control} {cell : Int} {i : Instruction} {fault : Fault}
    (h : c.obey cell i = .fail fault c') :
    (c' = c ∨ i = .readNumber ∧ c' = { c with terminal := c.terminal.readNumber.2 }) ∧
    (fault.Internal → c.Astray) := by
  cases i with
  | loopEnd =>
    obtain ⟨hc, ha⟩ := repeatLoop_fail h
    exact ⟨.inl hc, fun _ => ha⟩
  | loopTest =>
    simp only [obey] at h
    split at h
    · obtain ⟨hc, ha⟩ := leaveLoop_fail h
      exact ⟨.inl hc, fun _ => ha⟩
    · simp at h
  | delegate =>
    simp only [obey, Reaction.fail.injEq] at h
    obtain ⟨rfl, hc⟩ := h
    exact ⟨.inl hc.symm, False.elim⟩
  | character =>
    simp only [obey] at h
    split at h
    · obtain ⟨hc, hf⟩ := readChar_fail h
      exact ⟨.inl hc, fun hi => absurd hi hf⟩
    · obtain ⟨hc, hw⟩ := written_fail h
      exact ⟨.inl hc, fun hi => absurd hi (c.terminal.writeLine_sound _ _ hw)⟩
  | printNumber =>
    obtain ⟨hc, hw⟩ := written_fail h
    exact ⟨.inl hc, fun hi => absurd hi (c.terminal.writeNumber_sound _ _ hw)⟩
  | readNumber =>
    obtain ⟨hc, hf⟩ := readNumber_fail h
    exact ⟨.inr ⟨rfl, hc⟩, fun hi => absurd hi hf⟩
  | left | right | decrement | increment | clear | toggle => simp [obey, called] at h

theorem react_delegate (c : Control) (cell : Int) :
    c.react cell Instruction.delegate.code = c.delegate cell := rfl

theorem react_effective (c : Control) {cell code : Int} {i : Instruction}
    (h : i.Effective cell code) : c.react cell code = c.obey cell i := by
  obtain ⟨hi, rfl | ⟨rfl, rfl⟩⟩ := h
  · rw [react, if_neg i.code_ne_stopCode, Instruction.ofCode?_code]
    cases i with
    | delegate => exact absurd rfl hi
    | _ => rfl
  · rw [react_delegate, delegate, Instruction.ofCode?_code]

/-- The rule that a code follows, with the current cell at hand. It is the same
for every control. -/
inductive Rule (cell code : Int) : (Control → Reaction) → Prop
  | stop (h : code = stopCode) : Rule cell code fun c => .act .keep c.halt
  | obey (i : Instruction) (h : i.Effective cell code) : Rule cell code fun c => c.obey cell i
  | selfDelegation (h : code = Instruction.delegate.code)
      (hcell : cell = Instruction.delegate.code) :
      Rule cell code fun c => .fail (.abort .selfDelegation) c
  | noCode (h : code = Instruction.delegate.code) (hcell : Instruction.ofCode? cell = none)
      {digits : Text} (hdigits : Text.decimal? cell = some digits) :
      Rule cell code fun c => .act .keep
        (c.note .debug ("Invalid command code ".toList ++ digits ++ ", halting".toList)).halt
  | noDigits (h : code = Instruction.delegate.code) (hcell : Instruction.ofCode? cell = none)
      (hdigits : Text.decimal? cell = none) : Rule cell code fun c => .fail .numberTooLong c
  | unknown (hstop : code ≠ stopCode) (h : Instruction.ofCode? code = none) :
      Rule cell code fun c => .fail (.unknownCode code) c

theorem react_rule (cell code : Int) :
    ∃ rule, Rule cell code rule ∧ ∀ c : Control, c.react cell code = rule c := by
  by_cases hstop : code = stopCode
  · exact ⟨_, .stop hstop, fun c => if_pos hstop⟩
  cases hcode : Instruction.ofCode? code with
  | none =>
    refine ⟨_, .unknown hstop hcode, fun c => ?_⟩
    rw [react, if_neg hstop, hcode]
  | some i =>
    have hi := (Instruction.ofCode?_eq_some_iff.1 hcode).symm
    by_cases hd : i = .delegate
    · subst hd
      have hreact (c : Control) : c.react cell code = c.delegate cell := by
        rw [hi, react_delegate]
      cases hcell : Instruction.ofCode? cell with
      | none =>
        cases hdigits : Text.decimal? cell with
        | none =>
          refine ⟨_, .noDigits hi hcell hdigits, fun c => ?_⟩
          rw [hreact, delegate, hcell, hdigits]
        | some digits =>
          refine ⟨_, .noCode hi hcell hdigits, fun c => ?_⟩
          rw [hreact, delegate, hcell, hdigits]
      | some j =>
        have hj := (Instruction.ofCode?_eq_some_iff.1 hcell).symm
        by_cases hself : j = .delegate
        · refine ⟨_, .selfDelegation hi (hself ▸ hj), fun c => ?_⟩
          rw [hreact, delegate, hcell, hself]
          rfl
        · have heffective : j.Effective cell code := ⟨hself, .inr ⟨hi, hj⟩⟩
          exact ⟨_, .obey j heffective, fun c => react_effective c heffective⟩
    · have heffective : i.Effective cell code := ⟨hd, .inl hi⟩
      exact ⟨_, .obey i heffective, fun c => react_effective c heffective⟩

theorem react_act {c c' : Control} {cell code : Int} {action : Tape.Action}
    (h : c.react cell code = .act action c') :
    (∃ i place register terminal, i.Effective cell code ∧ c.Leads i place ∧
      c' = { c with pc := place, register, terminal }) ∨
    ((code = stopCode ∨ code = Instruction.delegate.code ∧ Instruction.ofCode? cell = none) ∧
      action = .keep ∧ ∃ journal, c' = { c with halted := true, journal }) := by
  obtain ⟨rule, hrule, hreact⟩ := react_rule cell code
  rw [hreact] at h
  cases hrule with
  | stop hs =>
    obtain ⟨rfl, rfl⟩ := Reaction.act.inj h
    exact .inr ⟨.inl hs, rfl, c.journal, rfl⟩
  | obey i hi =>
    obtain ⟨place, register, terminal, hl, hc⟩ := obey_act h
    exact .inl ⟨i, place, register, terminal, hi, hl, hc⟩
  | noCode hd hn _ =>
    obtain ⟨rfl, rfl⟩ := Reaction.act.inj h
    exact .inr ⟨.inr ⟨hd, hn⟩, rfl, _, rfl⟩
  | selfDelegation | noDigits | unknown => cases h

theorem react_fail_kept {c c' : Control} {cell code : Int} {fault : Fault}
    (h : c.react cell code = .fail fault c') :
    (c' = c ∨ Instruction.readNumber.Effective cell code ∧
      c' = { c with terminal := c.terminal.readNumber.2 }) ∧
    (fault.Internal → c.Astray ∨ code ≠ stopCode ∧ Instruction.ofCode? code = none) := by
  obtain ⟨rule, hrule, hreact⟩ := react_rule cell code
  rw [hreact] at h
  cases hrule with
  | obey i hi =>
    obtain ⟨hc | ⟨rfl, hc⟩, hf⟩ := obey_fail h
    · exact ⟨.inl hc, fun hint => .inl (hf hint)⟩
    · exact ⟨.inr ⟨hi, hc⟩, fun hint => .inl (hf hint)⟩
  | selfDelegation | noDigits =>
    obtain ⟨rfl, rfl⟩ := Reaction.fail.inj h
    exact ⟨.inl rfl, False.elim⟩
  | unknown hs hn =>
    obtain ⟨rfl, rfl⟩ := Reaction.fail.inj h
    exact ⟨.inl rfl, fun _ => .inr ⟨hs, hn⟩⟩
  | stop | noCode => cases h

theorem react_fail {c c' : Control} {cell code : Int} {fault : Fault}
    (h : c.react cell code = .fail fault c') :
    (∃ terminal, c' = { c with terminal }) ∧
    (fault.Internal → c.Astray ∨ code ≠ stopCode ∧ Instruction.ofCode? code = none) := by
  obtain ⟨hc | ⟨-, hc⟩, hf⟩ := react_fail_kept h
  · exact ⟨⟨c.terminal, hc⟩, hf⟩
  · exact ⟨⟨_, hc⟩, hf⟩

end Control

namespace Machine

theorem dispatch_next {m m' : Machine} {code : Int} (h : m.dispatch code = .next m') :
    ∃ action, m.toControl.react m.tape.current code = .act action m'.toControl ∧
      m.tape.act? action = some m'.tape := by
  unfold dispatch at h
  split at h
  · simp at h
  · rename_i action c hr
    split at h <;> simp only [Outcome.next.injEq, reduceCtorEq] at h
    rename_i tape ht
    subst h
    exact ⟨action, hr, ht⟩

theorem dispatch_fail {m m' : Machine} {code : Int} {fault : Fault}
    (h : m.dispatch code = .fail fault m') :
    m'.tape = m.tape ∧ (m.toControl.react m.tape.current code = .fail fault m'.toControl ∨
      m' = m ∧ fault = .abort .tapeUnderflow) := by
  unfold dispatch at h
  split at h
  · rename_i c hr
    simp only [Outcome.fail.injEq] at h
    obtain ⟨rfl, rfl⟩ := h
    exact ⟨rfl, .inl hr⟩
  · split at h <;> simp only [Outcome.fail.injEq, reduceCtorEq] at h
    obtain ⟨rfl, rfl⟩ := h
    exact ⟨rfl, .inr ⟨rfl, rfl⟩⟩

theorem current?_natCast {m : Machine} {n : Nat} (hn : m.pc = n) :
    m.current? = m.program[n]? := by
  rw [current?, hn, Program.fetch?_natCast]

theorem current?_append {m : Machine} {front rest : List Int} {code : Int}
    (hp : m.program = front ++ code :: rest) (hpc : m.pc = front.length) :
    m.current? = some code := by
  rw [current?_natCast hpc, hp, List.getElem?_append_right (Nat.le_refl _), Nat.sub_self]
  rfl

theorem step_halted {m : Machine} (h : m.halted = true) : m.step = .next m := by
  rw [step, if_pos h]

theorem step_running {m : Machine} (h : m.halted = false) {code : Int}
    (hc : m.current? = some code) : m.step = m.dispatch code := by
  rw [step, if_neg (by simp [h]), hc]

theorem step_outside {m : Machine} (h : m.halted = false) (hc : m.current? = none) :
    m.step = .fail (.outsideProgram m.pc) m := by
  rw [step, if_neg (by simp [h]), hc]

end Machine

end CowMachine
