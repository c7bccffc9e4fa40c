import CowMachine.Proofs.Execution
import CowMachine.Proofs.Failure

/-!
# What the steps of a run print

Two instructions print: one the character of the current cell, unless the cell
is zero, and one its number. Each prints one line. The transcript of a run is
the text of its steps in order and nothing else, as long as no character is
half of a surrogate pair. On the way the input keeps its ending.
-/

set_option autoImplicit false

namespace CowMachine

namespace Instruction

/-- The instruction that a code asks for, itself or through the current cell. -/
def effective? (cell code : Int) : Option Instruction :=
  if code = delegate.code then
    if cell = delegate.code then none else ofCode? cell
  else ofCode? code

theorem effective?_eq_some_iff {cell code : Int} {i : Instruction} :
    effective? cell code = some i ↔ i.Effective cell code := by
  have hself : i.code = delegate.code ↔ i = delegate := ⟨code_inj, congrArg _⟩
  unfold effective? Effective
  by_cases hcode : code = delegate.code
  · by_cases hcell : cell = delegate.code
    · rw [if_pos hcode, if_pos hcell, hcode, hcell]
      grind
    · rw [if_pos hcode, if_neg hcell, ofCode?_eq_some_iff, hcode]
      grind
  · rw [if_neg hcode, ofCode?_eq_some_iff]
    grind

def printout (cell : Int) : Instruction → Text
  | .character => if cell = 0 then [] else [Char.ofNat (cell % 0x10000).toNat, '\n']
  | .printNumber => Text.decimal cell ++ ['\n']
  | _ => []

end Instruction

/-- The low sixteen bits are half of a surrogate pair. -/
def IsSurrogate (v : Int) : Prop := 0xD800 ≤ v % 0x10000 ∧ v % 0x10000 ≤ 0xDFFF

instance (v : Int) : Decidable (IsSurrogate v) := inferInstanceAs (Decidable (_ ∧ _))

theorem Line.ofValue_of_not_surrogate {v : Int} (h : ¬IsSurrogate v) :
    Line.ofValue v = .text [Char.ofNat (v % 0x10000).toNat] := by
  rw [ofValue, ofUnit, if_neg]
  · rfl
  · intro hunit
    apply h
    simp only [unitCount] at hunit
    simp only [IsSurrogate]
    omega

theorem Line.ofValue_of_surrogate {v : Int} (h : IsSurrogate v) :
    Line.ofValue v = .surrogate (v % 0x10000).toNat := by
  simp only [IsSurrogate] at h
  rw [ofValue, ofUnit, if_pos]
  · rfl
  · simp only [unitCount]
    omega

theorem toNat_charOfNat {n : Nat} (h : n.isValidChar) : (Char.ofNat n).toNat = n := by
  rw [Char.ofNat, dif_pos h]
  rfl

/-- The character that a value is shown by is beyond all units for a surrogate, and
its own unit otherwise. -/
theorem Line.render_ofValue (v : Int) :
    ∃ c : Char, (ofValue v).render = [c, '\n'] ∧
      c.toNat = (v % 0x10000).toNat + if IsSurrogate v then 0x100000 else 0 := by
  by_cases h : IsSurrogate v
  · refine ⟨Char.ofNat (0x100000 + (v % 0x10000).toNat), ?_, ?_⟩
    · rw [ofValue_of_surrogate h, render]
    · rw [if_pos h, toNat_charOfNat, Nat.add_comm]
      simp only [Nat.isValidChar]
      omega
  · refine ⟨Char.ofNat (v % 0x10000).toNat, ?_, ?_⟩
    · rw [ofValue_of_not_surrogate h]
      rfl
    · rw [if_neg h, toNat_charOfNat, Nat.add_zero]
      simp only [IsSurrogate] at h
      simp only [Nat.isValidChar]
      omega

theorem Line.render_ofValue_inj {v w : Int} :
    (ofValue v).render = (ofValue w).render ↔ v % 0x10000 = w % 0x10000 := by
  obtain ⟨c, hc, hv⟩ := render_ofValue v
  obtain ⟨d, hd, hw⟩ := render_ofValue w
  constructor
  · intro h
    rw [hc, hd, List.cons.injEq] at h
    rw [h.1, hw] at hv
    split at hv <;> split at hv <;> omega
  · intro h
    rw [ofValue, ofValue, show (unitCount : Int) = 0x10000 from rfl, h]

theorem Line.render_surrogate_ne {v : Int} (h : IsSurrogate v) {content : Text}
    (hcontent : ∀ c ∈ content, c.toNat < 0x100000) :
    (ofValue v).render ≠ (text content).render := by
  obtain ⟨c, hc, hv⟩ := render_ofValue v
  rw [if_pos h] at hv
  rw [hc, render]
  intro heq
  have hmem : content = [c] := (List.append_left_inj ['\n']).1 heq.symm
  have hlt := hcontent c (hmem ▸ List.mem_singleton_self c)
  omega

theorem Input.readChar_ending {i j : Input} {c : Option Char} (h : i.readChar = .ok (c, j)) :
    j.ending = i.ending := by
  unfold readChar at h
  split at h
  · obtain ⟨-, rfl⟩ := Prod.mk.inj (Except.ok.inj h)
    rfl
  · split at h
    · obtain ⟨-, rfl⟩ := Prod.mk.inj (Except.ok.inj h)
      rfl
    · cases h

theorem Input.readNumber_ending (i : Input) : i.readNumber.2.ending = i.ending := by
  obtain ⟨rest, hrest, -⟩ := i.readWord_rest
  rw [readNumber_snd, hrest]

namespace Terminal

/-- From the first terminal to the second this text was printed, and the input
still ends as it did. -/
structure Adds (t : Terminal) (content : Text) (u : Terminal) : Prop where
  transcript : u.transcript = t.transcript ++ content
  ending : u.input.ending = t.input.ending

variable {t u v : Terminal} {content more : Text}

theorem Adds.silent (hrecent : u.recent = t.recent) (hending : u.input.ending = t.input.ending) :
    t.Adds [] u := by
  refine ⟨?_, hending⟩
  simp only [Terminal.transcript, printed, hrecent, List.append_nil]

theorem Adds.trans (h : t.Adds content u) (h' : u.Adds more v) : t.Adds (content ++ more) v := by
  refine ⟨?_, h'.ending.trans h.ending⟩
  rw [h'.transcript, h.transcript, List.append_assoc]

theorem writeLine_adds (h : t.writeLine (.text content) = .ok u) :
    t.Adds (content ++ ['\n']) u := by
  obtain rfl := Except.ok.inj h
  refine ⟨?_, rfl⟩
  simp [transcript, Printed.render, Line.render]

theorem writeNumber_adds {n : Int} (h : t.writeNumber n = .ok u) :
    t.Adds (Text.decimal n ++ ['\n']) u := by
  rw [writeNumber, Text.decimal?] at h
  by_cases hn : Text.Printable n
  · rw [if_pos hn] at h
    exact writeLine_adds h
  · rw [if_neg hn] at h
    cases h

theorem readChar_adds {n : Int} (h : t.readChar = .ok (n, u)) : t.Adds [] u := by
  unfold readChar at h
  split at h
  · rename_i hread
    obtain ⟨-, rfl⟩ := Prod.mk.inj (Except.ok.inj h)
    exact .silent rfl (Input.readChar_ending hread)
  · rename_i hread
    obtain ⟨-, rfl⟩ := Prod.mk.inj (Except.ok.inj h)
    exact .silent rfl (Input.readChar_ending hread)
  · cases h

theorem readNumber_adds (t : Terminal) : t.Adds [] t.readNumber.2 :=
  .silent rfl t.input.readNumber_ending

end Terminal

namespace Control

variable {c c' : Control} {cell : Int} {action : Tape.Action}

theorem written_act_eq {r : Except Fault Terminal} (h : c.written r = .act action c') :
    r = .ok c'.terminal := by
  cases r with
  | error fault => cases h
  | ok terminal =>
    obtain ⟨-, rfl⟩ := Reaction.act.inj h
    rfl

theorem readChar_act_adds (h : c.readChar = .act action c') : c.terminal.Adds [] c'.terminal := by
  rw [readChar] at h
  cases hread : c.terminal.readChar with
  | error fault =>
    rw [hread] at h
    cases h
  | ok answer =>
    rw [hread] at h
    obtain ⟨-, rfl⟩ := Reaction.act.inj h
    exact Terminal.readChar_adds hread

theorem readNumber_act_adds (h : c.readNumber = .act action c') :
    c.terminal.Adds [] c'.terminal := by
  have hadds := c.terminal.readNumber_adds
  rw [readNumber] at h
  cases hread : c.terminal.readNumber with
  | mk answer terminal =>
    rw [hread] at h hadds
    cases answer with
    | error fault => cases h
    | ok n =>
      obtain ⟨-, rfl⟩ := Reaction.act.inj h
      exact hadds

theorem obey_adds {i : Instruction} (hline : i = .character → ¬IsSurrogate cell)
    (h : c.obey cell i = .act action c') : c.terminal.Adds (i.printout cell) c'.terminal := by
  cases i with
  | loopEnd =>
    obtain ⟨_, -, rfl⟩ := repeatLoop_act h
    exact .silent rfl rfl
  | loopTest =>
    rw [obey] at h
    split at h
    · obtain ⟨_, -, rfl⟩ := leaveLoop_act h
      exact .silent rfl rfl
    · obtain ⟨-, rfl⟩ := Reaction.act.inj h
      exact .silent rfl rfl
  | delegate => cases h
  | character =>
    rw [obey] at h
    rw [Instruction.printout]
    split at h
    · rename_i hcell
      rw [if_pos hcell]
      exact readChar_act_adds h
    · rename_i hcell
      rw [if_neg hcell]
      have hwritten := written_act_eq h
      rw [Terminal.writeChar, Line.ofValue_of_not_surrogate (hline rfl)] at hwritten
      exact Terminal.writeLine_adds hwritten
  | printNumber => exact Terminal.writeNumber_adds (written_act_eq h)
  | readNumber => exact readNumber_act_adds h
  | left | right | decrement | increment | clear | toggle =>
    obtain ⟨-, rfl⟩ := Reaction.act.inj h
    exact .silent rfl rfl

end Control

namespace Machine

variable {m u : Machine} {code : Int}

def instruction? (m : Machine) : Option Instruction :=
  if m.halted then none else m.current?.bind (Instruction.effective? m.tape.current)

def printout (m : Machine) : Text :=
  match m.instruction? with
  | some i => i.printout m.tape.current
  | none => []

def PrintsSurrogate (m : Machine) : Prop :=
  m.instruction? = some .character ∧ IsSurrogate m.tape.current

instance (m : Machine) : Decidable m.PrintsSurrogate := inferInstanceAs (Decidable (_ ∧ _))

theorem instruction?_running (hrun : m.halted = false) (hcode : m.current? = some code) :
    m.instruction? = Instruction.effective? m.tape.current code := by
  rw [instruction?, hrun, hcode]
  rfl

theorem printout_of_some {i : Instruction} (h : m.instruction? = some i) :
    m.printout = i.printout m.tape.current := by
  rw [printout, h]

theorem printout_of_none (h : m.instruction? = none) : m.printout = [] := by
  rw [printout, h]

theorem dispatch_adds (hrun : m.halted = false) (hcode : m.current? = some code)
    (hline : ¬m.PrintsSurrogate) (h : m.dispatch code = .next u) :
    m.terminal.Adds m.printout u.terminal := by
  obtain ⟨action, hact, -⟩ := dispatch_next h
  obtain ⟨c, tape⟩ := u
  obtain ⟨rule, hrule, hreact⟩ := Control.react_rule m.tape.current code
  rw [hreact] at hact
  have hinstruction := instruction?_running hrun hcode
  cases hrule with
  | obey i hi =>
    rw [Instruction.effective?_eq_some_iff.2 hi] at hinstruction
    rw [printout_of_some hinstruction]
    refine Control.obey_adds (fun hcharacter hcell => hline ⟨?_, hcell⟩) hact
    rw [hinstruction, hcharacter]
  | stop hs =>
    have hnone : m.instruction? = none := by
      rw [hinstruction, hs]
      rfl
    obtain ⟨-, rfl⟩ := Reaction.act.inj hact
    rw [printout_of_none hnone]
    exact .silent rfl rfl
  | noCode hd hcell _ =>
    have hnone : m.instruction? = none := by
      rw [hinstruction, Instruction.effective?, if_pos hd, hcell, ite_self]
    obtain ⟨-, rfl⟩ := Reaction.act.inj hact
    rw [printout_of_none hnone]
    exact .silent rfl rfl
  | selfDelegation | noDigits | unknown => cases hact

theorem step_adds (hline : ¬m.PrintsSurrogate) (h : m.step = .next u) :
    m.terminal.Adds m.printout u.terminal := by
  cases hrun : m.halted with
  | true =>
    have hnone : m.instruction? = none := if_pos hrun
    rw [step_halted hrun] at h
    obtain rfl := Outcome.next.inj h
    rw [printout_of_none hnone]
    exact .silent rfl rfl
  | false =>
    cases hcode : m.current? with
    | none =>
      rw [step_outside hrun hcode] at h
      cases h
    | some code =>
      rw [step_running hrun hcode] at h
      exact dispatch_adds hrun hcode hline h

theorem steps_adds (hline : ∀ k v, m.steps k = .next v → ¬v.PrintsSurrogate) {n : Nat}
    (h : m.steps n = .next u) :
    m.terminal.Adds ((List.range n).flatMap fun k => (m.after k).printout) u.terminal := by
  induction n generalizing u with
  | zero =>
    obtain rfl := Outcome.next.inj h
    exact .silent rfl rfl
  | succ n ih =>
    obtain ⟨v, hsteps, hstep⟩ := steps_concat h
    rw [List.range_succ, List.flatMap_append, List.flatMap_singleton, after_eq_of_steps hsteps]
    exact (ih hsteps).trans (step_adds (hline n v hsteps) hstep)

end Machine

end CowMachine
