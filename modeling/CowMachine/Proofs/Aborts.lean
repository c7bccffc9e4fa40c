import CowMachine.Proofs.Legibility
import CowMachine.Proofs.Obstacles

/-!
# When a step is aborted

Nothing hinders a loaded program as long as its input ends in order, its
numbers have text and its characters can be printed. All that can go wrong then
goes wrong by the rules of the language: a move to the left of the first cell,
a delegation to delegation, or a number that is to be read where the input has
none. What the register holds was in a cell before, so only the cells need to
be looked at.
-/

set_option autoImplicit false

namespace CowMachine

namespace Input

def LacksNumber (i : Input) : Prop := i.token = [] ∨ Text.numeral? i.token = none

instance (i : Input) : Decidable i.LacksNumber := inferInstanceAs (Decidable (_ ∨ _))

end Input

namespace Control

variable {c c' : Control} {cell : Int} {i : Instruction} {action : Tape.Action}

theorem obey_register (h : c.obey cell i = .act action c') :
    ∀ v ∈ c'.register, v ∈ c.register ∨ v = cell := by
  intro v hv
  by_cases hi : i = .toggle
  · subst hi
    rw [obey, called] at h
    obtain ⟨-, rfl⟩ := Reaction.act.inj h
    cases hr : c.register with
    | none =>
      rw [hr] at hv
      exact .inr (Option.some.inj hv).symm
    | some w =>
      rw [hr] at hv
      cases hv
  · rw [(obey_act_effects h).2 hi] at hv
    exact .inl hv

theorem react_register {code : Int} (h : c.react cell code = .act action c') :
    ∀ v ∈ c'.register, v ∈ c.register ∨ v = cell := by
  obtain ⟨rule, hrule, hreact⟩ := react_rule cell code
  rw [hreact] at h
  cases hrule with
  | obey i hi => exact obey_register h
  | stop | noCode =>
    obtain ⟨-, rfl⟩ := Reaction.act.inj h
    exact fun v hv => .inl hv
  | selfDelegation | noDigits | unknown => cases h

end Control

namespace Machine

variable {p : Program} {m m' : Machine} {fault : Fault}

theorem step_register (h : m.step = .next m') :
    ∀ v ∈ m'.register, v ∈ m.register ∨ v = m.tape.current := by
  cases hrun : m.halted with
  | true =>
    rw [step_halted hrun] at h
    obtain rfl := Outcome.next.inj h
    exact fun v hv => .inl hv
  | false =>
    cases hcode : m.current? with
    | none =>
      rw [step_outside hrun hcode] at h
      cases h
    | some code =>
      rw [step_running hrun hcode] at h
      obtain ⟨action, hact, -⟩ := dispatch_next h
      exact Control.react_register hact

structure Unhindered (m : Machine) : Prop where
  ending : m.terminal.input.ending = .finished
  legible : m.Legible
  line : ¬m.PrintsSurrogate

theorem unhindered_of_steps (hend : m.terminal.input.ending = .finished)
    (hregister : m.register.Printable)
    (hcells : ∀ k u, m.steps k = .next u → ∀ v ∈ u.tape.cells, Text.Printable v)
    (hline : ∀ k u, m.steps k = .next u → ¬u.PrintsSurrogate) {n : Nat}
    (h : m.steps n = .next m') : m'.Unhindered := by
  refine ⟨(steps_adds hline h).ending.trans hend, ⟨hcells n m' h, ?_⟩, hline n m' h⟩
  induction n generalizing m' with
  | zero =>
    obtain rfl := Outcome.next.inj h
    exact hregister
  | succ n ih =>
    obtain ⟨u, hsteps, hstep⟩ := steps_concat h
    intro v hv
    rcases step_register hstep v hv with hkept | rfl
    · exact ih hsteps v hkept
    · exact hcells n u hsteps _ (by simp [Tape.cells])

/-- The next step moves to the left of the first cell, delegates to delegation,
or reads a number where the input has none. -/
def Aborts (m : Machine) : Prop :=
  m.instruction? = some .left ∧ m.tape.cursor = 0 ∨
    m.current? = some Instruction.delegate.code ∧
      m.tape.current = Instruction.delegate.code ∨
    m.instruction? = some .readNumber ∧ m.terminal.input.LacksNumber

instance (m : Machine) : Decidable m.Aborts := inferInstanceAs (Decidable (_ ∨ _))

theorem aborts_of_fail (hp : p.Closed) (hsafe : m.Safe p) (hm : m.Unhindered)
    (h : m.step = .fail fault m') : m.Aborts ∧ ∃ cause, fault = .abort cause := by
  obtain ⟨code, hcode, hknown⟩ := hsafe.current hp
  cases obstacle_of_fail hm.ending h with
  | underflow hi hcursor => exact ⟨.inl ⟨hi, hcursor⟩, _, rfl⟩
  | selfDelegation hd hcell => exact ⟨.inr (.inl ⟨hd, hcell⟩), _, rfl⟩
  | missing hi hword => exact ⟨.inr (.inr ⟨hi, .inl hword⟩), _, rfl⟩
  | malformed hi _ hnone => exact ⟨.inr (.inr ⟨hi, .inr hnone⟩), _, rfl⟩
  | tooLong _ hcell => exact absurd (hm.legible.1 _ (by simp [Tape.cells])) hcell
  | unencodable hi hcell _ => exact absurd ⟨hi, hcell⟩ hm.line
  | outside hplace =>
    have hnone : m.current? = none := (Program.fetch?_eq_none_iff _ _).2 hplace
    rw [hnone] at hcode
    cases hcode
  | unknown hcode' hstop hrange =>
    obtain rfl := Option.some.inj (hcode.symm.trans hcode')
    obtain ⟨i, hi⟩ := hknown.resolve_left hstop
    rw [Instruction.ofCode?_eq_none_iff.2 hrange] at hi
    cases hi

theorem fail_of_aborts (hrun : m.halted = false) (hend : m.terminal.input.ending = .finished)
    (h : m.Aborts) : ∃ cause u, m.step = .fail (.abort cause) u := by
  have hfail {cause : Abort} (hobstacle : m.Obstacle (.abort cause)) :
      ∃ cause u, m.step = .fail (.abort cause) u :=
    ⟨cause, fail_of_obstacle hrun hend hobstacle⟩
  rcases h with ⟨hleft, hcursor⟩ | ⟨hcode, hcell⟩ | ⟨hread, hlacks⟩
  · exact hfail (.underflow hleft hcursor)
  · exact hfail (.selfDelegation hcode hcell)
  · by_cases hword : m.terminal.input.token = []
    · exact hfail (.missing hread hword)
    · exact hfail (.malformed hread hword (hlacks.resolve_left hword))

theorem printout_of_aborts (h : m.Aborts) : m.printout = [] := by
  rcases h with ⟨hleft, -⟩ | ⟨hcode, hcell⟩ | ⟨hread, -⟩
  · rw [printout_of_some hleft]
    rfl
  · apply printout_of_none
    rw [instruction?, hcode, hcell]
    exact ite_self _
  · rw [printout_of_some hread]
    rfl

theorem transcript_of_fail (h : m.step = .fail fault m') :
    m'.terminal.transcript = m.terminal.transcript := by
  rcases step_fail_kept h with rfl | ⟨-, rfl⟩
  · rfl
  · have hadds := m.terminal.readNumber_adds.transcript
    rwa [List.append_nil] at hadds

/-- How a run that nothing hinders ends, and what it has printed by then. -/
theorem result_of_unhindered {bound : Nat} (hp : p.Closed) (hm : m.Safe p)
    (hrun : m.halted = false) (hended : (m.run bound).ending ≠ .unfinished)
    (hunhindered : ∀ k u, m.steps k = .next u → u.Unhindered) :
    ∃ k last, m.steps k = .next last ∧ last.halted = false ∧
      (∀ u, last.step = .next u → u.halted = true) ∧
      ((m.run bound).ending = .halted ∧ ¬last.Aborts ∨
        (∃ cause, (m.run bound).ending = .aborted cause) ∧ last.Aborts) ∧
      (m.run bound).machine.terminal.transcript = m.terminal.transcript ++
        (List.range (k + 1)).flatMap fun i => (m.after i).printout := by
  have hline : ∀ k u, m.steps k = .next u → ¬u.PrintsSurrogate :=
    fun k u hsteps => (hunhindered k u hsteps).line
  obtain ⟨k, last, hsteps, hlast, hend⟩ := ended_by_step hrun hended
  have hfree := hunhindered k last hsteps
  refine ⟨k, last, hsteps, hlast, ?_⟩
  rcases hend with ⟨u, hstep, hhalted, hresult⟩ | ⟨fault, u, hstep, hresult⟩
  · have hall : m.steps (k + 1) = .next u := by
      rw [steps_of_steps hsteps, steps_one, hstep]
    have hprinted := (steps_adds hline hall).transcript
    rw [hresult]
    refine ⟨?_, .inl ⟨rfl, ?_⟩, hprinted⟩
    · intro v hv
      obtain rfl := Outcome.next.inj (hstep.symm.trans hv)
      exact hhalted
    · intro haborts
      obtain ⟨cause, v, hfail⟩ := fail_of_aborts hlast hfree.ending haborts
      rw [hstep] at hfail
      cases hfail
  · have hsafe : last.Safe p := hm.of_steps hp hsteps
    obtain ⟨haborts, cause, rfl⟩ := aborts_of_fail hp hsafe hfree hstep
    have hsafe' : u.Safe p := by
      have hnext := hsafe.step hp
      rwa [hstep] at hnext
    have hprintable : u.Printable := (printable_of_step_fail hstep).2
      ⟨hfree.legible.1 _ (by simp [Tape.cells]), hfree.legible.2⟩
    obtain ⟨journal, habort⟩ := breakOff_of_printable hsafe' hprintable cause
    have hnothing : (m.after k).printout = [] := by
      rw [after_eq_of_steps hsteps]
      exact printout_of_aborts haborts
    have hprinted : u.terminal.transcript = m.terminal.transcript ++
        (List.range (k + 1)).flatMap fun i => (m.after i).printout := by
      rw [List.range_succ, List.flatMap_append, List.flatMap_singleton, hnothing,
        List.append_nil, transcript_of_fail hstep]
      exact (steps_adds hline hsteps).transcript
    rw [hresult, habort]
    refine ⟨?_, .inr ⟨⟨cause, rfl⟩, haborts⟩, hprinted⟩
    intro v hv
    rw [hstep] at hv
    cases hv

end Machine

end CowMachine
