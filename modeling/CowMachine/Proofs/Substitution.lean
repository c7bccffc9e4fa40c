import CowMachine.Proofs.LoopMarks
import CowMachine.Proofs.Transfer

/-!
# Delegation is substitution

A delegation does what the code in the cell would do in its place. An
instruction knows its program only through the two searches for loop marks,
and neither looks at the place it starts from, so putting the code there
changes none of their answers.
-/

set_option autoImplicit false

namespace CowMachine

def Machine.withProgram (m : Machine) (p : Program) : Machine := { m with program := p }

def Outcome.withProgram (o : Outcome) (p : Program) : Outcome :=
  match o with
  | .next m => .next (m.withProgram p)
  | .fail fault m => .fail fault (m.withProgram p)

theorem Program.Search.apart_zero {s : Search} (h : ∀ place, s ≠ .outside place) :
    s.Apart 0 s := by
  cases s with
  | found place => exact .inl ⟨place, rfl, by rw [Int.add_zero]⟩
  | absent => exact .inr ⟨rfl, rfl⟩
  | outside place => exact absurd rfl (h place)

theorem Machine.transfer_zero (m : Machine) (p : Program) {code : Int} {i : Instruction}
    (hi : i.Effective m.tape.current code) :
    (m.dispatch code).transfer (m.withProgram p) 0 = (m.dispatch code).withProgram p := by
  cases hd : m.dispatch code with
  | fail fault n =>
    obtain ⟨c, tape⟩ := n
    obtain ⟨htape, hf | ⟨hm, -⟩⟩ := dispatch_fail hd
    · obtain ⟨⟨terminal, rfl⟩, -⟩ := Control.react_fail hf
      rfl
    · rw [hm]
      rfl
  | next n =>
    obtain ⟨c, tape⟩ := n
    obtain ⟨action, hr, -⟩ := dispatch_next hd
    rw [Control.react_effective _ hi] at hr
    obtain ⟨place, register, terminal, -, rfl⟩ := Control.obey_act hr
    simp only [Outcome.transfer, Int.add_zero]
    rfl

/-- A delegation and the code of its cell in its place: one step of either
gives the same in all but the program, failures included. -/
theorem delegation_is_substitution (m : Machine) (hrun : m.halted = false) (hpc : 0 ≤ m.pc)
    (hcode : m.current? = some Instruction.delegate.code)
    (hcell : 0 ≤ m.tape.current ∧ m.tape.current ≤ 11)
    (hself : m.tape.current ≠ Instruction.delegate.code) :
    let p : Program := m.program.set m.pc.toNat m.tape.current
    (m.withProgram p).step = m.step.withProgram p := by
  intro p
  obtain ⟨n, hn⟩ := Int.eq_ofNat_of_zero_le hpc
  obtain ⟨i, hi⟩ := Instruction.exists_code_eq hcell.1 hcell.2
  have hne : i ≠ .delegate := by
    rintro rfl
    exact hself hi.symm
  have hlt : n < m.program.length := by
    rw [Machine.current?_natCast hn] at hcode
    exact (List.getElem?_eq_some_iff.1 hcode).1
  have hp : p = m.program.set n i.code := by
    rw [hi]
    simp only [p, hn, Int.toNat_natCast]
  have hcode' : (m.withProgram p).current? = some i.code := by
    rw [Machine.current?_natCast (m := m.withProgram p) hn]
    exact hp ▸ List.getElem?_set_self hlt
  have hdelegated : i.Effective m.tape.current Instruction.delegate.code :=
    ⟨hne, .inr ⟨rfl, hi.symm⟩⟩
  have hexit : (m.program.loopExit m.pc).Apart 0 (p.loopExit m.pc) := by
    rw [hp, hn, Program.loopExit_set]
    exact Program.Search.apart_zero (Program.loopExit_ne_outside _ n)
  have hstart : (m.program.loopStart m.pc).Apart 0 (p.loopStart m.pc) := by
    rw [hp, hn, Program.loopStart_set _ hlt]
    exact Program.Search.apart_zero (Program.loopStart_ne_outside _ hlt)
  rw [Machine.step_running hrun hcode, Machine.step_running (m := m.withProgram p) hrun hcode',
    ← m.transfer_zero p hdelegated]
  apply Machine.dispatch_transfer (m.withProgram p) m rfl
  rw [Control.react_effective _ hdelegated, Control.react_effective _ ⟨hne, .inl rfl⟩]
  exact Control.obey_transfer m.toControl (m.withProgram p).toControl rfl rfl
    (Int.add_zero m.pc).symm _ (fun _ => hexit) fun _ => hstart

theorem delegation_is_substitution_at_loop_end :
    let m : Machine := { Machine.start [7, 6, 3, 255] (.ofInput (.ofText [] false)) with pc := 2 }
    m.step = .next { m with pc := 0 } ∧
      (m.withProgram [7, 6, 0, 255]).step = m.step.withProgram [7, 6, 0, 255] := by
  intro m
  exact ⟨by decide, delegation_is_substitution m rfl (by decide) rfl (by decide) (by decide)⟩

end CowMachine
