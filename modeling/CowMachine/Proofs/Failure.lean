import CowMachine.Proofs.Reaction

/-!
# What a failure leaves

Of all instructions only the reading of a number can fail after it has done
something, and all it has done then is to read. A failing machine is therefore
the machine as it was, perhaps with less of its input left.
-/

set_option autoImplicit false

namespace CowMachine

def Text.behindWord (s : Text) : Text := (s.dropWhile isBlank).dropWhile fun c => !isBlank c

namespace Input

theorem readWord_snd (i : Input) :
    i.readWord.2 = { i with rest := (Text.behindWord i.rest).tail } := by
  rw [readWord, Text.behindWord]
  dsimp only
  cases (i.rest.dropWhile Text.isBlank).dropWhile fun c => !Text.isBlank c with
  | cons c rest => rfl
  | nil => cases i.ending.fault? <;> rfl

theorem readWord_rest (i : Input) :
    ∃ rest, i.readWord.2 = { i with rest } ∧ rest <:+ i.rest := by
  refine ⟨_, i.readWord_snd, (List.tail_suffix _).trans ?_⟩
  exact (List.dropWhile_suffix _).trans (List.dropWhile_suffix _)

theorem readNumber_snd (i : Input) : i.readNumber.2 = i.readWord.2 := by
  unfold readNumber
  split
  · rename_i h
    rw [h]
  · rename_i h
    rw [h]
  · rename_i h
    rw [h]
    split <;> rfl

end Input

/-- The machine with another text left to read. -/
def Machine.withRest (m : Machine) (rest : Text) : Machine :=
  { m with terminal := { m.terminal with input := { m.terminal.input with rest } } }

namespace Machine

theorem dispatch_fail_kept {m m' : Machine} {code : Int} {fault : Fault}
    (h : m.dispatch code = .fail fault m') :
    m' = m ∨ Instruction.readNumber.Effective m.tape.current code ∧
      m' = { m with terminal := m.terminal.readNumber.2 } := by
  obtain ⟨c, tape⟩ := m'
  obtain ⟨rfl, hr | ⟨hm, -⟩⟩ := dispatch_fail h
  · obtain ⟨rfl | ⟨hi, rfl⟩, -⟩ := Control.react_fail_kept hr
    · exact .inl rfl
    · exact .inr ⟨hi, rfl⟩
  · exact .inl hm

theorem step_fail {m m' : Machine} {fault : Fault} (h : m.step = .fail fault m') :
    m.halted = false ∧ (m.current? = none ∧ m' = m ∨
      ∃ code, m.current? = some code ∧ m.dispatch code = .fail fault m') := by
  cases hrun : m.halted with
  | true =>
    rw [step_halted hrun] at h
    cases h
  | false =>
    refine ⟨rfl, ?_⟩
    cases hcode : m.current? with
    | none =>
      rw [step, if_neg (by simp [hrun]), hcode] at h
      exact .inl ⟨rfl, (Outcome.fail.inj h).2.symm⟩
    | some code =>
      rw [step_running hrun hcode] at h
      exact .inr ⟨code, rfl, h⟩

theorem step_fail_kept {m m' : Machine} {fault : Fault} (h : m.step = .fail fault m') :
    m' = m ∨ (∃ code, m.current? = some code ∧
      Instruction.readNumber.Effective m.tape.current code) ∧
        m' = { m with terminal := m.terminal.readNumber.2 } := by
  obtain ⟨-, ⟨-, hm⟩ | ⟨code, hcode, hd⟩⟩ := step_fail h
  · exact .inl hm
  · rcases dispatch_fail_kept hd with hm | ⟨hi, hm⟩
    · exact .inl hm
    · exact .inr ⟨⟨code, hcode, hi⟩, hm⟩

theorem readNumber_rest (m : Machine) :
    ∃ rest, { m with terminal := m.terminal.readNumber.2 } = m.withRest rest ∧
      rest <:+ m.terminal.input.rest := by
  obtain ⟨rest, hrest, hsuffix⟩ := m.terminal.input.readWord_rest
  refine ⟨rest, ?_, hsuffix⟩
  rw [withRest, ← hrest, ← Input.readNumber_snd]
  rfl

end Machine

/-- A machine that fails, whatever its program and wherever its pointer, is as
it was before but for the text left to read, of which the reading of a number
may have taken some. -/
theorem failure_spends_input_only (m m' : Machine) (fault : Fault) :
    (∀ code, m.dispatch code = .fail fault m' →
      ∃ rest, m' = m.withRest rest ∧ rest <:+ m.terminal.input.rest ∧
        (rest.length < m.terminal.input.rest.length →
          Instruction.readNumber.Effective m.tape.current code)) ∧
    (m.step = .fail fault m' →
      ∃ rest, m' = m.withRest rest ∧ rest <:+ m.terminal.input.rest ∧
        (rest.length < m.terminal.input.rest.length →
          ∃ code, m.current? = some code ∧
            Instruction.readNumber.Effective m.tape.current code)) := by
  obtain ⟨rest, hrest, hsuffix⟩ := m.readNumber_rest
  constructor
  · intro code h
    rcases Machine.dispatch_fail_kept h with rfl | ⟨hi, rfl⟩
    · exact ⟨_, rfl, List.suffix_rfl, fun hlt => absurd hlt (Nat.lt_irrefl _)⟩
    · exact ⟨rest, hrest, hsuffix, fun _ => hi⟩
  · intro h
    rcases Machine.step_fail_kept h with rfl | ⟨hi, rfl⟩
    · exact ⟨_, rfl, List.suffix_rfl, fun hlt => absurd hlt (Nat.lt_irrefl _)⟩
    · exact ⟨rest, hrest, hsuffix, fun _ => hi⟩

theorem failure_spends_input_only_at_malformed_number :
    let m : Machine := { Machine.start [8, 3] (.ofInput (.ofText " 4x 5".toList true)) with
      pc := -1, register := some 2, tape := ⟨[7], 11, [1]⟩ }
    let m' := m.withRest ['5']
    m.step = .fail (.abort (.numberMalformed ['4', 'x'])) m' ∧
    m.dispatch 11 = .fail (.abort (.numberMalformed ['4', 'x'])) m' ∧
    (∃ rest, m' = m.withRest rest ∧ rest <:+ m.terminal.input.rest ∧
      (rest.length < m.terminal.input.rest.length →
        ∃ code, m.current? = some code ∧
          Instruction.readNumber.Effective m.tape.current code)) ∧
    ∃ rest, m' = m.withRest rest ∧ rest <:+ m.terminal.input.rest ∧
      (rest.length < m.terminal.input.rest.length →
        Instruction.readNumber.Effective m.tape.current 11) := by
  intro m m'
  have hstep : m.step = .fail (.abort (.numberMalformed ['4', 'x'])) m' := by decide
  have hdispatch : m.dispatch 11 = .fail (.abort (.numberMalformed ['4', 'x'])) m' := by decide
  exact ⟨hstep, hdispatch, (failure_spends_input_only m m' _).2 hstep,
    (failure_spends_input_only m m' _).1 11 hdispatch⟩

end CowMachine
