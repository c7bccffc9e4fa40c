import CowMachine.Proofs.Printing

/-!
# Runs in parts

A run with a bound is cut off when it would begin one step more. Until then it
has only taken steps, so it can be taken up again where it was cut, and both
parts together are the run with both bounds together: its result, its state,
its trace and its output. A run that ended before its bound takes no notice of
a greater one.
-/

set_option autoImplicit false

namespace CowMachine

namespace Machine

variable {m : Machine} {a : Nat}

theorem steps_of_unfinished (h : (m.run a).ending = .unfinished) :
    m.steps a = .next (m.run a).machine := by
  induction a generalizing m with
  | zero =>
    rw [run, runBy_zero (running_of_unfinished h)]
    rfl
  | succ a ih =>
    obtain ⟨m', hstep, hrest⟩ := next_of_unfinished h
    rw [run, hrest] at h
    rw [steps_succ hstep, run, hrest]
    exact ih h

theorem trace_halted (hrun : m.halted = true) (bound : Nat) : m.trace bound = [] := by
  cases bound with
  | zero => rfl
  | succ bound => exact if_pos hrun

theorem trace_next {m' : Machine} (hrun : m.halted = false) (h : m.step = .next m')
    (bound : Nat) : m.trace (bound + 1) = m.pc :: m'.pc :: m'.trace bound := by
  rw [trace, if_neg (by simp [hrun]), h]

theorem trace_fail {m' : Machine} {fault : Fault} (hrun : m.halted = false)
    (h : m.step = .fail fault m') (bound : Nat) : m.trace (bound + 1) = [m.pc] := by
  rw [trace, if_neg (by simp [hrun]), h]

theorem trace_resume (h : (m.run a).ending = .unfinished) (b : Nat) :
    m.trace (a + b) = m.trace a ++ (m.run a).machine.trace b := by
  induction a generalizing m with
  | zero =>
    rw [Nat.zero_add, run, runBy_zero (running_of_unfinished h)]
    rfl
  | succ a ih =>
    have hrun := running_of_unfinished h
    obtain ⟨m', hstep, hrest⟩ := next_of_unfinished h
    rw [run, hrest] at h
    rw [Nat.add_right_comm, trace_next hrun hstep, trace_next hrun hstep, run, hrest]
    exact congrArg (fun rest => m.pc :: m'.pc :: rest) (ih h)

theorem trace_ended (h : (m.run a).ending ≠ .unfinished) (b : Nat) :
    m.trace (a + b) = m.trace a := by
  induction a generalizing m with
  | zero =>
    cases hrun : m.halted with
    | true => rw [trace_halted hrun, trace_halted hrun]
    | false =>
      rw [run, runBy_zero hrun] at h
      exact absurd rfl h
  | succ a ih =>
    cases hrun : m.halted with
    | true => rw [trace_halted hrun, trace_halted hrun]
    | false =>
      rw [Nat.add_right_comm]
      cases hstep : m.step with
      | fail fault m' => rw [trace_fail hrun hstep, trace_fail hrun hstep]
      | next m' =>
        rw [run, runBy_next hrun hstep] at h
        rw [trace_next hrun hstep, trace_next hrun hstep, ih h]

end Machine

/-- A run cut off at a bound is that many steps; taken up again it is the run
with both bounds together, in result, state and trace. A run that ended before
its bound is the run with any greater one. What was printed up to a bound is the
beginning of what is printed up to a greater one. -/
theorem run_in_two_parts (m : Machine) (a b : Nat) :
    ((m.run a).ending = .unfinished →
      m.steps a = .next (m.run a).machine ∧
      (m.run a).machine.run b = m.run (a + b) ∧
      m.trace a ++ (m.run a).machine.trace b = m.trace (a + b)) ∧
    ((m.run a).ending ≠ .unfinished →
      m.run (a + b) = m.run a ∧ m.trace (a + b) = m.trace a) ∧
    (m.run a).machine.terminal.output <+: (m.run (a + b)).machine.terminal.output := by
  refine ⟨?_, ?_, ?_⟩
  · intro h
    exact ⟨Machine.steps_of_unfinished h, (Machine.runBy_resume h b).symm,
      (Machine.trace_resume h b).symm⟩
  · intro h
    exact ⟨Machine.runBy_ended h b, Machine.trace_ended h b⟩
  · by_cases h : (m.run a).ending = .unfinished
    · have hresume : m.run (a + b) = (m.run a).machine.run b := Machine.runBy_resume h b
      rw [hresume]
      exact ((m.run a).machine.run_prints b).output_grows
    · have hended : m.run (a + b) = m.run a := Machine.runBy_ended h b
      exact hended ▸ List.prefix_rfl

theorem run_in_two_parts_before_stop :
    let m := Machine.start [6, 10, 255] (.ofInput (.ofText [] false))
    (m.run 2).ending = .unfinished ∧ (m.run 2).machine.run 1 = m.run 3 ∧
    m.trace 2 ++ (m.run 2).machine.trace 1 = m.trace 3 ∧ m.trace 3 = [0, 1, 1, 2, 2, 2] ∧
    (m.run 3).ending = .halted ∧ (m.run 3).machine.tape.cells = [1] ∧
    (m.run 3).machine.terminal.output = "1\n".toList ∧ m.run (3 + 4) = m.run 3 := by
  intro m
  have hcut : (m.run 2).ending = .unfinished := by decide
  have hended : (m.run 3).ending = .halted := by decide
  have hparts := (run_in_two_parts m 2 1).1 hcut
  exact ⟨hcut, hparts.2.1, hparts.2.2, by decide, hended, by decide, by decide,
    ((run_in_two_parts m 3 4).2.1 (by rw [hended]; nofun)).1⟩

end CowMachine
