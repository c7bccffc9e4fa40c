import CowMachine.Proofs.Execution
import CowMachine.Proofs.Reaction
import CowMachine.Run

/-!
# Runs

A run is its first cycle and the run from there on. Once it has come to an end
a greater bound changes nothing. A run that was cut off goes on from where it
was cut, and one that some steps lead into from where they lead.
-/

set_option autoImplicit false

namespace CowMachine.Machine

variable {cycle : Machine → Outcome} {m m' : Machine}

theorem runBy_halted (h : m.halted = true) (bound : Nat) :
    m.runBy cycle bound = m.finish := by
  cases bound with
  | zero => exact if_pos h
  | succ bound => exact if_pos h

theorem runBy_next (hrun : m.halted = false) (h : cycle m = .next m') (bound : Nat) :
    m.runBy cycle (bound + 1) = m'.runBy cycle bound := by
  rw [runBy, if_neg (by simp [hrun]), h]

theorem runBy_fail (hrun : m.halted = false) {fault : Fault} (h : cycle m = .fail fault m')
    (bound : Nat) : m.runBy cycle (bound + 1) = m'.breakOff fault := by
  rw [runBy, if_neg (by simp [hrun]), h]

theorem breakOff_ends (m : Machine) (fault : Fault) :
    (m.breakOff fault).ending ≠ .unfinished ∧
      ∃ journal, (m.breakOff fault).machine = { m with journal } := by
  cases fault with
  | abort cause =>
    rw [breakOff, summarise]
    cases Report.summary (m.note .info ("Execution aborted: ".toList ++ cause.message)) with
    | ok line => exact ⟨nofun, _, rfl⟩
    | error fault => exact ⟨nofun, _, rfl⟩
  | outsideProgram | unknownCode | numberTooLong | interrupted | promptClosed | undecodable
  | unencodable => exact ⟨nofun, m.journal, rfl⟩

/-- A run that has ended stays as it is. -/
theorem runBy_ended {bound : Nat} (h : (m.runBy cycle bound).ending ≠ .unfinished)
    (more : Nat) : m.runBy cycle (bound + more) = m.runBy cycle bound := by
  induction bound generalizing m with
  | zero =>
    cases hrun : m.halted with
    | true => rw [runBy_halted hrun, runBy_halted hrun]
    | false => simp [runBy, hrun] at h
  | succ bound ih =>
    cases hrun : m.halted with
    | true => rw [runBy_halted hrun, runBy_halted hrun]
    | false =>
      rw [Nat.add_right_comm]
      cases hc : cycle m with
      | fail fault m' => rw [runBy_fail hrun hc, runBy_fail hrun hc]
      | next m' =>
        rw [runBy_next hrun hc] at h
        rw [runBy_next hrun hc, runBy_next hrun hc, ih h]

theorem unfinished_of_le {a b : Nat} (hb : (m.runBy cycle b).ending = .unfinished)
    (hab : a ≤ b) : (m.runBy cycle a).ending = .unfinished := by
  obtain ⟨more, rfl⟩ := Nat.exists_eq_add_of_le hab
  by_cases ha : (m.runBy cycle a).ending = .unfinished
  · exact ha
  · rwa [runBy_ended ha more] at hb

theorem runBy_zero (hrun : m.halted = false) : m.runBy cycle 0 = ⟨.unfinished, m⟩ :=
  if_neg (by simp [hrun])

theorem running_of_unfinished {bound : Nat}
    (h : (m.runBy cycle bound).ending = .unfinished) : m.halted = false := by
  cases hrun : m.halted with
  | false => rfl
  | true =>
    rw [runBy_halted hrun] at h
    cases h

theorem next_of_unfinished {bound : Nat}
    (h : (m.runBy cycle (bound + 1)).ending = .unfinished) :
    ∃ m', cycle m = .next m' ∧ m.runBy cycle (bound + 1) = m'.runBy cycle bound := by
  have hrun := running_of_unfinished h
  cases hc : cycle m with
  | next m' => exact ⟨m', rfl, runBy_next hrun hc bound⟩
  | fail fault m' =>
    rw [runBy_fail hrun hc] at h
    exact absurd h (m'.breakOff_ends fault).1

/-- A run that was cut off goes on from where it was cut. -/
theorem runBy_resume {a : Nat} (h : (m.runBy cycle a).ending = .unfinished) (b : Nat) :
    m.runBy cycle (a + b) = (m.runBy cycle a).machine.runBy cycle b := by
  induction a generalizing m with
  | zero => rw [Nat.zero_add, runBy_zero (running_of_unfinished h)]
  | succ a ih =>
    obtain ⟨m', hc, hrest⟩ := next_of_unfinished h
    rw [Nat.add_right_comm, runBy_next (running_of_unfinished h) hc, hrest]
    rw [hrest] at h
    exact ih h

theorem cut_running {bound : Nat} (h : (m.runBy cycle bound).ending = .unfinished) :
    (m.runBy cycle bound).machine.halted = false := by
  have hrest := runBy_resume h 0
  rw [Nat.add_zero] at hrest
  rw [hrest] at h
  exact running_of_unfinished h

theorem runBy_invariant {P : Machine → Prop} (hcycle : ∀ m, P m → P (cycle m).machine)
    {n : Nat} {w : Machine} (hm : P m) (h : m.runBy cycle n = ⟨.unfinished, w⟩) : P w := by
  induction n generalizing m with
  | zero =>
    have hcut : (m.runBy cycle 0).ending = .unfinished := by rw [h]
    rw [runBy_zero (running_of_unfinished hcut)] at h
    cases h
    exact hm
  | succ n ih =>
    have hcut : (m.runBy cycle (n + 1)).ending = .unfinished := by rw [h]
    obtain ⟨m', hc, hrest⟩ := next_of_unfinished hcut
    have hm' := hcycle m hm
    rw [hc] at hm'
    exact ih hm' (hrest.symm.trans h)

theorem runBy_of_cut_fail {n bound : Nat} {w u : Machine} {fault : Fault}
    (hcut : m.runBy cycle n = ⟨.unfinished, w⟩) (hfail : cycle w = .fail fault u) (hn : n < bound) :
    m.runBy cycle bound = u.breakOff fault := by
  obtain ⟨k, rfl⟩ := Nat.exists_eq_add_of_lt hn
  have hending : (m.runBy cycle n).ending = .unfinished := by rw [hcut]
  have hrun := cut_running hending
  rw [hcut] at hrun
  rw [Nat.add_assoc, runBy_resume hending, hcut]
  exact runBy_fail hrun hfail k

theorem cut_of_runBy_failed {bound : Nat} {fault : Fault}
    (h : (m.runBy cycle bound).ending = .failed fault) :
    ∃ n w cause u, n < bound ∧ m.runBy cycle n = ⟨.unfinished, w⟩ ∧
      cycle w = .fail cause u ∧ m.runBy cycle bound = u.breakOff cause := by
  induction bound generalizing m with
  | zero =>
    cases hrun : m.halted with
    | true =>
      rw [runBy_halted hrun] at h
      cases h
    | false =>
      rw [runBy_zero hrun] at h
      cases h
  | succ bound ih =>
    cases hrun : m.halted with
    | true =>
      rw [runBy_halted hrun] at h
      cases h
    | false =>
      cases hc : cycle m with
      | fail cause u =>
        exact ⟨0, m, cause, u, Nat.succ_pos _, runBy_zero hrun, hc, runBy_fail hrun hc bound⟩
      | next m' =>
        rw [runBy_next hrun hc] at h
        obtain ⟨n, w, cause, u, hn, hcut, hfail, hbreak⟩ := ih h
        exact ⟨n + 1, w, cause, u, Nat.succ_lt_succ hn, (runBy_next hrun hc n).trans hcut, hfail,
          (runBy_next hrun hc bound).trans hbreak⟩

theorem runBy_eq_of_ended {a b : Nat} (ha : (m.runBy cycle a).ending ≠ .unfinished)
    (hb : (m.runBy cycle b).ending ≠ .unfinished) : m.runBy cycle a = m.runBy cycle b := by
  rw [← runBy_ended ha b, ← runBy_ended hb a, Nat.add_comm]

theorem ended_by_step {bound : Nat} (hrun : m.halted = false)
    (h : (m.run bound).ending ≠ .unfinished) :
    ∃ k last, m.steps k = .next last ∧ last.halted = false ∧
      ((∃ u, last.step = .next u ∧ u.halted = true ∧ m.run bound = u.finish) ∨
        ∃ fault u, last.step = .fail fault u ∧ m.run bound = u.breakOff fault) := by
  induction bound generalizing m with
  | zero =>
    rw [run, runBy_zero hrun] at h
    exact absurd rfl h
  | succ bound ih =>
    cases hstep : m.step with
    | fail fault u => exact ⟨0, m, rfl, hrun, .inr ⟨fault, u, hstep, runBy_fail hrun hstep bound⟩⟩
    | next u =>
      have hnext : m.run (bound + 1) = u.run bound := runBy_next hrun hstep bound
      rw [hnext] at h ⊢
      cases hhalted : u.halted with
      | true => exact ⟨0, m, rfl, hrun, .inl ⟨u, hstep, hhalted, runBy_halted hhalted bound⟩⟩
      | false =>
        obtain ⟨k, last, hsteps, hlast⟩ := ih hhalted h
        exact ⟨k + 1, last, (steps_succ hstep k).trans hsteps, hlast⟩

theorem steps_halted (h : m.halted = true) (n : Nat) : m.steps n = .next m := by
  induction n with
  | zero => rfl
  | succ n ih => rw [steps_succ (step_halted h), ih]

theorem run_of_steps {a : Nat} (h : m.steps a = .next m') (hrun : m'.halted = false)
    (b : Nat) : m.run (a + b) = m'.run b := by
  induction a generalizing m with
  | zero =>
    obtain rfl := Outcome.next.inj h
    rw [Nat.zero_add]
  | succ a ih =>
    have hm : m.halted = false := by
      cases hm : m.halted with
      | false => rfl
      | true =>
        obtain rfl := Outcome.next.inj ((steps_halted hm (a + 1)).symm.trans h)
        exact hm.symm.trans hrun
    cases hstep : m.step with
    | fail fault n =>
      rw [steps, hstep] at h
      cases h
    | next n =>
      rw [steps_succ hstep] at h
      rw [Nat.add_right_comm, run, runBy_next hm hstep]
      exact ih h

end CowMachine.Machine
