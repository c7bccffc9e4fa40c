import CowMachine.Proofs.LoopMarks
import CowMachine.Proofs.StraightLine
import Mathlib.Order.Bounds.Defs

/-!
# A flat loop is a while loop

The body of a flat loop holds plain codes only. Its loop test and its loop
end then find each other whatever stands around them, and the loop carries
out its body again and again, on the store alone, as long as the cell under
the cursor is not zero when it comes to the test.
-/

set_option autoImplicit false

namespace CowMachine

def Store.rounds (body : List Int) (s : Store) : Nat → Except (Fault × Store) Store
  | 0 => .ok s
  | n + 1 => s.rounds body n >>= fun u => u.performAll body

theorem Store.rounds_succ {body : List Int} {s u : Store} {n : Nat}
    (h : s.rounds body n = .ok u) : s.rounds body (n + 1) = u.performAll body := by
  rw [rounds, h]
  rfl

namespace Machine

variable {pre body post : List Int}

theorem step_keep {m : Machine} {i : Instruction} {place : Int} (hrun : m.halted = false)
    (hcode : m.current? = some i.code) (hi : i ≠ .delegate)
    (h : m.toControl.obey m.tape.current i = .act .keep { m.toControl with pc := place }) :
    m.step = .next (m.resume place m.store) := by
  rw [step_running hrun hcode, dispatch, Control.react_effective _ ⟨hi, .inl rfl⟩, h]
  rfl

theorem step_enter {m : Machine} (hp : m.program = Program.loop pre body post)
    (hpc : m.pc = pre.length) (hrun : m.halted = false) (hcell : m.tape.current ≠ 0) :
    m.step = .next (m.resume (pre.length + 1) m.store) := by
  have hcode := current?_append (hp.trans (Program.loop_eq_test pre body post)) hpc
  apply step_keep hrun hcode (by decide)
  rw [Control.obey, if_neg hcell, Control.advance, hpc]

theorem step_leave {m : Machine} (hb : body ≠ []) (hbody : ∀ code ∈ body, Plain code)
    (hp : m.program = Program.loop pre body post) (hpc : m.pc = pre.length)
    (hrun : m.halted = false) (hcell : m.tape.current = 0) :
    m.step = .next (m.resume (pre.length + body.length + 2) m.store) := by
  have hcode := current?_append (hp.trans (Program.loop_eq_test pre body post)) hpc
  have hexit : m.program.loopExit m.pc = .found (pre.length + body.length + 1) := by
    rw [hp, hpc]
    exact Program.loopExit_loop pre post hb fun code hm => (hbody code hm).1
  have hplace : (pre.length : Int) + body.length + 2 = pre.length + body.length + 1 + 1 := by
    omega
  apply step_keep hrun hcode (by decide)
  rw [Control.obey, if_pos hcell, Control.leaveLoop_found hexit, hplace]

theorem step_return {m : Machine} (hb : body ≠ []) (hbody : ∀ code ∈ body, Plain code)
    (hp : m.program = Program.loop pre body post)
    (hpc : m.pc = pre.length + 1 + body.length) (hrun : m.halted = false) :
    m.step = .next (m.resume pre.length m.store) := by
  have hend : m.pc = (pre ++ Instruction.loopTest.code :: body).length := by
    rw [hpc, List.length_append, List.length_cons]
    omega
  have hcode := current?_append (hp.trans (Program.loop_eq_end pre body post)) hend
  have hstart : m.program.loopStart m.pc = .found pre.length := by
    have hplace : m.pc = (pre.length + body.length + 1 : Nat) := by omega
    rw [hp, hplace]
    exact Program.loopStart_loop pre post hb fun code hm =>
      ⟨(hbody code hm).1, (hbody code hm).2.1⟩
  apply step_keep hrun hcode (by decide)
  rw [Control.obey, Control.repeatLoop_found hstart]

/-- Once round the loop: the test, the body and the way back. -/
theorem steps_round {m : Machine} (hb : body ≠ []) (hbody : ∀ code ∈ body, Plain code)
    (hp : m.program = Program.loop pre body post) (hpc : m.pc = pre.length)
    (hrun : m.halted = false) (hcell : m.tape.current ≠ 0) {s : Store}
    (hs : m.store.performAll body = .ok s) :
    m.steps (body.length + 2) = .next (m.resume pre.length s) := by
  have hcodes := steps_plain hbody (m.resume (pre.length + 1) m.store)
    (pre ++ [Instruction.loopTest.code]) (hp.trans (Program.loop_eq_body pre body post))
    (by simp) hrun hs
  have hreturn := step_return (m := m.resume (pre.length + 1 + body.length) s) hb hbody hp rfl hrun
  rw [steps_succ (step_enter hp hpc hrun hcell), steps_of_steps hcodes, steps_one]
  exact hreturn

theorem steps_rounds {m : Machine} (hb : body ≠ []) (hbody : ∀ code ∈ body, Plain code)
    (hp : m.program = Program.loop pre body post) (hpc : m.pc = pre.length)
    (hrun : m.halted = false) {n : Nat} {s : Store} (hs : m.store.rounds body n = .ok s)
    (hcell : ∀ k < n, ∀ u, m.store.rounds body k = .ok u → u.tape.current ≠ 0) :
    m.steps (n * (body.length + 2)) = .next (m.resume pre.length s) := by
  -- The last round is split off: the rounds before it leave the same machine
  -- at the test, with another store.
  induction n generalizing s with
  | zero =>
    obtain rfl := Except.ok.inj hs
    rw [Nat.zero_mul, ← hpc]
    rfl
  | succ n ih =>
    cases hu : m.store.rounds body n with
    | error e =>
      rw [Store.rounds, hu] at hs
      cases hs
    | ok u =>
      rw [Store.rounds_succ hu] at hs
      have hbefore := ih hu fun k hk => hcell k (by omega)
      rw [Nat.succ_mul, steps_of_steps hbefore]
      exact steps_round (m := m.resume pre.length u) hb hbody hp rfl hrun
        (hcell n (by omega) u hu) hs

end Machine

/-- A loop with a flat body carries out its body until the cell is zero at the
loop test, then goes on behind its end; where the body fails first, the loop
fails with it. The codes around the loop have no part in it. -/
theorem flat_loop_is_while (pre body post : List Int) (hb : body ≠ [])
    (hbody : ∀ code ∈ body, Plain code) (m : Machine)
    (hp : m.program = Program.loop pre body post) (hpc : m.pc = pre.length)
    (hrun : m.halted = false) :
    (∀ n s, IsLeast {k | ∃ u, m.store.rounds body k = .ok u ∧ u.tape.current = 0} n →
      m.store.rounds body n = .ok s →
      m.steps (n * (body.length + 2) + 1) =
        .next (m.resume (pre.length + body.length + 2) s)) ∧
    ∀ n fault s, (∀ k ≤ n, ∃ u, m.store.rounds body k = .ok u ∧ u.tape.current ≠ 0) →
      m.store.rounds body (n + 1) = .error (fault, s) →
      ∃ k < body.length, ∃ m', m.steps (n * (body.length + 2) + 1 + k) = .next m' ∧
        m'.step = .fail fault (m.resume (pre.length + 1 + k) s) := by
  constructor
  · rintro n s ⟨⟨u, hu, hzero⟩, hleast⟩ hs
    obtain rfl := Except.ok.inj (hu.symm.trans hs)
    have hrounds := Machine.steps_rounds hb hbody hp hpc hrun hs fun k hk u hu hz =>
      absurd (hleast ⟨u, hu, hz⟩) (by omega)
    rw [Machine.steps_of_steps hrounds, Machine.steps_one]
    exact Machine.step_leave (m := m.resume pre.length u) hb hbody hp rfl hrun hzero
  · intro n fault s hcells hfail
    obtain ⟨u, hu, hcell⟩ := hcells n (Nat.le_refl n)
    rw [Store.rounds_succ hu] at hfail
    have hrounds := Machine.steps_rounds hb hbody hp hpc hrun hu fun k hk v hv => by
      obtain ⟨w, hw, hne⟩ := hcells k (by omega)
      obtain rfl := Except.ok.inj (hw.symm.trans hv)
      exact hne
    have henter := Machine.step_enter (m := m.resume pre.length u) hp rfl hrun hcell
    obtain ⟨k, hk, m', hsteps, hstep⟩ := Machine.steps_plain_fail hbody
      (m.resume (pre.length + 1) u) (pre ++ [Instruction.loopTest.code])
      (hp.trans (Program.loop_eq_body pre body post)) (by simp) hrun hfail
    refine ⟨k, hk, m', ?_, hstep⟩
    rw [Nat.add_assoc, Machine.steps_of_steps hrounds, Nat.add_comm 1, Machine.steps_succ henter]
    exact hsteps

theorem flat_loop_is_while_countdown :
    let m : Machine := { Machine.start [0, 7, 7, 5, 0, 7, 0, 255] (.ofInput (.ofText [] false))
      with pc := 2, tape := ⟨[], 2, []⟩ }
    let d : Machine := { Machine.start [7, 1, 0] (.ofInput (.ofText [] false))
      with tape := ⟨[3], 4, []⟩ }
    m.steps 7 = .next { m with pc := 5, tape := ⟨[], 0, []⟩ } ∧
    ∃ k < 1, ∃ m', d.steps (4 + k) = .next m' ∧
      m'.step = .fail (.abort .tapeUnderflow) { d with pc := 1 + k, tape := ⟨[], 3, [4]⟩ } := by
  intro m d
  have hplain : ∀ code ∈ [(5 : Int)], Plain code := by decide
  have hleft : ∀ code ∈ [(1 : Int)], Plain code := by decide
  have hleast : IsLeast {k | ∃ u, m.store.rounds [5] k = .ok u ∧ u.tape.current = 0} 2 := by
    refine ⟨⟨_, rfl, rfl⟩, ?_⟩
    rintro (_ | _ | k) ⟨u, hu, hzero⟩
    · obtain rfl := Except.ok.inj hu
      exact absurd hzero (by decide)
    · obtain rfl := Except.ok.inj hu
      exact absurd hzero (by decide)
    · exact Nat.le_add_left 2 k
  have hcells : ∀ k ≤ 1, ∃ u, d.store.rounds [1] k = .ok u ∧ u.tape.current ≠ 0 := by
    intro k hk
    obtain rfl | rfl : k = 0 ∨ k = 1 := by omega
    · exact ⟨_, rfl, by decide⟩
    · exact ⟨_, rfl, by decide⟩
  exact ⟨(flat_loop_is_while [0, 7] [5] [7, 0, 255] (by decide) hplain m rfl rfl rfl).1 2 _
      hleast rfl,
    (flat_loop_is_while [] [1] [] (by decide) hleft d rfl rfl rfl).2 1 _ _ hcells rfl⟩

end CowMachine
