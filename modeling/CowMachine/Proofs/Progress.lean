import CowMachine.Proofs.Diagnostics
import CowMachine.Proofs.LoopPairs

/-!
# Programs that only go forward

The program pointer goes back in one way: a loop end, in the program or in the
current cell of a delegation, finds a loop test at least two places before it. A
program in which no loop test stands so far before a loop end or a delegation has
no way back, whatever its cells come to hold. Every step then leads further on,
and the steps are at most as many as the places.
-/

set_option autoImplicit false

namespace CowMachine

namespace Program

/-- A loop test two places or more before a loop end or a delegation. -/
def WayBack (p : Program) (i j : Nat) : Prop :=
  p[i]? = some Instruction.loopTest.code ∧
    (p[j]? = some Instruction.loopEnd.code ∨ p[j]? = some Instruction.delegate.code) ∧ i + 2 ≤ j

instance (p : Program) (i j : Nat) : Decidable (p.WayBack i j) :=
  inferInstanceAs (Decidable (_ ∧ _))

def OneWay (p : Program) : Prop := ∀ i < p.length, ∀ j < p.length, ¬p.WayBack i j

instance (p : Program) : Decidable p.OneWay :=
  inferInstanceAs (Decidable (∀ i < p.length, ∀ j < p.length, ¬p.WayBack i j))

theorem oneWay_of_no_test {p : Program} (h : Instruction.loopTest.code ∉ p) : p.OneWay := by
  intro i _ j _ hback
  exact h (List.mem_of_getElem? hback.1)

theorem loopStart_found_test {p : Program} {n : Nat} {place : Int}
    (h : p.loopStart n = .found place) :
    ∃ k : Nat, place = k ∧ k + 2 ≤ n ∧ p[k]? = some Instruction.loopTest.code := by
  have hsought := loopStart_sought p n
  rw [h] at hsought
  cases hsought with
  | found _ hj _ hmark =>
    obtain ⟨k, rfl⟩ := Int.eq_ofNat_of_zero_le hj.nonneg
    have hle := hj.le
    rw [fetch?_natCast] at hmark
    exact ⟨k, rfl, by omega, hmark⟩

theorem OneWay.loopStart_ne_found {p : Program} (h : p.OneWay) {n : Nat} {cell code place : Int}
    (hcode : p[n]? = some code) (hi : Instruction.loopEnd.Effective cell code) :
    p.loopStart n ≠ .found place := by
  intro hfound
  obtain ⟨k, -, hle, htest⟩ := loopStart_found_test hfound
  have hn : n < p.length := (List.getElem?_eq_some_iff.1 hcode).1
  refine h k (by omega) n hn ⟨htest, ?_, hle⟩
  rcases hi.2 with rfl | ⟨rfl, -⟩
  · exact .inl hcode
  · exact .inr hcode

end Program

theorem Control.Leads.forward {c : Control} {i : Instruction} {place cell code : Int} {n : Nat}
    (h : c.Leads i place) (hp : c.program.OneWay) (hn : c.pc = n)
    (hcode : c.program[n]? = some code) (hi : i.Effective cell code) : c.pc < place := by
  cases h with
  | onward => omega
  | behind _ hfound =>
    have hle := (Program.loopExit_found_iff.1 hfound).2.1
    omega
  | back hend hfound =>
    subst hend
    rw [hn] at hfound
    exact absurd hfound (hp.loopStart_ne_found hcode hi)

namespace Machine

variable {p : Program} {m m' : Machine}

theorem pc_lt_of_step (hp : p.Closed) (hforward : p.OneWay) (hsafe : m.Safe p)
    (h : m.step = .next m') (hrun : m'.halted = false) : m.pc < m'.pc := by
  have hm : m.halted = false := by
    cases hm : m.halted with
    | false => rfl
    | true =>
      rw [step_halted hm] at h
      obtain rfl := Outcome.next.inj h
      exact hm.symm.trans hrun
  obtain ⟨code, hcode, -⟩ := hsafe.current hp
  obtain ⟨n, hn, -⟩ := hsafe.inside
  rw [step_running hm hcode] at h
  rw [current?_natCast hn] at hcode
  obtain ⟨action, hact, -⟩ := dispatch_next h
  rcases Control.react_act hact with
    ⟨i, place, register, terminal, hi, hleads, hcontrol⟩ | ⟨-, -, journal, hcontrol⟩
  · have hpc : m'.pc = place := congrArg Control.pc hcontrol
    rw [hpc]
    exact hleads.forward (hsafe.program ▸ hforward) hn hcode hi
  · have hhalted : m'.halted = true := congrArg Control.halted hcontrol
    rw [hrun] at hhalted
    cases hhalted

theorem ended_of_halted (h : m.halted = true) (bound : Nat) :
    (m.run bound).ending ≠ .unfinished := by
  rw [run, runBy_halted h]
  intro hunfinished
  cases hunfinished

theorem run_ends_of_oneWay (hp : p.Closed) (hforward : p.OneWay) (hsafe : m.Safe p) {bound : Nat}
    (hbound : (p.length : Int) ≤ m.pc + bound) : (m.run bound).ending ≠ .unfinished := by
  induction bound generalizing m with
  | zero =>
    obtain ⟨n, hn, hlt⟩ := hsafe.inside
    omega
  | succ bound ih =>
    cases hrun : m.halted with
    | true => exact ended_of_halted hrun _
    | false =>
      cases hstep : m.step with
      | fail fault u =>
        rw [run, runBy_fail hrun hstep]
        exact (u.breakOff_ends fault).1
      | next u =>
        have hnext : m.run (bound + 1) = u.run bound := runBy_next hrun hstep bound
        rw [hnext]
        cases hu : u.halted with
        | true => exact ended_of_halted hu _
        | false =>
          have hlt := pc_lt_of_step hp hforward hsafe hstep hu
          have hsafe' : u.Safe p := by
            have hkept := hsafe.step hp
            rwa [hstep] at hkept
          exact ih hsafe' (by omega)

end Machine

/-- A loaded program without a way back, and so any without a loop test, goes
forward with every step that neither halts nor fails, whatever it reads. Its run
ends after at most as many steps as it has places. -/
theorem one_way_program_ends {t : Text} {p : Program}
    (hload : (Source.Listing.ofText t).program = .ok p) :
    (Instruction.loopTest.code ∉ p → p.OneWay) ∧
    (p.OneWay → ∀ terminal,
      (∀ n u, ((Machine.start p terminal).after n).step = .next u → u.halted = false →
        ((Machine.start p terminal).after n).pc < u.pc) ∧
      ((Machine.start p terminal).run p.length).ending ≠ .unfinished) := by
  have hp := Source.Listing.closed_of_program hload
  refine ⟨Program.oneWay_of_no_test, fun hforward terminal => ⟨fun n u hstep hrun => ?_, ?_⟩⟩
  · exact Machine.pc_lt_of_step hp hforward (.after_start hp terminal n) hstep hrun
  · refine Machine.run_ends_of_oneWay hp hforward (Machine.start_safe hp terminal) ?_
    exact Int.le_add_of_nonneg_left (Int.le_refl 0)

theorem one_way_program_ends_beside_marks :
    let p : Program := [0, 3, 7, 0, 255]
    let m := Machine.start p (.ofInput (.ofText [] false))
    (Source.Listing.ofText "moo mOO MOO moo".toList).program = .ok p ∧ p.OneWay ∧
    (m.after 1).step = .next { m with pc := 2 } ∧ (m.after 1).pc < 2 ∧
    (m.run 4).ending = .unfinished ∧ (m.run 5).ending ≠ .unfinished := by
  intro p m
  have hload : (Source.Listing.ofText "moo mOO MOO moo".toList).program = .ok p := by cbv
  have hforward : p.OneWay := by decide
  have hstep : (m.after 1).step = .next { m with pc := 2 } := by decide
  obtain ⟨hpc, hended⟩ := (one_way_program_ends hload).2 hforward m.terminal
  exact ⟨hload, hforward, hstep, hpc 1 _ hstep rfl, by decide, hended⟩

end CowMachine
