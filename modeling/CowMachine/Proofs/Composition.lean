import CowMachine.Proofs.Shift

/-!
# One program after another

A program without loop tests only ever goes on to the next place: its loop
ends have nothing to go back to, and a delegated loop test finds its cell not
zero. Put before another program it either ends as it ends alone, or comes to
the seam; from there on the second program runs as it runs alone.
-/

set_option autoImplicit false

namespace CowMachine

def Program.ofInstructions (issued : List Instruction) : Program :=
  issued.map Instruction.code ++ [stopCode]

theorem Program.closed_ofInstructions (issued : List Instruction) :
    (ofInstructions issued).Closed :=
  ⟨issued, rfl⟩

theorem Program.ofInstructions_append (p q : List Instruction) :
    ofInstructions (p ++ q) = p.map Instruction.code ++ ofInstructions q := by
  simp [ofInstructions]

theorem Program.code_ne_loopTest {p : List Instruction} (hp : Instruction.loopTest ∉ p) :
    ∀ code ∈ p.map Instruction.code, code ≠ Instruction.loopTest.code := by
  intro code hm heq
  obtain ⟨i, hi, rfl⟩ := List.mem_map.1 hm
  exact hp (Instruction.code_inj heq ▸ hi)

theorem Control.obey_onward {c c' : Control} {cell : Int} {i : Instruction}
    {action : Tape.Action} (h : c.obey cell i = .act action c')
    (htest : i = .loopTest → cell ≠ 0)
    (hend : i = .loopEnd → c.program.loopStart c.pc = .absent) :
    c'.pc = c.pc + 1 ∧ c'.halted = c.halted := by
  by_cases hi : i = .loopTest
  · subst hi
    rw [obey, if_neg (htest rfl)] at h
    obtain ⟨-, rfl⟩ := Reaction.act.inj h
    exact ⟨rfl, rfl⟩
  · obtain ⟨place, register, terminal, hl, rfl⟩ := obey_act h
    cases hl with
    | onward => exact ⟨rfl, rfl⟩
    | behind hi' => exact absurd hi' hi
    | back hi' hs =>
      rw [hend hi'] at hs
      cases hs

namespace Machine

def startWith (p : Program) (s : Store) : Machine := (start p s.terminal).resume 0 s

theorem startWith_safe {p : Program} (hp : p.Closed) (s : Store) : (startWith p s).Safe p := by
  obtain ⟨issued, rfl⟩ := hp
  exact ⟨rfl, ⟨0, rfl, by simp⟩, nofun⟩

variable {front rest : List Int} {m : Machine} {k : Nat}

theorem current?_front (hm : m.program = front ++ rest) (hk : m.pc = k)
    (hlt : k < front.length) : ∃ code ∈ front, m.current? = some code := by
  refine ⟨front[k], List.getElem_mem hlt, ?_⟩
  rw [current?_natCast hk, hm, List.getElem?_append_left hlt, List.getElem?_eq_getElem hlt]

theorem cell_ne_zero_of_test (hfront : ∀ code ∈ front, code ≠ Instruction.loopTest.code)
    {cell code : Int} (hcode : code ∈ front)
    (h : Instruction.loopTest.Effective cell code) : cell ≠ 0 := by
  rcases h.2 with heq | ⟨-, rfl⟩
  · exact absurd heq (hfront code hcode)
  · decide

theorem step_front (hfront : ∀ code ∈ front, code ≠ Instruction.loopTest.code)
    (hm : m.program = front ++ rest) (hk : m.pc = k) (hlt : k < front.length)
    (hrun : m.halted = false) {m' : Machine} (h : m.step = .next m') :
    m'.halted = true ∧ m'.pc = k ∨ m'.halted = false ∧ m'.pc = (k + 1 : Nat) := by
  obtain ⟨code, hcode, hcurrent⟩ := current?_front hm hk hlt
  rw [step_running hrun hcurrent] at h
  obtain ⟨c, tape⟩ := m'
  obtain ⟨action, hreact, -⟩ := dispatch_next h
  obtain ⟨rule, hrule, hr⟩ := Control.react_rule m.tape.current code
  rw [hr] at hreact
  cases hrule with
  | stop | noCode =>
    obtain ⟨-, rfl⟩ := Reaction.act.inj hreact
    exact .inl ⟨rfl, hk⟩
  | obey i hi =>
    have habsent : m.program.loopStart m.pc = .absent := by
      rw [hm, hk]
      exact Program.loopStart_absent hfront rest (Nat.le_of_lt hlt)
    obtain ⟨hpc, hhalted⟩ := Control.obey_onward hreact
      (fun heq => cell_ne_zero_of_test hfront hcode (heq ▸ hi)) fun _ => habsent
    exact .inr ⟨hhalted.trans hrun, hpc.trans (by rw [hk]; rfl)⟩
  | selfDelegation | noDigits | unknown => cases hreact

theorem Apart.step_front {rest' : List Int} {n : Machine}
    (hfront : ∀ code ∈ front, code ≠ Instruction.loopTest.code) (h : m.Apart 0 n)
    (hm : m.program = front ++ rest) (hn : n.program = front ++ rest') (hk : m.pc = k)
    (hlt : k < front.length) : m.step.Apart 0 n.step := by
  have hk' : n.pc = k := by rw [h.pc, hk, Int.add_zero]
  obtain ⟨code, hcode, hcurrent⟩ := current?_front hm hk hlt
  have hcurrent' : n.current? = some code := by
    rw [← hcurrent, current?_natCast hk, current?_natCast hk', hm, hn,
      List.getElem?_append_left hlt, List.getElem?_append_left hlt]
  apply h.step hcurrent hcurrent'
  · intro htest hzero
    exact absurd hzero (cell_ne_zero_of_test hfront hcode htest)
  · intro _
    rw [hm, hn, hk, hk', Program.loopStart_absent hfront rest (Nat.le_of_lt hlt),
      Program.loopStart_absent hfront rest' (Nat.le_of_lt hlt)]
    exact .inr ⟨rfl, rfl⟩

theorem Apart.run_front {rest' : List Int} {n : Machine}
    (hfront : ∀ code ∈ front, code ≠ Instruction.loopTest.code)
    (hp : Program.Closed (front ++ rest)) (hq : Program.Closed (front ++ rest'))
    (h : m.Apart 0 n) (hm : m.Safe (front ++ rest)) (hn : n.Safe (front ++ rest'))
    (hk : m.pc = k) (hrun : m.halted = false) {bound : Nat} (hbound : k + bound ≤ front.length) :
    (m.run bound).Apart 0 (n.run bound) := by
  induction bound generalizing m n k with
  | zero => exact h.run_zero
  | succ bound ih =>
    have hm' := hm.step hp
    have hn' := hn.step hq
    refine h.run_succ (h.step_front hfront hm.program hn.program hk (by omega)) hm' hn' bound ?_
    intro m' n' hms hns h'
    rw [hms] at hm'
    rw [hns] at hn'
    rcases Machine.step_front hfront hm.program hk (by omega) hrun hms with
      ⟨hhalted, -⟩ | ⟨hrun', hpc⟩
    · exact h'.run_halted hhalted bound
    · exact ih h' hm' hn' hpc hrun' (by omega)

theorem run_front (hfront : ∀ code ∈ front, code ≠ Instruction.loopTest.code)
    (hp : Program.Closed (front ++ rest)) (hm : m.Safe (front ++ rest)) (hk : m.pc = k)
    (hrun : m.halted = false) {bound : Nat} (hbound : k + bound ≤ front.length) :
    (m.run bound).ending ≠ .unfinished ∧ (m.run bound).machine.pc < front.length ∨
    (m.run bound).ending = .unfinished ∧ m.steps bound = .next (m.run bound).machine ∧
      (m.run bound).machine.pc = (k + bound : Nat) ∧ (m.run bound).machine.halted = false := by
  induction bound generalizing m k with
  | zero =>
    have hzero : m.run 0 = ⟨.unfinished, m⟩ := by simp [run, runBy, hrun]
    rw [hzero]
    exact .inr ⟨rfl, rfl, hk, hrun⟩
  | succ bound ih =>
    have hm' := hm.step hp
    cases hstep : m.step with
    | fail fault m' =>
      obtain ⟨hend, journal, hmachine⟩ := m'.breakOff_ends fault
      have hpc : m'.pc = k := by
        rcases step_fail_kept hstep with rfl | ⟨-, rfl⟩
        · exact hk
        · exact hk
      rw [run, runBy_fail hrun hstep, hmachine]
      refine .inl ⟨hend, ?_⟩
      rw [hpc]
      omega
    | next m' =>
      rw [run, runBy_next hrun hstep]
      rcases step_front hfront hm.program hk (by omega) hrun hstep with
        ⟨hhalted, hpc⟩ | ⟨hrun', hpc⟩
      · have hend : m'.finish.ending ≠ .unfinished := by simp [finish]
        have hnoted : m'.finish.machine.pc = m'.pc := rfl
        rw [runBy_halted hhalted]
        refine .inl ⟨hend, ?_⟩
        rw [hnoted, hpc]
        omega
      · rw [hstep] at hm'
        have hrest := ih hm' hpc hrun' (by omega)
        rw [Nat.add_assoc, Nat.add_comm 1] at hrest
        rw [steps_succ hstep]
        exact hrest

/-- Two programs that begin with the same codes, none of them a loop test:
their runs come to the end of these codes together, or are the same and end
before. -/
theorem seam_or_end {rest' : List Int} {n : Machine}
    (hfront : ∀ code ∈ front, code ≠ Instruction.loopTest.code)
    (hp : Program.Closed (front ++ rest)) (hq : Program.Closed (front ++ rest'))
    (h : m.Apart 0 n) (hm : m.Safe (front ++ rest)) (hn : n.Safe (front ++ rest'))
    (hpc : m.pc = (0 : Nat)) (hrun : m.halted = false) :
    (∃ u v, m.steps front.length = .next u ∧ n.steps front.length = .next v ∧ u.Apart 0 v ∧
      u.pc = front.length ∧ u.halted = false) ∨
    (m.run front.length).ending ≠ .unfinished ∧ (m.run front.length).machine.pc < front.length ∧
      ∀ bound, (m.run bound).Apart 0 (n.run bound) := by
  have hbound : 0 + front.length ≤ front.length := by omega
  have hpc' : n.pc = (0 : Nat) := by rw [h.pc, hpc, Int.add_zero]
  have hseam := h.run_front hfront hp hq hm hn hpc hrun hbound
  rcases run_front hfront hp hm hpc hrun hbound with ⟨hend, hlt⟩ | ⟨hend, hsteps, hplace, hrun'⟩
  · refine .inr ⟨hend, hlt, fun bound => ?_⟩
    rcases Nat.le_total bound front.length with hle | hle
    · exact h.run_front hfront hp hq hm hn hpc hrun (by omega)
    · obtain ⟨more, rfl⟩ := Nat.exists_eq_add_of_le hle
      have hend' : (n.run front.length).ending ≠ .unfinished := by rwa [hseam.ending]
      rw [run, run, runBy_ended hend, runBy_ended hend']
      exact hseam
  · have hend' : (n.run front.length).ending = .unfinished := by rwa [hseam.ending]
    rcases run_front hfront hq hn hpc' (h.halted.trans hrun) hbound with
      ⟨hne, -⟩ | ⟨-, hsteps', -⟩
    · exact absurd hend' hne
    · rw [Nat.zero_add] at hplace
      exact .inl ⟨_, _, hsteps, hsteps', hseam.machine, hplace, hrun'⟩

theorem run_of_stop {u : Machine} {a : Nat} (hsteps : m.steps a = .next u)
    (hrun : u.halted = false) (hstop : u.current? = some stopCode) :
    m.run (a + 1) = { u with halted := true }.finish := by
  have hhalt : u.step = .next { u with halted := true } := by
    rw [step_running hrun hstop]
    rfl
  rw [run_of_steps hsteps hrun, run, runBy_next hrun hhalt, runBy_halted rfl]

theorem run_eq_of_stop {u : Machine} {a bound : Nat} (hsteps : m.steps a = .next u)
    (hrun : u.halted = false) (hstop : u.current? = some stopCode)
    (h : (m.run bound).ending ≠ .unfinished) :
    m.run bound = { u with halted := true }.finish := by
  have hstopped := run_of_stop hsteps hrun hstop
  have hended : (m.run (a + 1)).ending ≠ .unfinished := by
    rw [hstopped]
    simp [finish]
  exact (runBy_eq_of_ended h hended).trans hstopped

theorem behind_seam {p : Program} {u v : Machine}
    (hfront : ∀ code ∈ front, code ≠ Instruction.loopTest.code) (hp : p.Closed)
    (hq : Program.Closed (front ++ p)) (hm : m.Safe (front ++ p))
    (hv : m.steps front.length = .next v) (h : u.Apart 0 v) (hpc : u.pc = front.length)
    (hrun : u.halted = false) :
    let second := startWith p u.store
    (∀ n, (second.after n).Apart front.length (m.after (front.length + n)) ∧
      (second.after n).step.Apart front.length (m.after (front.length + n)).step) ∧
    (∀ n, (second.run n).Apart front.length (m.run (front.length + n))) ∧
    ((∃ n, (second.run n).ending ≠ .unfinished) ↔ ∃ n, (m.run n).ending ≠ .unfinished) := by
  intro second
  have hsecond : second.Safe p := startWith_safe hp u.store
  have hvsafe := hm.of_steps hq hv
  have hvrun : v.halted = false := h.halted.trans hrun
  have hseam : second.Apart front.length v := by
    refine ⟨⟨h.register, h.terminal, ?_, hvrun⟩, h.tape⟩
    rw [h.pc, hpc]
    exact Int.add_comm _ _
  have hruns (n : Nat) : (second.run n).Apart front.length (m.run (front.length + n)) := by
    rw [run_of_steps hv hvrun]
    exact hseam.run_behind hfront hp hq hsecond hvsafe n
  refine ⟨?_, hruns, ?_⟩
  · intro n
    obtain ⟨hafter, hs, hn⟩ := hseam.after_behind hfront hp hq hsecond hvsafe n
    rw [after_of_steps hv]
    exact ⟨hafter, hafter.step_behind hfront hp hs hn⟩
  · constructor
    · rintro ⟨n, hn⟩
      refine ⟨front.length + n, ?_⟩
      rwa [(hruns n).ending]
    · rintro ⟨n, hn⟩
      have hlater : m.run (n + front.length) = m.run n := runBy_ended hn front.length
      refine ⟨n, ?_⟩
      rwa [← (hruns n).ending, Nat.add_comm, hlater]

end Machine

/-- A program without loop tests, put before another one. Where it ends before
its stop code it ends the same in both. Where it comes to its stop code the
second program goes on from its store, step for step and run for run, as many
places further on, and ends if and only if it ends alone. -/
theorem sequential_composition (p q : List Instruction) (hp : Instruction.loopTest ∉ p)
    (s : Store) :
    let first := Machine.startWith (.ofInstructions p) s
    let whole := Machine.startWith (.ofInstructions (p ++ q)) s
    (first.run (p.length + 1)).ending ≠ .unfinished ∧
    ∀ bound, let r := first.run bound
      (r.ending ≠ .unfinished → ¬(r.ending = .halted ∧ r.machine.pc = p.length) →
        r.machine.pc < p.length ∧ r.Apart 0 (whole.run bound)) ∧
      (r.ending = .halted → r.machine.pc = p.length →
        let second := Machine.startWith (.ofInstructions q) r.machine.store
        (∀ n, (second.after n).Apart p.length (whole.after (p.length + n)) ∧
          (second.after n).step.Apart p.length (whole.after (p.length + n)).step) ∧
        (∀ n, (second.run n).Apart p.length (whole.run (p.length + n))) ∧
        ((∃ n, (second.run n).ending ≠ .unfinished) ↔
          ∃ n, (whole.run n).ending ≠ .unfinished)) := by
  intro first whole
  have hlength : (p.map Instruction.code).length = p.length := List.length_map _
  have hfront := Program.code_ne_loopTest hp
  have hq := Program.closed_ofInstructions q
  have hpq : Program.Closed (p.map Instruction.code ++ .ofInstructions q) :=
    Program.ofInstructions_append p q ▸ Program.closed_ofInstructions (p ++ q)
  have hfirst : first.Safe (p.map Instruction.code ++ [stopCode]) :=
    Machine.startWith_safe (Program.closed_ofInstructions p) s
  have hwhole : whole.Safe (p.map Instruction.code ++ .ofInstructions q) := by
    rw [← Program.ofInstructions_append]
    exact Machine.startWith_safe (Program.closed_ofInstructions (p ++ q)) s
  have hstart : first.Apart 0 whole := ⟨⟨rfl, rfl, rfl, rfl⟩, rfl⟩
  rcases Machine.seam_or_end hfront (Program.closed_ofInstructions p) hpq hstart hfirst hwhole
    rfl rfl with ⟨u, v, hu, hv, huv, hpc, hrun⟩ | ⟨hend, hpc, hruns⟩
  · rw [hlength] at hu
    have husafe := hfirst.of_steps (Program.closed_ofInstructions p) hu
    have hstop : u.current? = some stopCode := Machine.current?_append husafe.program hpc
    refine ⟨?_, fun bound => ⟨fun h hnot => ?_, fun h _ => ?_⟩⟩
    · rw [Machine.run_of_stop hu hrun hstop]
      nofun
    · rw [hlength] at hpc
      rw [Machine.run_eq_of_stop hu hrun hstop h] at hnot
      exact absurd ⟨rfl, hpc⟩ hnot
    · have hstore : (first.run bound).machine.store = u.store := by
        rw [Machine.run_eq_of_stop hu hrun hstop (by rw [h]; nofun)]
        rfl
      have hbehind := Machine.behind_seam hfront hq hpq hwhole hv huv hpc hrun
      rw [hlength, ← hstore] at hbehind
      exact hbehind
  · rw [hlength] at hend hpc
    have hsame {bound : Nat} (h : (first.run bound).ending ≠ .unfinished) :
        first.run bound = first.run p.length := Machine.runBy_eq_of_ended h hend
    refine ⟨?_, fun bound => ⟨fun h _ => ⟨?_, hruns bound⟩, fun h hplace => ?_⟩⟩
    · rw [Machine.run, Machine.runBy_ended hend]
      exact hend
    · rwa [hsame h]
    · rw [hsame (by rw [h]; nofun)] at hplace
      omega

theorem sequential_composition_countdown :
    let s : Store := ⟨.blank, none, .ofInput (.ofText [] false)⟩
    let p : List Instruction := [.increment, .loopEnd, .increment, .loopEnd]
    let q : List Instruction := [.loopTest, .decrement, .loopEnd, .printNumber]
    let first := Machine.startWith (.ofInstructions p) s
    let refused := Machine.startWith (.ofInstructions [.left]) s
    let whole := Machine.startWith (.ofInstructions (p ++ q)) s
    Instruction.loopTest ∉ p ∧ (first.run 5).ending = .halted ∧ (first.run 5).machine.pc = 4 ∧
    (first.run 5).machine.tape.cells = [2] ∧
    (∀ n, ((Machine.startWith (.ofInstructions q) (first.run 5).machine.store).run n).Apart 4
      (whole.run (4 + n))) ∧
    (whole.run (4 + 9)).ending = .halted ∧ (whole.run (4 + 9)).machine.tape.cells = [0] ∧
    (whole.run (4 + 9)).machine.terminal.output = "0\n".toList ∧
    (refused.run 1).ending = .aborted .tapeUnderflow ∧
    (refused.run 1).Apart 0 ((Machine.startWith (.ofInstructions ([.left] ++ q)) s).run 1) := by
  intro s p q first refused whole
  have hp : Instruction.loopTest ∉ p := by decide
  have hended : (first.run 5).ending = .halted := by decide
  have hseam : (first.run 5).machine.pc = 4 := by decide
  have haborted : (refused.run 1).ending = .aborted .tapeUnderflow := by decide
  have hrefused := (sequential_composition [.left] q (by decide) s).2 1
  have hbehind := (((sequential_composition p q hp s).2 5).2 hended hseam).2.1
  exact ⟨hp, hended, hseam, by decide, hbehind, by decide, by decide, by decide, haborted,
    (hrefused.1 (by decide) (by decide)).2⟩

end CowMachine
