import CowMachine.Proofs.Execution
import CowMachine.Proofs.LoopMarks
import CowMachine.Proofs.Reaction
import CowMachine.Report
import CowMachine.Source

/-!
# Loaded programs stay inside themselves

A loaded program is closed by its only stop code, so the place behind any
instruction is still inside it, and a loop end is never its last place. The
program pointer therefore never leaves the program, whatever is read, however
often steps fail and are taken again, and no internal fault can show.
-/

set_option autoImplicit false

namespace CowMachine

namespace Program

/-- Codes of instructions with a stop code behind them. -/
def Closed (p : Program) : Prop :=
  ∃ issued : List Instruction, p = issued.map Instruction.code ++ [stopCode]

theorem Closed.getElem? {p : Program} (hp : p.Closed) {n : Nat} (hn : n < p.length) :
    p[n]? = some stopCode ∨ n + 1 < p.length ∧ ∃ i : Instruction, p[n]? = some i.code := by
  obtain ⟨issued, rfl⟩ := hp
  simp only [List.length_append, List.length_map, List.length_cons, List.length_nil] at hn ⊢
  by_cases h : n < issued.length
  · right
    refine ⟨by omega, issued[n], ?_⟩
    rw [List.getElem?_append_left (by simpa using h), List.getElem?_map,
      List.getElem?_eq_getElem h]
    rfl
  · left
    rw [List.getElem?_append_right (by simp; omega), List.length_map,
      show n - issued.length = 0 by omega]
    rfl

theorem Closed.lt_of_getElem? {p : Program} (hp : p.Closed) {n : Nat} {code : Int}
    (h : p[n]? = some code) (hcode : code ≠ stopCode) : n + 1 < p.length := by
  have hn : n < p.length := (List.getElem?_eq_some_iff.1 h).1
  rcases hp.getElem? hn with hs | ⟨hlt, -⟩
  · exact absurd (Option.some.inj (h.symm.trans hs)) hcode
  · exact hlt

end Program

theorem Source.Listing.closed_of_program {l : Listing} {p : Program} (h : l.program = .ok p) :
    p.Closed :=
  ⟨l.issued, (program_eq_ok_iff.1 h).2⟩

theorem Control.Leads.inside {c : Control} {i : Instruction} {place : Int} {n : Nat}
    (h : c.Leads i place) (hp : c.program.Closed) (hn : c.pc = n) {code : Int}
    (hc : c.program[n]? = some code) (hcode : code ≠ stopCode) :
    ∃ k : Nat, place = k ∧ k < c.program.length := by
  have hlt : n < c.program.length := (List.getElem?_eq_some_iff.1 hc).1
  cases h with
  | onward => exact ⟨n + 1, by rw [hn]; rfl, hp.lt_of_getElem? hc hcode⟩
  | behind _ hs =>
    rw [hn] at hs
    obtain ⟨k, rfl, hk⟩ := Program.loopExit_found hs
    exact ⟨k + 1, rfl, hp.lt_of_getElem? hk (Instruction.code_ne_stopCode _)⟩
  | back _ hs =>
    rw [hn] at hs
    obtain ⟨k, rfl, hk⟩ := Program.loopStart_found hlt hs
    exact ⟨k, rfl, by omega⟩

theorem Control.not_astray {c : Control} {code : Int} (h : c.program.fetch? c.pc = some code) :
    ¬c.Astray := by
  rintro ⟨place, hexit | hstart⟩
  · exact (Program.search_ne_outside h place).1 hexit
  · exact (Program.search_ne_outside h place).2 hstart

namespace Machine

/-- On a stop code, or on a delegation to a cell that holds no code. -/
def Stopped (m : Machine) : Prop :=
  m.current? = some stopCode ∨
    m.current? = some Instruction.delegate.code ∧ Instruction.ofCode? m.tape.current = none

structure Safe (p : Program) (m : Machine) : Prop where
  program : m.program = p
  inside : ∃ n : Nat, m.pc = n ∧ n < p.length
  stopped : m.halted = true → m.Stopped

theorem start_safe {p : Program} (hp : p.Closed) (terminal : Terminal) :
    (start p terminal).Safe p := by
  obtain ⟨issued, rfl⟩ := hp
  exact ⟨rfl, ⟨0, rfl, by simp⟩, nofun⟩

theorem Safe.current {p : Program} {m : Machine} (hp : p.Closed) (h : m.Safe p) :
    ∃ code, m.current? = some code ∧
      (code = stopCode ∨ ∃ i, Instruction.ofCode? code = some i) := by
  obtain ⟨n, hn, hlt⟩ := h.inside
  rw [current?_natCast hn, h.program]
  rcases hp.getElem? hlt with hs | ⟨-, i, hi⟩
  · exact ⟨stopCode, hs, .inl rfl⟩
  · exact ⟨i.code, hi, .inr ⟨i, Instruction.ofCode?_code i⟩⟩

theorem Safe.dispatch {p : Program} {m : Machine} (hp : p.Closed) (h : m.Safe p)
    (hr : m.halted = false) {code : Int} (hc : m.current? = some code) :
    (m.dispatch code).machine.Safe p := by
  obtain ⟨n, hn, hlt⟩ := h.inside
  cases hd : m.dispatch code with
  | fail fault m' =>
    obtain ⟨ht, hf | ⟨rfl, -⟩⟩ := dispatch_fail hd
    · obtain ⟨⟨terminal, hm⟩, -⟩ := Control.react_fail hf
      obtain ⟨c, tape⟩ := m'
      subst hm
      exact ⟨h.program, h.inside, fun hh => absurd (hr.symm.trans hh) nofun⟩
    · exact h
  | next m' =>
    obtain ⟨action, ha, ht⟩ := dispatch_next hd
    obtain ⟨c, tape⟩ := m'
    rcases Control.react_act ha with
      ⟨i, place, register, terminal, hi, hl, rfl⟩ | ⟨hstop, rfl, journal, rfl⟩
    · have hcl : m.toControl.program.Closed := h.program ▸ hp
      rw [current?_natCast hn] at hc
      obtain ⟨k, rfl, hk⟩ := hl.inside hcl hn hc hi.ne_stopCode
      exact ⟨h.program, ⟨k, rfl, h.program ▸ hk⟩, fun hh => absurd (hr.symm.trans hh) nofun⟩
    · obtain rfl := Option.some.inj ht
      refine ⟨h.program, h.inside, fun _ => ?_⟩
      rcases hstop with rfl | ⟨rfl, hcell⟩
      · exact .inl hc
      · exact .inr ⟨hc, hcell⟩

theorem Safe.step {p : Program} {m : Machine} (hp : p.Closed) (h : m.Safe p) :
    m.step.machine.Safe p := by
  cases hr : m.halted with
  | true =>
    rw [step_halted hr]
    exact h
  | false =>
    obtain ⟨code, hc, -⟩ := h.current hp
    rw [step_running hr hc]
    exact h.dispatch hp hr hc

theorem Safe.of_steps {p : Program} {m u : Machine} {n : Nat} (hp : p.Closed) (hm : m.Safe p)
    (h : m.steps n = .next u) : u.Safe p := by
  rw [← after_eq_of_steps h]
  exact after_invariant (fun _ hs => hs.step hp) m hm n

theorem Safe.fault {p : Program} {m m' : Machine} {fault : Fault} (hp : p.Closed)
    (h : m.Safe p) (hf : m.step = .fail fault m') : ¬fault.Internal := by
  cases hr : m.halted with
  | true => simp [step_halted hr] at hf
  | false =>
    obtain ⟨code, hc, hcode⟩ := h.current hp
    rw [step_running hr hc] at hf
    obtain ⟨-, hreact | ⟨-, rfl⟩⟩ := dispatch_fail hf
    · intro hi
      rcases (Control.react_fail hreact).2 hi with ha | ⟨hs, hu⟩
      · exact Control.not_astray hc ha
      · rcases hcode with hstop | ⟨i, hi⟩
        · exact hs hstop
        · simp [hu] at hi
    · exact id

end Machine

namespace Report

theorem number_sound (v : Int) : Sound (number v) := by
  unfold number
  split
  · exact .ok _
  · exact .error id

theorem register_sound (r : Register) : Sound (register r) := by
  unfold register
  split
  · exact .ok _
  · exact .error id

theorem entry_sound (cell : Int × Nat) : Sound (entry cell) :=
  (number_sound cell.1).bind fun _ => .ok _

theorem memory_sound (cells : List Int) : Sound (memory cells) :=
  (Sound.mapM entry_sound cells.zipIdx).bind fun _ => .ok _

theorem codeAt_sound {p : Program} {n : Nat} (hn : n < p.length) : Sound (codeAt p n) := by
  rw [codeAt, Program.fetch?_natCast, List.getElem?_eq_getElem hn]
  exact .ok _

theorem last_sound {p : Program} {m : Machine} (h : m.Safe p) : Sound (last m) := by
  obtain ⟨n, hn, hlt⟩ := h.inside
  unfold last
  split
  · have hpred : m.pc - 1 = (n - 1 : Nat) := by omega
    rw [hpred, h.program]
    exact (codeAt_sound (by omega)).bind fun _ => .ok _
  · exact .ok _

theorem summary_sound {p : Program} {m : Machine} (h : m.Safe p) : Sound (summary m) := by
  obtain ⟨n, hn, hlt⟩ := h.inside
  unfold summary
  rw [hn, h.program]
  exact (codeAt_sound hlt).bind fun _ => (number_sound _).bind fun _ =>
    (register_sound _).bind fun _ => .ok _

theorem state_sound {p : Program} {m : Machine} (h : m.Safe p) : Sound (state m) := by
  obtain ⟨n, hn, hlt⟩ := h.inside
  have hcode : Sound (codeAt m.program m.pc) := by
    rw [hn, h.program]
    exact codeAt_sound hlt
  exact (memory_sound _).bind fun _ => (register_sound _).bind fun _ =>
    (number_sound _).bind fun _ => (number_sound _).bind fun _ =>
    (last_sound h).bind fun _ => hcode.bind fun _ => .ok _

end Report

/-- Every state of a loaded program, reached through any number of steps that
may fail: the pointers are on a code and a cell, neither the next step nor a
report shows an internal fault, and a halted machine has come to its stop. -/
theorem loaded_run_safe {t : Text} {p : Program}
    (hload : (Source.Listing.ofText t).program = .ok p) (terminal : Terminal) (n : Nat) :
    let m := (Machine.start p terminal).after n
    m.program = p ∧ (0 ≤ m.pc ∧ m.pc < p.length) ∧ m.tape.cursor < m.tape.cells.length ∧
    (∀ fault m', m.step = .fail fault m' → ¬fault.Internal) ∧
    (∃ code, m.current? = some code) ∧
    (∀ fault m', m.summarise = .fail fault m' → ¬fault.Internal) ∧
    (∀ fault, Report.state m = .error fault → ¬fault.Internal) ∧
    (m.halted = true → m.current? = some stopCode ∨
      m.current? = some Instruction.delegate.code ∧
        (m.tape.current < 0 ∨ 11 < m.tape.current)) := by
  intro m
  have hp := Source.Listing.closed_of_program hload
  have h : m.Safe p :=
    Machine.after_invariant (fun _ hs => hs.step hp) _ (Machine.start_safe hp terminal) n
  obtain ⟨k, hk, hlt⟩ := h.inside
  refine ⟨h.program, ⟨by omega, by omega⟩, m.tape.cursor_lt_length, fun _ _ => h.fault hp, ?_, ?_,
    Report.state_sound h, ?_⟩
  · obtain ⟨code, hc, -⟩ := h.current hp
    exact ⟨code, hc⟩
  · intro fault m' hs
    unfold Machine.summarise at hs
    split at hs <;> simp only [Outcome.fail.injEq, reduceCtorEq] at hs
    rename_i hr
    exact hs.1 ▸ Report.summary_sound h _ hr
  · intro hh
    rw [← Instruction.ofCode?_eq_none_iff]
    exact h.stopped hh

theorem loaded_run_safe_after_failures :
    let m := (Machine.start [6, 1, 255] (.ofInput (.ofText [] false))).after 5
    (Source.Listing.ofText "MoO mOo".toList).program = .ok [6, 1, 255] ∧
    m.step = .fail (.abort .tapeUnderflow) m ∧ 0 ≤ m.pc ∧ m.pc < 3 := by
  have hload : (Source.Listing.ofText "MoO mOo".toList).program = .ok [6, 1, 255] := by cbv
  exact ⟨hload, by decide, (loaded_run_safe hload _ 5).2.1⟩

end CowMachine
