import CowMachine.Proofs.Failure
import CowMachine.Proofs.Numerals
import CowMachine.Proofs.Running
import CowMachine.Proofs.Safety

/-!
# Notes that cannot be written

Halting at a cell that holds no code and ending a run by an abort both write a
note with numbers in it, before anything else is done. Where the numbers have
text the note is all there is to see of it. A number beyond the limit on digits
takes the place of the outcome: the machine does not halt, and the run breaks
off instead of being aborted. Such a number comes out of a loaded program that
reads the longest number there is and adds one to it.
-/

set_option autoImplicit false

namespace CowMachine

def Register.Printable (r : Register) : Prop := ∀ v ∈ r, Text.Printable v

/-- Both numbers that a summary shows have text. -/
def Machine.Printable (m : Machine) : Prop :=
  Text.Printable m.tape.current ∧ m.register.Printable

namespace Report

theorem number_of_printable {v : Int} (h : Text.Printable v) : number v = .ok (Text.decimal v) := by
  rw [number, Text.decimal?, if_pos h]

theorem number_of_not_printable {v : Int} (h : ¬Text.Printable v) :
    number v = .error .numberTooLong := by
  rw [number, Text.decimal?, if_neg h]

theorem register_of_printable {r : Register} (h : r.Printable) :
    ∃ digits, register r = .ok digits := by
  cases r with
  | none => exact ⟨[], rfl⟩
  | some v => exact ⟨_, number_of_printable (h v rfl)⟩

theorem register_of_not_printable {r : Register} (h : ¬r.Printable) :
    register r = .error .numberTooLong := by
  cases r with
  | none => exact absurd (fun _ hv => nomatch hv) h
  | some v =>
    refine number_of_not_printable fun hv => h ?_
    rintro _ ⟨⟩
    exact hv

theorem codeAt_of_safe {p : Program} {m : Machine} (h : m.Safe p) :
    ∃ name, codeAt m.program m.pc = .ok name := by
  obtain ⟨n, hn, hlt⟩ := h.inside
  rw [hn, h.program, codeAt, Program.fetch?_natCast, List.getElem?_eq_getElem hlt]
  exact ⟨_, rfl⟩

theorem summary_of_printable {p : Program} {m : Machine} (h : m.Safe p) (hm : m.Printable) :
    ∃ line, summary m = .ok line := by
  obtain ⟨name, hname⟩ := codeAt_of_safe h
  obtain ⟨digits, hdigits⟩ := register_of_printable hm.2
  rw [summary, hname, number_of_printable hm.1, hdigits]
  exact ⟨_, rfl⟩

theorem summary_of_not_printable {p : Program} {m : Machine} (h : m.Safe p)
    (hm : ¬m.Printable) : summary m = .error .numberTooLong := by
  obtain ⟨name, hname⟩ := codeAt_of_safe h
  rw [summary, hname]
  by_cases hcell : Text.Printable m.tape.current
  · rw [number_of_printable hcell, register_of_not_printable fun hr => hm ⟨hcell, hr⟩]
    rfl
  · rw [number_of_not_printable hcell]
    rfl

end Report

namespace Machine

variable {p : Program} {m : Machine}

theorem step_no_code (hrun : m.halted = false)
    (hcode : m.current? = some Instruction.delegate.code)
    (hcell : Instruction.ofCode? m.tape.current = none)
    (hdigits : Text.Printable m.tape.current) :
    ∃ journal, m.step = .next { m with halted := true, journal } := by
  rw [step_running hrun hcode, dispatch, Control.react_delegate, Control.delegate, hcell,
    Text.decimal?, if_pos hdigits]
  exact ⟨_, rfl⟩

theorem step_no_digits (hrun : m.halted = false)
    (hcode : m.current? = some Instruction.delegate.code)
    (hcell : Instruction.ofCode? m.tape.current = none)
    (hdigits : ¬Text.Printable m.tape.current) : m.step = .fail .numberTooLong m := by
  rw [step_running hrun hcode, dispatch, Control.react_delegate, Control.delegate, hcell,
    Text.decimal?, if_neg hdigits]

theorem breakOff_of_printable (h : m.Safe p) (hm : m.Printable) (cause : Abort) :
    ∃ journal, m.breakOff (.abort cause) = ⟨.aborted cause, { m with journal }⟩ := by
  obtain ⟨line, hline⟩ := Report.summary_of_printable h hm
  have hnoted (message : Text) : Report.summary (m.note .info message) = .ok line := hline
  rw [breakOff, summarise, hnoted]
  exact ⟨_, rfl⟩

theorem breakOff_of_not_printable (h : m.Safe p) (hm : ¬m.Printable) (cause : Abort) :
    ∃ journal, m.breakOff (.abort cause) = ⟨.failed .numberTooLong, { m with journal }⟩ := by
  have hsummary := Report.summary_of_not_printable h hm
  have hnoted (message : Text) :
      Report.summary (m.note .info message) = .error .numberTooLong := hsummary
  rw [breakOff, summarise, hnoted]
  exact ⟨_, rfl⟩

theorem Safe.after_start (hp : p.Closed) (terminal : Terminal) (n : Nat) :
    ((start p terminal).after n).Safe p :=
  after_invariant (fun _ hs => hs.step hp) _ (start_safe hp terminal) n

theorem run_of_step_fail {m' : Machine} {fault : Fault} (h : m.step = .fail fault m')
    (bound : Nat) : m.run (bound + 1) = m'.breakOff fault :=
  runBy_fail (step_fail h).1 h bound

theorem printable_of_step_fail {m' : Machine} {fault : Fault} (h : m.step = .fail fault m') :
    m'.Printable ↔ m.Printable := by
  rcases step_fail_kept h with rfl | ⟨-, rfl⟩
  · exact Iff.rfl
  · exact Iff.rfl

end Machine

/-- At every state of a loaded program: a delegation to a cell that holds no
code halts the machine and does nothing else, and an abort is the result of the
run, both exactly where the numbers of their notes have text. Otherwise the
outcome is that a number is too long. -/
theorem outcome_needs_digits {t : Text} {p : Program}
    (hload : (Source.Listing.ofText t).program = .ok p) (terminal : Terminal) (n : Nat)
    (hrun : ((Machine.start p terminal).after n).halted = false) :
    let m := (Machine.start p terminal).after n
    (m.current? = some Instruction.delegate.code → m.tape.current < 0 ∨ 11 < m.tape.current →
      (Text.Printable m.tape.current →
        ∃ journal, m.step = .next { m with halted := true, journal }) ∧
      (¬Text.Printable m.tape.current → m.step = .fail .numberTooLong m)) ∧
    ∀ cause m', m.step = .fail (.abort cause) m' → ∀ bound,
      (m.Printable → ∃ journal, m.run (bound + 1) = ⟨.aborted cause, { m' with journal }⟩) ∧
      (¬m.Printable →
        ∃ journal, m.run (bound + 1) = ⟨.failed .numberTooLong, { m' with journal }⟩) := by
  intro m
  have hp := Source.Listing.closed_of_program hload
  have hsafe : m.Safe p := .after_start hp terminal n
  constructor
  · intro hcode hcell
    rw [← Instruction.ofCode?_eq_none_iff] at hcell
    exact ⟨Machine.step_no_code hrun hcode hcell, Machine.step_no_digits hrun hcode hcell⟩
  · intro cause m' hfail bound
    have hsafe' : m'.Safe p := by
      have hstep := hsafe.step hp
      rwa [hfail] at hstep
    rw [Machine.run_of_step_fail hfail, ← Machine.printable_of_step_fail hfail]
    exact ⟨fun hm => Machine.breakOff_of_printable hsafe' hm cause,
      fun hm => Machine.breakOff_of_not_printable hsafe' hm cause⟩

theorem outcome_needs_digits_at_short_numbers :
    let m := (Machine.start [5, 3, 255] (.ofInput (.ofText [] false))).after 1
    let u := (Machine.start [1, 255] (.ofInput (.ofText [] false))).after 0
    (∃ journal, m.step = .next { m with halted := true, journal }) ∧
      ∃ journal, u.run 1 = ⟨.aborted .tapeUnderflow, { u with journal }⟩ := by
  intro m u
  have hm : (Source.Listing.ofText "MOo mOO".toList).program = .ok [5, 3, 255] := by cbv
  have hu : (Source.Listing.ofText "mOo".toList).program = .ok [1, 255] := by cbv
  have hempty : u.register.Printable := by
    intro v hv
    cases hv
  have hshort : u.Printable := ⟨by decide, hempty⟩
  constructor
  · exact ((outcome_needs_digits hm _ 1 rfl).1 rfl (by decide)).1 (by decide)
  · exact ((outcome_needs_digits hu _ 0 rfl).2 .tapeUnderflow u (by decide) 0).1 hshort

theorem Machine.after_nines (rest : Program) {n : Nat} (hpos : 0 < n)
    (hn : n ≤ Text.digitLimit) :
    let m := start (11 :: 6 :: rest) (.ofInput (.ofText (List.replicate n '9') false))
    m.after 2 = { m with
      pc := 2, terminal := .ofInput (.ofText [] false), tape := ⟨[], (10 ^ n : Nat), []⟩ } := by
  intro m
  have hread : m.terminal.input.readNumber =
      (.ok (Text.valueOfDigits (List.replicate n 9) : Int), .ofText [] false) := by
    apply Input.readNumber_of_digits
    · rw [List.map_replicate]
      rfl
    · rfl
    · simp only [ne_eq, List.replicate_eq_nil_iff]
      omega
    · intro d hd
      rw [List.eq_of_mem_replicate hd]
      decide
    · rwa [List.length_replicate]
  have hsum : (Text.valueOfDigits (List.replicate n 9) : Int) + 1 = (10 ^ n : Nat) := by
    rw [← Text.valueOfDigits_nines n]
    rfl
  have hfirst : m.step = .next { m with
      pc := 1, terminal := .ofInput (.ofText [] false),
      tape := ⟨[], Text.valueOfDigits (List.replicate n 9), []⟩ } := by
    have hcode : m.current? = some Instruction.readNumber.code := rfl
    rw [step_running rfl hcode, dispatch, Control.react_effective _ ⟨by decide, .inl rfl⟩,
      Control.obey, Control.readNumber, Terminal.readNumber, hread]
    rfl
  rw [after, after, after, hfirst, ← hsum]
  rfl

/-- The least number without text keeps a machine from halting and a run from
being aborted. -/
theorem long_number_hides_outcome :
    let terminal := Terminal.ofInput (.ofText (List.replicate Text.digitLimit '9') false)
    let m := (Machine.start [11, 6, 3, 255] terminal).after 2
    let u := (Machine.start [11, 6, 1, 255] terminal).after 2
    (Source.Listing.ofText "oom MoO mOO".toList).program = .ok [11, 6, 3, 255] ∧
    m.halted = false ∧ m.current? = some Instruction.delegate.code ∧ 11 < m.tape.current ∧
    m.step = .fail .numberTooLong m ∧
    (Source.Listing.ofText "oom MoO mOo".toList).program = .ok [11, 6, 1, 255] ∧
    u.halted = false ∧ u.step = .fail (.abort .tapeUnderflow) u ∧
    (u.run 1).ending = .failed .numberTooLong := by
  intro terminal m u
  have hm : m = _ := Machine.after_nines [3, 255] (by decide) (Nat.le_refl Text.digitLimit)
  have hu : u = _ := Machine.after_nines [1, 255] (by decide) (Nat.le_refl Text.digitLimit)
  have hmload : (Source.Listing.ofText "oom MoO mOO".toList).program = .ok [11, 6, 3, 255] := by
    cbv
  have huload : (Source.Listing.ofText "oom MoO mOo".toList).program = .ok [11, 6, 1, 255] := by
    cbv
  have hmrun : m.halted = false := by rw [hm]; rfl
  have hurun : u.halted = false := by rw [hu]; rfl
  have hmcode : m.current? = some Instruction.delegate.code := by rw [hm]; rfl
  have hmcell : m.tape.current = (10 ^ Text.digitLimit : Nat) := by rw [hm]
  have hucell : u.tape.current = (10 ^ Text.digitLimit : Nat) := by rw [hu]
  have hbig : (11 : Int) < (10 ^ Text.digitLimit : Nat) := by
    have hpow : 10 ^ 2 ≤ 10 ^ Text.digitLimit := Nat.pow_le_pow_right (by decide) (by decide)
    omega
  have hufail : u.step = .fail (.abort .tapeUnderflow) u := by rw [hu]; rfl
  refine ⟨hmload, hmrun, hmcode, hmcell ▸ hbig, ?_, huload, hurun, hufail, ?_⟩
  · apply Machine.step_no_digits hmrun hmcode
    · rw [Instruction.ofCode?_eq_none_iff, hmcell]
      exact .inr hbig
    · rw [hmcell]
      exact Text.not_printable_pow
  · have hsafe : u.Safe [11, 6, 1, 255] :=
      .after_start (Source.Listing.closed_of_program huload) terminal 2
    have hnot : ¬u.Printable := by
      rintro ⟨hcell, -⟩
      rw [hucell] at hcell
      exact Text.not_printable_pow hcell
    obtain ⟨journal, hend⟩ := Machine.breakOff_of_not_printable hsafe hnot .tapeUnderflow
    rw [Machine.run_of_step_fail hufail, hend]

end CowMachine
