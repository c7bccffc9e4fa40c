import CowMachine.Proofs.Diagnostics
import CowMachine.Proofs.Printout

/-!
# What stands in the way of a step

The next step of a machine fails for one of a few reasons, and each of them can
be seen before the step is made: from the program pointer, the code there, the
tape and what is left of the input. Every fault has one reason. Where there is none
the step is made. The searches for loop marks are no reason: they can start from any
place that holds a code, the places counted from the end of the program included.
-/

set_option autoImplicit false

namespace CowMachine

theorem Instruction.printable_code (i : Instruction) : Text.Printable i.code := by
  cases i <;> decide

theorem Instruction.ofCode?_of_not_printable {cell : Int} (h : ¬Text.Printable cell) :
    Instruction.ofCode? cell = none := by
  cases hcode : Instruction.ofCode? cell with
  | none => rfl
  | some i => exact absurd (Instruction.ofCode?_eq_some_iff.1 hcode ▸ i.printable_code) h

namespace Input

def token (i : Input) : Text :=
  (i.rest.dropWhile Text.isBlank).takeWhile fun c => !Text.isBlank c

variable {i : Input}

theorem readChar_finished (h : i.ending = .finished) : ∃ answer, i.readChar = .ok answer := by
  rw [readChar, h]
  cases i.rest with
  | nil => exact ⟨_, rfl⟩
  | cons c rest => exact ⟨_, rfl⟩

theorem readWord_finished (h : i.ending = .finished) : ∃ j, i.readWord = (.ok i.token, j) := by
  rw [readWord, h]
  dsimp only
  cases (i.rest.dropWhile Text.isBlank).dropWhile fun c => !Text.isBlank c with
  | nil => exact ⟨_, rfl⟩
  | cons c rest => exact ⟨_, rfl⟩

theorem readNumber_of_word {j : Input} {c : Char} {rest : Text}
    (h : i.readWord = (.ok (c :: rest), j)) :
    i.readNumber = match Text.numeral? (c :: rest) with
      | some v => (.ok v, j)
      | none => (.error (.abort (.numberMalformed (c :: rest))), j) := by
  cases hv : Text.numeral? (c :: rest) <;> simp only [readNumber, h, hv]

theorem readNumber_error_iff (h : i.ending = .finished) {fault : Fault} :
    i.readNumber.1 = .error fault ↔
      i.token = [] ∧ fault = .abort .numberMissing ∨
        i.token ≠ [] ∧ Text.numeral? i.token = none ∧
          fault = .abort (.numberMalformed i.token) := by
  obtain ⟨j, hword⟩ := readWord_finished h
  cases htoken : i.token with
  | nil =>
    rw [readNumber, hword, htoken]
    simp [eq_comm]
  | cons c rest =>
    rw [htoken] at hword
    rw [readNumber_of_word hword]
    cases Text.numeral? (c :: rest) with
    | some v => simp
    | none => simp [eq_comm]

end Input

namespace Terminal

variable {t : Terminal} {v : Int} {fault : Fault}

theorem writeChar_error_iff : t.writeChar v = .error fault ↔
    IsSurrogate v ∧ t.encodes = true ∧ fault = .unencodable (v % 0x10000).toNat := by
  rw [writeChar]
  by_cases hv : IsSurrogate v
  · have hline : Line.ofValue v = .surrogate (v % 0x10000).toNat := by
      simp only [IsSurrogate] at hv
      rw [Line.ofValue, Line.ofUnit, if_pos (by simp only [Line.unitCount]; omega)]
      rfl
    rw [hline]
    cases hencodes : t.encodes <;> simp [writeLine, hencodes, hv, eq_comm]
  · rw [Line.ofValue_of_not_surrogate hv]
    simp [writeLine, hv]

theorem writeNumber_error_iff :
    t.writeNumber v = .error fault ↔ ¬Text.Printable v ∧ fault = .numberTooLong := by
  rw [writeNumber, Text.decimal?]
  by_cases hv : Text.Printable v
  · simp [writeLine, hv]
  · simp [hv, eq_comm]

end Terminal

def Tape.Action.Stays : Action → Prop
  | .keep | .write _ => True
  | .left | .right => False

inductive Instruction.Moves : Instruction → Tape.Action → Prop
  | right : Moves .right .right
  | left : Moves .left .left
  | stays {i : Instruction} {action : Tape.Action} (hright : i ≠ .right) (hleft : i ≠ .left)
      (hstays : action.Stays) : Moves i action

namespace Control

variable {c c' : Control} {cell : Int} {i : Instruction} {action : Tape.Action} {fault : Fault}

theorem obey_fail_cases (hnear : ¬c.Astray) (hi : i ≠ .delegate)
    (hend : c.terminal.input.ending = .finished) (h : c.obey cell i = .fail fault c') :
    i = .character ∧ c.terminal.writeChar cell = .error fault ∨
      i = .printNumber ∧ c.terminal.writeNumber cell = .error fault ∨
        i = .readNumber ∧ c.terminal.input.readNumber.1 = .error fault := by
  cases i with
  | loopEnd => exact absurd (repeatLoop_fail h).2 hnear
  | loopTest =>
    rw [obey] at h
    split at h
    · exact absurd (leaveLoop_fail h).2 hnear
    · cases h
  | delegate => exact absurd rfl hi
  | character =>
    rw [obey] at h
    split at h
    · obtain ⟨⟨_ | _, input⟩, hread⟩ := Input.readChar_finished hend
      all_goals
        rw [readChar, Terminal.readChar, hread] at h
        cases h
    · exact .inl ⟨rfl, (written_fail h).2⟩
  | printNumber => exact .inr (.inl ⟨rfl, (written_fail h).2⟩)
  | readNumber =>
    rw [obey, readNumber] at h
    cases hread : c.terminal.readNumber with
    | mk answer terminal =>
      rw [hread] at h
      cases answer with
      | ok v => cases h
      | error fault' =>
        obtain ⟨rfl, -⟩ := Reaction.fail.inj h
        exact .inr (.inr ⟨rfl, congrArg Prod.fst hread⟩)
  | left | right | decrement | increment | clear | toggle => cases h

/-- Each of two instructions moves the cursor in its direction, and no other moves it.
Only one changes the register. -/
theorem obey_act_effects (h : c.obey cell i = .act action c') :
    i.Moves action ∧ (i ≠ .toggle → c'.register = c.register) := by
  cases i with
  | left =>
    cases h
    exact ⟨.left, fun _ => rfl⟩
  | right =>
    cases h
    exact ⟨.right, fun _ => rfl⟩
  | loopEnd =>
    rw [obey, repeatLoop] at h
    split at h <;> cases h <;> exact ⟨.stays (by simp) (by simp) trivial, fun _ => rfl⟩
  | loopTest =>
    rw [obey, leaveLoop] at h
    split at h
    · split at h <;> cases h <;> exact ⟨.stays (by simp) (by simp) trivial, fun _ => rfl⟩
    · cases h
      exact ⟨.stays (by simp) (by simp) trivial, fun _ => rfl⟩
  | character =>
    rw [obey, readChar] at h
    split at h
    · split at h <;> cases h
      exact ⟨.stays (by simp) (by simp) trivial, fun _ => rfl⟩
    · cases hwrite : c.terminal.writeChar cell <;> rw [hwrite] at h <;> cases h
      exact ⟨.stays (by simp) (by simp) trivial, fun _ => rfl⟩
  | printNumber =>
    rw [obey] at h
    cases hwrite : c.terminal.writeNumber cell <;> rw [hwrite] at h <;> cases h
    exact ⟨.stays (by simp) (by simp) trivial, fun _ => rfl⟩
  | readNumber =>
    rw [obey, readNumber] at h
    split at h <;> cases h
    exact ⟨.stays (by simp) (by simp) trivial, fun _ => rfl⟩
  | toggle =>
    refine ⟨.stays (by simp) (by simp) ?_, absurd rfl⟩
    rw [obey, called] at h
    cases hr : c.register <;> rw [hr] at h <;> cases h <;> trivial
  | delegate => cases h
  | decrement | increment | clear =>
    cases h
    exact ⟨.stays (by simp) (by simp) trivial, fun _ => rfl⟩

end Control

namespace Machine

variable {m m' : Machine} {fault : Fault}

theorem left_of_refused {action : Tape.Action} (h : m.tape.act? action = none) :
    action = .left ∧ m.tape.cursor = 0 := by
  cases action with
  | left => exact ⟨rfl, m.tape.left?_eq_none_iff.1 h⟩
  | keep | write | right => cases h

theorem dispatch_fail_cases {code : Int} (h : m.dispatch code = .fail fault m') :
    m.toControl.react m.tape.current code = .fail fault m'.toControl ∨
      fault = .abort .tapeUnderflow ∧ m.tape.cursor = 0 ∧
        ∃ c, m.toControl.react m.tape.current code = .act .left c := by
  rw [dispatch] at h
  cases hreact : m.toControl.react m.tape.current code with
  | fail fault' c =>
    rw [hreact] at h
    obtain ⟨rfl, rfl⟩ := Outcome.fail.inj h
    exact .inl rfl
  | act action c =>
    rw [hreact] at h
    dsimp only at h
    cases htape : m.tape.act? action with
    | some tape =>
      rw [htape] at h
      cases h
    | none =>
      rw [htape] at h
      obtain ⟨rfl, -⟩ := Outcome.fail.inj h
      obtain ⟨rfl, hcursor⟩ := left_of_refused htape
      exact .inr ⟨rfl, hcursor, c, rfl⟩

theorem instruction?_left {c : Control} (hrun : m.halted = false) {code : Int}
    (hcode : m.current? = some code)
    (h : m.toControl.react m.tape.current code = .act .left c) :
    m.instruction? = some .left := by
  obtain ⟨rule, hrule, hreact⟩ := Control.react_rule m.tape.current code
  rw [hreact] at h
  cases hrule with
  | obey i hi =>
    cases (Control.obey_act_effects h).1 with
    | left =>
      rw [instruction?_running hrun hcode]
      exact Instruction.effective?_eq_some_iff.2 hi
    | stays _ _ hstays => exact hstays.elim
  | stop | selfDelegation | noCode | noDigits | unknown => cases h

theorem effective_of_instruction? {i : Instruction} (h : m.instruction? = some i) :
    m.halted = false ∧
      ∃ code, m.current? = some code ∧ i.Effective m.tape.current code := by
  cases hrun : m.halted with
  | true =>
    rw [instruction?, hrun] at h
    cases h
  | false =>
    rw [instruction?, hrun] at h
    obtain ⟨code, hcode, hi⟩ := Option.bind_eq_some_iff.1 h
    exact ⟨rfl, code, hcode, Instruction.effective?_eq_some_iff.1 hi⟩

theorem step_of_instruction? {i : Instruction} (h : m.instruction? = some i) :
    ∃ code, m.step = m.dispatch code ∧
      m.toControl.react m.tape.current code = m.toControl.obey m.tape.current i := by
  obtain ⟨hrun, code, hcode, hi⟩ := effective_of_instruction? h
  exact ⟨code, step_running hrun hcode, Control.react_effective _ hi⟩

/-- What keeps the next step from being made, with the fault that shows it. The
input ends in order. -/
inductive Obstacle (m : Machine) : Fault → Prop
  | outside (h : m.pc < -(m.program.length : Int) ∨ (m.program.length : Int) ≤ m.pc) :
      m.Obstacle (.outsideProgram m.pc)
  | unknown {code : Int} (h : m.current? = some code) (hstop : code ≠ stopCode)
      (hrange : code < 0 ∨ 11 < code) : m.Obstacle (.unknownCode code)
  | selfDelegation (h : m.current? = some Instruction.delegate.code)
      (hcell : m.tape.current = Instruction.delegate.code) : m.Obstacle (.abort .selfDelegation)
  | tooLong (h : m.current? = some Instruction.printNumber.code ∨
        m.current? = some Instruction.delegate.code)
      (hcell : ¬Text.Printable m.tape.current) : m.Obstacle .numberTooLong
  | underflow (h : m.instruction? = some .left) (hcursor : m.tape.cursor = 0) :
      m.Obstacle (.abort .tapeUnderflow)
  | missing (h : m.instruction? = some .readNumber) (hword : m.terminal.input.token = []) :
      m.Obstacle (.abort .numberMissing)
  | malformed (h : m.instruction? = some .readNumber) (hword : m.terminal.input.token ≠ [])
      (hnumeral : Text.numeral? m.terminal.input.token = none) :
      m.Obstacle (.abort (.numberMalformed m.terminal.input.token))
  | unencodable (h : m.instruction? = some .character) (hcell : IsSurrogate m.tape.current)
      (hencodes : m.terminal.encodes = true) :
      m.Obstacle (.unencodable (m.tape.current % 0x10000).toNat)

theorem obstacle_of_obey_fail {c : Control} {code : Int} {i : Instruction}
    (hend : m.terminal.input.ending = .finished) (hrun : m.halted = false)
    (hcode : m.current? = some code) (hi : i.Effective m.tape.current code)
    (h : m.toControl.obey m.tape.current i = .fail fault c) : m.Obstacle fault := by
  have hinstruction : m.instruction? = some i := by
    rw [instruction?_running hrun hcode]
    exact Instruction.effective?_eq_some_iff.2 hi
  rcases Control.obey_fail_cases (Control.not_astray hcode) hi.1 hend h with
    ⟨rfl, hw⟩ | ⟨rfl, hw⟩ | ⟨rfl, hread⟩
  · obtain ⟨hcell, hencodes, rfl⟩ := Terminal.writeChar_error_iff.1 hw
    exact .unencodable hinstruction hcell hencodes
  · obtain ⟨hcell, rfl⟩ := Terminal.writeNumber_error_iff.1 hw
    rcases hi.2 with rfl | ⟨rfl, -⟩
    · exact .tooLong (.inl hcode) hcell
    · exact .tooLong (.inr hcode) hcell
  · rcases (Input.readNumber_error_iff hend).1 hread with ⟨hword, rfl⟩ | ⟨hword, hnone, rfl⟩
    · exact .missing hinstruction hword
    · exact .malformed hinstruction hword hnone

theorem obstacle_of_react_fail {c : Control} {code : Int}
    (hend : m.terminal.input.ending = .finished) (hrun : m.halted = false)
    (hcode : m.current? = some code)
    (h : m.toControl.react m.tape.current code = .fail fault c) : m.Obstacle fault := by
  obtain ⟨rule, hrule, hreact⟩ := Control.react_rule m.tape.current code
  rw [hreact] at h
  cases hrule with
  | obey i hi => exact obstacle_of_obey_fail hend hrun hcode hi h
  | selfDelegation hd hcell =>
    obtain ⟨rfl, -⟩ := Reaction.fail.inj h
    exact .selfDelegation (hd ▸ hcode) hcell
  | noDigits hd _ hdigits =>
    obtain ⟨rfl, -⟩ := Reaction.fail.inj h
    refine .tooLong (.inr (hd ▸ hcode)) fun hcell => ?_
    rw [Text.decimal?, if_pos hcell] at hdigits
    cases hdigits
  | unknown hstop hnone =>
    obtain ⟨rfl, -⟩ := Reaction.fail.inj h
    exact .unknown hcode hstop (Instruction.ofCode?_eq_none_iff.1 hnone)
  | stop | noCode => cases h

theorem obstacle_of_fail (hend : m.terminal.input.ending = .finished)
    (h : m.step = .fail fault m') : m.Obstacle fault := by
  obtain ⟨hrun, ⟨hnone, -⟩ | ⟨code, hcode, hdispatch⟩⟩ := step_fail h
  · rw [step_outside hrun hnone] at h
    obtain ⟨rfl, -⟩ := Outcome.fail.inj h
    exact .outside ((Program.fetch?_eq_none_iff _ _).1 hnone)
  · rcases dispatch_fail_cases hdispatch with hfail | ⟨rfl, hcursor, c, hact⟩
    · exact obstacle_of_react_fail hend hrun hcode hfail
    · exact .underflow (instruction?_left hrun hcode hact) hcursor

theorem step_of_react_fail {c : Control} {code : Int} (hrun : m.halted = false)
    (hcode : m.current? = some code)
    (h : m.toControl.react m.tape.current code = .fail fault c) :
    ∃ u, m.step = .fail fault u := by
  rw [step_running hrun hcode, dispatch, h]
  exact ⟨_, rfl⟩

theorem step_of_obey_fail {c : Control} {i : Instruction} (hi : m.instruction? = some i)
    (h : m.toControl.obey m.tape.current i = .fail fault c) : ∃ u, m.step = .fail fault u := by
  obtain ⟨hrun, code, hcode, heffective⟩ := effective_of_instruction? hi
  exact step_of_react_fail hrun hcode ((Control.react_effective _ heffective).trans h)

theorem step_of_readNumber_error (hi : m.instruction? = some .readNumber)
    (h : m.terminal.input.readNumber.1 = .error fault) : ∃ u, m.step = .fail fault u := by
  have hread : m.terminal.readNumber = (.error fault, m.terminal.readNumber.2) :=
    Prod.ext h rfl
  refine step_of_obey_fail hi (c := { m.toControl with terminal := m.terminal.readNumber.2 }) ?_
  rw [Control.obey, Control.readNumber, hread]

theorem fail_of_obstacle (hrun : m.halted = false) (hend : m.terminal.input.ending = .finished)
    (h : m.Obstacle fault) : ∃ u, m.step = .fail fault u := by
  cases h with
  | outside h => exact ⟨m, step_outside hrun ((Program.fetch?_eq_none_iff _ _).2 h)⟩
  | unknown hcode hstop hrange =>
    refine step_of_react_fail hrun hcode (c := m.toControl) ?_
    rw [Control.react, if_neg hstop, Instruction.ofCode?_eq_none_iff.2 hrange]
  | selfDelegation hcode hcell =>
    refine step_of_react_fail hrun hcode (c := m.toControl) ?_
    rw [Control.react_delegate, hcell]
    rfl
  | tooLong hcode hcell =>
    rcases hcode with hcode | hcode
    · refine step_of_react_fail hrun hcode (c := m.toControl) ?_
      rw [Control.react_effective _ ⟨by decide, .inl rfl⟩, Control.obey,
        Terminal.writeNumber_error_iff.2 ⟨hcell, rfl⟩]
      rfl
    · exact ⟨m, step_no_digits hrun hcode (Instruction.ofCode?_of_not_printable hcell) hcell⟩
  | underflow hi hcursor =>
    obtain ⟨code, hstep, hreact⟩ := step_of_instruction? hi
    have hrefused : m.tape.act? .left = none := m.tape.left?_eq_none_iff.2 hcursor
    rw [hstep, dispatch, hreact, Control.obey, Control.called, Call.answer]
    dsimp only
    rw [hrefused]
    exact ⟨_, rfl⟩
  | missing hi hword =>
    exact step_of_readNumber_error hi ((Input.readNumber_error_iff hend).2 (.inl ⟨hword, rfl⟩))
  | malformed hi hword hnone =>
    exact step_of_readNumber_error hi
      ((Input.readNumber_error_iff hend).2 (.inr ⟨hword, hnone, rfl⟩))
  | unencodable hi hcell hencodes =>
    refine step_of_obey_fail hi (c := m.toControl) ?_
    have hzero : m.tape.current ≠ 0 := by
      rintro hzero
      rw [hzero] at hcell
      exact absurd hcell (by decide)
    rw [Control.obey, if_neg hzero, Terminal.writeChar_error_iff.2 ⟨hcell, hencodes, rfl⟩]
    rfl

theorem step_fail_iff (hrun : m.halted = false) (hend : m.terminal.input.ending = .finished) :
    (∃ u, m.step = .fail fault u) ↔ m.Obstacle fault := by
  constructor
  · rintro ⟨u, h⟩
    exact obstacle_of_fail hend h
  · exact fail_of_obstacle hrun hend

theorem step_next_iff (hrun : m.halted = false) (hend : m.terminal.input.ending = .finished) :
    (∃ u, m.step = .next u) ↔ ∀ fault, ¬m.Obstacle fault := by
  constructor
  · rintro ⟨u, hnext⟩ fault hobstacle
    obtain ⟨v, hfail⟩ := fail_of_obstacle hrun hend hobstacle
    rw [hnext] at hfail
    cases hfail
  · intro hnone
    cases hstep : m.step with
    | next u => exact ⟨u, rfl⟩
    | fail fault u => exact absurd (obstacle_of_fail hend hstep) (hnone fault)

/-- All that can go wrong at a terminal that does not encode: the table without its
last row. -/
theorem step_fail_iff_of_not_encodes (hrun : m.halted = false)
    (hend : m.terminal.input.ending = .finished) (hencodes : m.terminal.encodes = false) :
    (∃ u, m.step = .fail fault u) ↔
      ((m.pc < -(m.program.length : Int) ∨ (m.program.length : Int) ≤ m.pc) ∧
        fault = .outsideProgram m.pc) ∨
      (∃ code, m.current? = some code ∧ code ≠ stopCode ∧ (code < 0 ∨ 11 < code) ∧
        fault = .unknownCode code) ∨
      (m.current? = some Instruction.delegate.code ∧
        m.tape.current = Instruction.delegate.code ∧ fault = .abort .selfDelegation) ∨
      ((m.current? = some Instruction.printNumber.code ∨
          m.current? = some Instruction.delegate.code) ∧
        ¬Text.Printable m.tape.current ∧ fault = .numberTooLong) ∨
      (m.instruction? = some .left ∧ m.tape.cursor = 0 ∧ fault = .abort .tapeUnderflow) ∨
      (m.instruction? = some .readNumber ∧ m.terminal.input.token = [] ∧
        fault = .abort .numberMissing) ∨
      (m.instruction? = some .readNumber ∧ m.terminal.input.token ≠ [] ∧
        Text.numeral? m.terminal.input.token = none ∧
        fault = .abort (.numberMalformed m.terminal.input.token)) := by
  rw [step_fail_iff hrun hend]
  constructor
  · intro h
    cases h with
    | outside h => exact .inl ⟨h, rfl⟩
    | unknown h hstop hrange => exact .inr (.inl ⟨_, h, hstop, hrange, rfl⟩)
    | selfDelegation h hcell => exact .inr (.inr (.inl ⟨h, hcell, rfl⟩))
    | tooLong h hcell => exact .inr (.inr (.inr (.inl ⟨h, hcell, rfl⟩)))
    | underflow h hcursor => exact .inr (.inr (.inr (.inr (.inl ⟨h, hcursor, rfl⟩))))
    | missing h hword => exact .inr (.inr (.inr (.inr (.inr (.inl ⟨h, hword, rfl⟩)))))
    | malformed h hword hnumeral =>
      exact .inr (.inr (.inr (.inr (.inr (.inr ⟨h, hword, hnumeral, rfl⟩)))))
    | unencodable h hcell hyes =>
      rw [hencodes] at hyes
      cases hyes
  · rintro (⟨h, rfl⟩ | ⟨code, h, hstop, hrange, rfl⟩ | ⟨h, hcell, rfl⟩ | ⟨h, hcell, rfl⟩ |
      ⟨h, hcursor, rfl⟩ | ⟨h, hword, rfl⟩ | ⟨h, hword, hnumeral, rfl⟩)
    · exact .outside h
    · exact .unknown h hstop hrange
    · exact .selfDelegation h hcell
    · exact .tooLong h hcell
    · exact .underflow h hcursor
    · exact .missing h hword
    · exact .malformed h hword hnumeral

end Machine

/-- The step of a machine that has not halted fails with a fault exactly where the
obstacle of that fault is in its way, whatever the program and wherever its pointer,
and is made exactly where there is none. A terminal that encodes what it prints adds
the last of the obstacles. From a place that holds a code no search for a loop mark
begins outside the program. -/
theorem step_fails_at_obstacle (m : Machine) (hrun : m.halted = false)
    (hend : m.terminal.input.ending = .finished) :
    (∀ fault, (∃ u, m.step = .fail fault u) ↔ m.Obstacle fault) ∧
    ((∃ u, m.step = .next u) ↔ ∀ fault, ¬m.Obstacle fault) ∧
    ∀ code, m.current? = some code → ∀ place,
      m.program.loopExit m.pc ≠ .outside place ∧ m.program.loopStart m.pc ≠ .outside place := by
  refine ⟨fun fault => Machine.step_fail_iff hrun hend, Machine.step_next_iff hrun hend, ?_⟩
  intro code hcode place
  exact Program.search_ne_outside hcode place

theorem step_fails_at_obstacle_counted_from_end :
    let m : Machine := { Machine.start [7, 3, 0] (.ofInput (.ofText " 4x".toList false)) with
      pc := -3 }
    let u : Machine := { m with pc := -2, tape := ⟨[7], 11, [1]⟩ }
    let v : Machine := { m with pc := -4 }
    m.step = .next { m with pc := 0 } ∧ (∀ fault, ¬m.Obstacle fault) ∧
    (∀ place, m.program.loopExit m.pc ≠ .outside place) ∧
    (∃ w, u.step = .fail (.abort (.numberMalformed ['4', 'x'])) w) ∧
    ∃ w, v.step = .fail (.outsideProgram (-4)) w := by
  intro m u v
  have hnext : m.step = .next { m with pc := 0 } := by decide
  have hm := step_fails_at_obstacle m rfl rfl
  refine ⟨hnext, hm.2.1.1 ⟨_, hnext⟩, fun place => (hm.2.2 7 rfl place).1, ?_, ?_⟩
  · exact ((step_fails_at_obstacle u rfl rfl).1 _).2
      (.malformed (by decide) (by decide) (by decide))
  · exact ((step_fails_at_obstacle v rfl rfl).1 _).2 (.outside (by decide))

end CowMachine
