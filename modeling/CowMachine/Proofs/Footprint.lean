import CowMachine.Proofs.Obstacles

/-!
# What an instruction touches

An instruction asks the tape for one action and uses the terminal in one way, and
each has a small footprint. An action changes the cell under the cursor or moves
the cursor by one place, and only a move can add a cell. An instruction that reads
prints nothing, and one that prints reads nothing and prints one line. The
register belongs to a single instruction, and the halted mark to the stop code and
to delegations that name no instruction. A delegated instruction touches what it
touches when it stands in the program.
-/

set_option autoImplicit false

namespace CowMachine

namespace Instruction

def Reads (cell : Int) (i : Instruction) : Prop := i = .readNumber ∨ i = .character ∧ cell = 0

def line? (cell : Int) : Instruction → Option Line
  | .character => if cell = 0 then none else some (.ofValue cell)
  | .printNumber => some (.text (Text.decimal cell))
  | _ => none

theorem line?_eq_some_iff {cell : Int} {i : Instruction} {line : Line} :
    i.line? cell = some line ↔ i = .printNumber ∧ line = .text (Text.decimal cell) ∨
      i = .character ∧ cell ≠ 0 ∧ line = .ofValue cell := by
  cases i <;> simp [line?, eq_comm]

end Instruction

theorem Line.render_ends (line : Line) : ∃ content, line.render = content ++ ['\n'] := by
  cases line with
  | text content => exact ⟨content, rfl⟩
  | surrogate n => exact ⟨[Char.ofNat (0x100000 + n)], rfl⟩

namespace Tape

variable {t u : Tape}

/-- What one action can make of a tape. -/
structure Touched (t u : Tape) : Prop where
  others : ∀ i, i < t.length → i ≠ t.cursor → u.cells[i]? = t.cells[i]?
  grown : u.length = t.length ∨
    u.length = t.length + 1 ∧ u.cells[t.length]? = some 0 ∧ u.cursor = t.length
  near : u.cursor ≤ t.cursor + 1 ∧ t.cursor ≤ u.cursor + 1
  moved : u.cursor ≠ t.cursor → t.cells <+: u.cells

theorem Touched.of_same_cells (hcells : u.cells = t.cells)
    (hnear : u.cursor ≤ t.cursor + 1 ∧ t.cursor ≤ u.cursor + 1) : t.Touched u := by
  refine ⟨fun i _ _ => by rw [hcells], .inl ?_, hnear, fun _ => hcells ▸ List.prefix_rfl⟩
  rw [length, length, hcells]

theorem touched_write (t : Tape) (v : Int) : t.Touched (t.write v) := by
  refine ⟨fun i _ hi => ?_, .inl ?_, by simp, fun h => absurd (cursor_write t v) h⟩
  · rw [cells_write, List.getElem?_set_ne (Ne.symm hi)]
  · rw [length, length, cells_write, List.length_set]

theorem touched_right (t : Tape) : t.Touched t.right := by
  have hcursor := cursor_right t
  by_cases hlast : t.after = []
  · have hcells : t.right.cells = t.cells ++ [0] := by rw [cells_right, if_pos hlast]
    have hend : t.length = t.cursor + 1 := by rw [length_eq, hlast, List.length_nil]
    refine ⟨fun i hi _ => ?_, .inr ⟨?_, ?_, ?_⟩, ⟨by omega, by omega⟩, fun _ => ?_⟩
    · rw [hcells, List.getElem?_append_left hi]
    · rw [length, hcells, List.length_append, List.length_singleton, length]
    · rw [hcells, length, List.getElem?_concat_length]
    · rw [hcursor, hend]
    · rw [hcells]
      exact List.prefix_append _ _
  · have hcells : t.right.cells = t.cells := by rw [cells_right, if_neg hlast]
    exact .of_same_cells hcells ⟨by omega, by omega⟩

theorem touched_left (h : t.left? = some u) : t.Touched u := by
  have hcursor := cursor_of_left? h
  exact .of_same_cells (cells_of_left? h) ⟨by omega, by omega⟩

theorem cursor_of_stays {action : Action} (hstays : action.Stays) (h : t.act? action = some u) :
    u.cursor = t.cursor := by
  cases action with
  | keep | write =>
    obtain rfl := Option.some.inj h
    rfl
  | left | right => exact hstays.elim

theorem touched_act {action : Action} (h : t.act? action = some u) : t.Touched u := by
  cases action with
  | keep =>
    obtain rfl := Option.some.inj h
    exact .of_same_cells rfl ⟨by omega, by omega⟩
  | write v =>
    obtain rfl := Option.some.inj h
    exact touched_write t v
  | left => exact touched_left h
  | right =>
    obtain rfl := Option.some.inj h
    exact touched_right t

end Tape

theorem Input.readChar_suffix {i j : Input} {c : Option Char} (h : i.readChar = .ok (c, j)) :
    j.rest <:+ i.rest := by
  unfold readChar at h
  split at h
  · rename_i d rest hrest
    obtain ⟨-, rfl⟩ := Prod.mk.inj (Except.ok.inj h)
    rw [hrest]
    exact List.suffix_cons d rest
  · split at h
    · obtain ⟨-, rfl⟩ := Prod.mk.inj (Except.ok.inj h)
      exact List.suffix_rfl
    · cases h

namespace Terminal

variable {t u : Terminal} {reads : Prop}

/-- What one instruction can make of a terminal, if it prints this line and may
read or not. -/
structure Touched (t : Terminal) (line : Option Line) (reads : Prop) (u : Terminal) : Prop where
  printed : u.printed = t.printed ++ line.toList.map Printed.line
  rest : u.input.rest <:+ t.input.rest
  ending : u.input.ending = t.input.ending
  unread : ¬reads → u.input = t.input

theorem Touched.same (t : Terminal) (reads : Prop) : t.Touched none reads t :=
  ⟨(List.append_nil _).symm, List.suffix_rfl, rfl, fun _ => rfl⟩

theorem touched_print (t : Terminal) (line : Line) (reads : Prop) :
    t.Touched (some line) reads (t.print (.line line)) :=
  ⟨printed_print t _, List.suffix_rfl, rfl, fun _ => rfl⟩

theorem touched_input {input : Input} (hreads : reads) (hrest : input.rest <:+ t.input.rest)
    (hending : input.ending = t.input.ending) : t.Touched none reads { t with input } :=
  ⟨(List.append_nil _).symm, hrest, hending, fun h => absurd hreads h⟩

theorem output_of_printed {line : Line} (h : u.printed = t.printed ++ [.line line]) :
    u.output = t.output ++ line.render := by
  simp [output, lines, h, Printed.line?]

theorem touched_writeLine {line : Line} (h : t.writeLine line = .ok u) (reads : Prop) :
    t.Touched (some line) reads u := by
  unfold writeLine at h
  split at h
  · cases h
  · obtain rfl := Except.ok.inj h
    exact touched_print t _ reads

theorem touched_writeNumber {v : Int} (h : t.writeNumber v = .ok u) (reads : Prop) :
    t.Touched (some (.text (Text.decimal v))) reads u := by
  rw [writeNumber, Text.decimal?] at h
  by_cases hv : Text.Printable v
  · rw [if_pos hv] at h
    exact touched_writeLine h reads
  · rw [if_neg hv] at h
    cases h

theorem touched_readChar {v : Int} (hreads : reads) (h : t.readChar = .ok (v, u)) :
    t.Touched none reads u := by
  unfold readChar at h
  split at h
  · rename_i hread
    obtain ⟨-, rfl⟩ := Prod.mk.inj (Except.ok.inj h)
    exact touched_input hreads (Input.readChar_suffix hread) (Input.readChar_ending hread)
  · rename_i hread
    obtain ⟨-, rfl⟩ := Prod.mk.inj (Except.ok.inj h)
    exact touched_input hreads (Input.readChar_suffix hread) (Input.readChar_ending hread)
  · cases h

theorem touched_readNumber (t : Terminal) (hreads : reads) :
    t.Touched none reads t.readNumber.2 := by
  obtain ⟨rest, hrest, hsuffix⟩ := t.input.readWord_rest
  rw [← Input.readNumber_snd] at hrest
  have hinput : t.input.readNumber.2.rest <:+ t.input.rest := by
    rw [hrest]
    exact hsuffix
  exact touched_input hreads hinput t.input.readNumber_ending

end Terminal

namespace Control

variable {c c' : Control} {cell : Int} {i : Instruction} {action : Tape.Action}

theorem readChar_act_eq (h : c.readChar = .act action c') :
    ∃ v, c.terminal.readChar = .ok (v, c'.terminal) := by
  rw [readChar] at h
  cases hread : c.terminal.readChar with
  | error fault =>
    rw [hread] at h
    cases h
  | ok answer =>
    rw [hread] at h
    obtain ⟨-, rfl⟩ := Reaction.act.inj h
    exact ⟨answer.1, rfl⟩

theorem readNumber_act_eq (h : c.readNumber = .act action c') :
    c'.terminal = c.terminal.readNumber.2 := by
  rw [readNumber] at h
  cases hread : c.terminal.readNumber with
  | mk answer terminal =>
    rw [hread] at h
    cases answer with
    | error fault => cases h
    | ok v =>
      obtain ⟨-, rfl⟩ := Reaction.act.inj h
      rfl

theorem obey_touched (h : c.obey cell i = .act action c') :
    c.terminal.Touched (i.line? cell) (i.Reads cell) c'.terminal := by
  cases i with
  | loopEnd =>
    obtain ⟨_, -, rfl⟩ := repeatLoop_act h
    exact .same _ _
  | loopTest =>
    rw [obey] at h
    split at h
    · obtain ⟨_, -, rfl⟩ := leaveLoop_act h
      exact .same _ _
    · obtain ⟨-, rfl⟩ := Reaction.act.inj h
      exact .same _ _
  | delegate => cases h
  | character =>
    rw [obey] at h
    rw [Instruction.line?]
    by_cases hcell : cell = 0
    · rw [if_pos hcell] at h ⊢
      obtain ⟨v, hread⟩ := readChar_act_eq h
      exact Terminal.touched_readChar (.inr ⟨rfl, hcell⟩) hread
    · rw [if_neg hcell] at h ⊢
      exact Terminal.touched_writeLine (written_act_eq h) _
  | printNumber => exact Terminal.touched_writeNumber (written_act_eq h) _
  | readNumber =>
    rw [readNumber_act_eq h]
    exact c.terminal.touched_readNumber (.inl rfl)
  | left | right | decrement | increment | clear | toggle =>
    obtain ⟨-, rfl⟩ := Reaction.act.inj h
    exact .same _ _

end Control

namespace Machine

variable {m m' : Machine} {code : Int}

theorem dispatch_cases (h : m.dispatch code = .next m') :
    (∃ i action, i.Effective m.tape.current code ∧
      m.toControl.obey m.tape.current i = .act action m'.toControl ∧
      m.tape.act? action = some m'.tape) ∨
    ((code = stopCode ∨ code = Instruction.delegate.code ∧
        Instruction.ofCode? m.tape.current = none) ∧
      ∃ journal, m' = { m with halted := true, journal }) := by
  obtain ⟨action, hact, htape⟩ := dispatch_next h
  obtain ⟨rule, hrule, hreact⟩ := Control.react_rule m.tape.current code
  rw [hreact] at hact
  obtain ⟨c, tape⟩ := m'
  cases hrule with
  | obey i hi => exact .inl ⟨i, action, hi, hact, htape⟩
  | stop hs =>
    obtain ⟨rfl, rfl⟩ := Reaction.act.inj hact
    obtain rfl := Option.some.inj htape
    exact .inr ⟨.inl hs, m.journal, rfl⟩
  | noCode hd hcell _ =>
    obtain ⟨rfl, rfl⟩ := Reaction.act.inj hact
    obtain rfl := Option.some.inj htape
    exact .inr ⟨.inr ⟨hd, hcell⟩, _, rfl⟩
  | selfDelegation | noDigits | unknown => cases hact

/-- The code is the stop code, or a delegation to a cell outside the codes. -/
def HaltsAt (m : Machine) (code : Int) : Prop :=
  code = stopCode ∨
    code = Instruction.delegate.code ∧ (m.tape.current < 0 ∨ 11 < m.tape.current)

theorem not_haltsAt_of_effective {i : Instruction} (hi : i.Effective m.tape.current code) :
    ¬m.HaltsAt code := by
  rintro (hstop | ⟨hd, hcell⟩)
  · exact hi.ne_stopCode hstop
  · rw [← Instruction.ofCode?_eq_none_iff] at hcell
    rcases hi.2 with hcode | ⟨-, hcode⟩
    · exact hi.1 (Instruction.code_inj (hcode.symm.trans hd))
    · rw [hcode, Instruction.ofCode?_code] at hcell
      cases hcell

end Machine

/-- Whatever code a machine carries out, directly or through a cell, and in whatever
state: the cells away from the cursor stay, a cell that is added is zero and under
the cursor, and a cursor that moves leaves the cells and the register alone. Only
the toggle changes the register, only two instructions print, a line each, only two
read, and where the machine halts nothing else happens but a note. -/
theorem instruction_touches_what_it_names (m m' : Machine) (code : Int)
    (h : m.dispatch code = .next m') :
    m'.program = m.program ∧
    (∀ i, i < m.tape.length → i ≠ m.tape.cursor → m'.tape.cells[i]? = m.tape.cells[i]?) ∧
    (m'.tape.length = m.tape.length ∨
      m'.tape.length = m.tape.length + 1 ∧ m'.tape.cells[m.tape.length]? = some 0 ∧
        m'.tape.cursor = m.tape.length) ∧
    (m'.tape.cursor ≤ m.tape.cursor + 1 ∧ m.tape.cursor ≤ m'.tape.cursor + 1) ∧
    (m'.tape.cursor ≠ m.tape.cursor →
      m.tape.cells <+: m'.tape.cells ∧ m'.register = m.register) ∧
    (m'.register ≠ m.register → Instruction.toggle.Effective m.tape.current code) ∧
    (m'.terminal.printed = m.terminal.printed ∨
      ∃ line content, m'.terminal.printed = m.terminal.printed ++ [.line line] ∧
        m'.terminal.output = m.terminal.output ++ (content ++ ['\n']) ∧
        (Instruction.printNumber.Effective m.tape.current code ∧
            line = .text (Text.decimal m.tape.current) ∨
          Instruction.character.Effective m.tape.current code ∧ m.tape.current ≠ 0 ∧
            line = .ofValue m.tape.current)) ∧
    (m'.terminal.input.rest <:+ m.terminal.input.rest ∧
      m'.terminal.input.ending = m.terminal.input.ending ∧
      (m'.terminal.input ≠ m.terminal.input →
        Instruction.readNumber.Effective m.tape.current code ∨
          Instruction.character.Effective m.tape.current code ∧ m.tape.current = 0)) ∧
    (m'.halted ≠ m.halted → m.HaltsAt code) ∧
    (m.HaltsAt code → ∃ journal, m' = { m with halted := true, journal }) := by
  rcases Machine.dispatch_cases h with ⟨i, action, hi, hact, htape⟩ | ⟨hhalts, journal, rfl⟩
  · have htouched := Tape.touched_act htape
    have hterminal := Control.obey_touched hact
    have heffects := Control.obey_act_effects hact
    have hregister (hne : m'.register ≠ m.register) : i = .toggle := by
      by_contra hother
      exact hne (heffects.2 hother)
    obtain ⟨place, register, terminal, -, hcontrol⟩ := Control.obey_act hact
    have hprogram : m'.program = m.program := by rw [hcontrol]
    have hhalted : m'.halted = m.halted := by rw [hcontrol]
    refine ⟨hprogram, htouched.others, htouched.grown, htouched.near, ?_, ?_, ?_, ?_, ?_, ?_⟩
    · intro hmoved
      refine ⟨htouched.moved hmoved, ?_⟩
      by_contra hne
      obtain rfl := hregister hne
      cases heffects.1 with
      | stays _ _ hstays => exact hmoved (Tape.cursor_of_stays hstays htape)
    · intro hne
      exact hregister hne ▸ hi
    · have hprinted := hterminal.printed
      cases hline : i.line? m.tape.current with
      | none =>
        rw [hline] at hprinted
        exact .inl (hprinted.trans (List.append_nil _))
      | some line =>
        rw [hline] at hprinted
        obtain ⟨content, hcontent⟩ := line.render_ends
        refine .inr ⟨line, content, hprinted, hcontent ▸ Terminal.output_of_printed hprinted, ?_⟩
        rcases Instruction.line?_eq_some_iff.1 hline with ⟨rfl, rfl⟩ | ⟨rfl, hcell, rfl⟩
        · exact .inl ⟨hi, rfl⟩
        · exact .inr ⟨hi, hcell, rfl⟩
    · refine ⟨hterminal.rest, hterminal.ending, fun hne => ?_⟩
      have hreads : i.Reads m.tape.current := by
        by_contra hnot
        exact hne (hterminal.unread hnot)
      rcases hreads with rfl | ⟨rfl, hcell⟩
      · exact .inl hi
      · exact .inr ⟨hi, hcell⟩
    · intro hne
      exact absurd hhalted hne
    · intro hhalts
      exact absurd hhalts (Machine.not_haltsAt_of_effective hi)
  · rw [Instruction.ofCode?_eq_none_iff] at hhalts
    exact ⟨rfl, fun _ _ _ => rfl, .inl rfl, ⟨Nat.le_succ _, Nat.le_succ _⟩,
      fun hne => absurd rfl hne, fun hne => absurd rfl hne, .inl rfl,
      ⟨List.suffix_rfl, rfl, fun hne => absurd rfl hne⟩, fun _ => hhalts, fun _ => ⟨journal, rfl⟩⟩

theorem instruction_touches_what_it_names_through_cell :
    let m : Machine := { Machine.start [8, 3] (.ofInput (.ofText "x".toList false)) with
      pc := -1, register := some 4, tape := ⟨[5], 9, []⟩ }
    let u : Machine := { m with pc := 0, register := none, tape := ⟨[5], 4, []⟩ }
    let v : Machine := { m with pc := 0, tape := ⟨[9, 5], 0, []⟩ }
    m.dispatch 3 = .next u ∧ m.dispatch 2 = .next v ∧
    u.tape.cells[0]? = m.tape.cells[0]? ∧ Instruction.toggle.Effective 9 3 ∧
    m.tape.cells <+: v.tape.cells ∧ v.register = m.register := by
  intro m u v
  have hpaste : m.dispatch 3 = .next u := by decide
  have hright : m.dispatch 2 = .next v := by decide
  obtain ⟨-, hcells, -, -, -, hregister, -⟩ := instruction_touches_what_it_names m u 3 hpaste
  obtain ⟨-, -, -, -, hmoved, -⟩ := instruction_touches_what_it_names m v 2 hright
  exact ⟨hpaste, hright, hcells 0 (by decide) (by decide), hregister (by decide),
    hmoved (by decide)⟩

end CowMachine
