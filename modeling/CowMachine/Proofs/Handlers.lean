import CowMachine.Proofs.Execution

/-!
# Instructions as handlers on a row of cells

The machine as a list of cells with the index of one of them, a register, a
pointer and a terminal, each changed in place. An instruction is a handler: a
sequence of reads, writes and moves that ends where something is raised, with all
that was done before left as it is. An index that no cell has raises too.

Seen as such a row, `dispatch`, `step` and `operate` do what the handlers do, with
the same changes in the same order, and no index is ever out of range. Every row
whose cursor is on a cell is the row of exactly one tape.
-/

set_option autoImplicit false

namespace CowMachine

structure Context extends Control where
  cells : List Int
  cursor : Nat
  deriving DecidableEq, Repr

inductive Exception where
  | fault (fault : Fault)
  | noCell (index : Nat)
  deriving DecidableEq, Repr

abbrev Handler := EStateM Exception Context

namespace Handler

/-! ## The tape and the register -/

def read : Handler Int := do
  let c ← get
  match c.cells[c.cursor]? with
  | some v => pure v
  | none => throw (.noCell c.cursor)

def write (v : Int) : Handler Unit := do
  let c ← get
  if c.cursor < c.cells.length then set { c with cells := c.cells.set c.cursor v }
  else throw (.noCell c.cursor)

def moveForward : Handler Unit := do
  modify fun c => { c with cursor := c.cursor + 1 }
  let c ← get
  if c.cursor = c.cells.length then set { c with cells := c.cells ++ [0] }

def moveBackward : Handler Unit := do
  if (← get).cursor = 0 then throw (.fault (.abort .tapeUnderflow))
  modify fun c => { c with cursor := c.cursor - 1 }

def increment : Handler Unit := do write ((← read) + 1)

def decrement : Handler Unit := do write ((← read) - 1)

def capture : Handler Unit := do
  if (← get).register.isNone then
    let v ← read
    modify fun c => { c with register := some v }

def paste : Handler Unit := do
  match (← get).register with
  | some v =>
    write v
    modify fun c => { c with register := none }
  | none => pure ()

def toggle : Handler Unit := do
  if (← get).register.isNone then capture else paste

/-! ## The terminal -/

def readChar : Handler Int := do
  let c ← get
  match c.terminal.readChar with
  | .ok (v, terminal) =>
    set { c with terminal }
    pure v
  | .error fault => throw (.fault fault)

def readNumber : Handler Int := do
  let c ← get
  let (answer, terminal) := c.terminal.readNumber
  set { c with terminal }
  match answer with
  | .ok v => pure v
  | .error fault => throw (.fault fault)

def print (write : Terminal → Except Fault Terminal) : Handler Unit := do
  let c ← get
  match write c.terminal with
  | .ok terminal => set { c with terminal }
  | .error fault => throw (.fault fault)

/-! ## Instructions -/

def advance : Handler Unit := modify fun c => { c with pc := c.pc + 1 }

def goTo (place : Int) : Handler Unit := modify fun c => { c with pc := place }

def note (level : Level) (message : Text) : Handler Unit :=
  modify fun c => { c with journal := c.journal ++ [⟨level, message⟩] }

def halt : Handler Unit := modify fun c => { c with halted := true }

def followed (search : Program.Search) (target : Int → Int) : Handler Unit :=
  match search with
  | .found place => goTo (target place)
  | .absent => advance
  | .outside place => throw (.fault (.outsideProgram place))

/-- The handler of an instruction, given that of delegation. -/
def handle (delegation : Handler Unit) : Instruction → Handler Unit
  | .left => do moveBackward; advance
  | .right => do moveForward; advance
  | .decrement => do decrement; advance
  | .increment => do increment; advance
  | .clear => do write 0; advance
  | .toggle => do toggle; advance
  | .character => do
    let v ← read
    if v = 0 then
      let entered ← readChar
      write entered
    else print (·.writeChar v)
    advance
  | .printNumber => do
    let v ← read
    print (·.writeNumber v)
    advance
  | .readNumber => do
    let v ← readNumber
    write v
    advance
  | .loopTest => do
    if (← read) ≠ 0 then advance
    else
      let c ← get
      followed (c.program.loopExit c.pc) (· + 1)
  | .loopEnd => do
    let c ← get
    followed (c.program.loopStart c.pc) id
  | .delegate => delegation

def delegate : Handler Unit := do
  let code ← read
  match Instruction.ofCode? code with
  | some i => handle (throw (.fault (.abort .selfDelegation))) i
  | none =>
    match Text.decimal? code with
    | some digits =>
      note .debug ("Invalid command code ".toList ++ digits ++ ", halting".toList)
      halt
    | none => throw (.fault .numberTooLong)

def dispatch (code : Int) : Handler Unit :=
  if code = stopCode then halt
  else
    match Instruction.ofCode? code with
    | some i => handle delegate i
    | none => throw (.fault (.unknownCode code))

def step : Handler Unit := do
  let c ← get
  unless c.halted do
    match c.program.fetch? c.pc with
    | some code => dispatch code
    | none => throw (.fault (.outsideProgram c.pc))

def call : Call → Handler Unit
  | .read => do let _ ← read
  | .write v => write v
  | .right => moveForward
  | .left => moveBackward
  | .increment => increment
  | .decrement => decrement
  | .clear => write 0
  | .capture => capture
  | .paste => paste
  | .toggle => toggle

def operate : Operation → Handler Unit
  | .call c => call c
  | .step => step

end Handler

/-! ## Machines seen as rows -/

def Machine.row (m : Machine) : Context :=
  { m.toControl with cells := m.tape.cells, cursor := m.tape.cursor }

def Outcome.row : Outcome → EStateM.Result Exception Context Unit
  | .next m => .ok () m.row
  | .fail fault m => .error (.fault fault) m.row

@[simp] theorem Machine.toControl_row (m : Machine) : m.row.toControl = m.toControl := rfl

/-- What the machine makes of its control's answer. -/
def Machine.settle (m : Machine) : Reaction → Outcome
  | .fail fault control => .fail fault { m with toControl := control }
  | .act action control =>
    match m.tape.act? action with
    | some tape => .next { toControl := control, tape }
    | none => .fail (.abort .tapeUnderflow) m

theorem Machine.dispatch_eq_settle (m : Machine) (code : Int) :
    m.dispatch code = m.settle (m.toControl.react m.tape.current code) := rfl

namespace Handler

variable (m : Machine)

@[simp] theorem run_read : read.run m.row = .ok m.tape.current m.row := by
  simp [read, Machine.row, Tape.getElem?_cells_cursor]

@[simp] theorem run_write (v : Int) :
    (write v).run m.row = .ok () { m with tape := m.tape.write v }.row := by
  have hinside : m.tape.cursor < m.tape.cells.length := m.tape.cursor_lt_length
  simp [write, Machine.row, hinside, Tape.cells_write]

@[simp] theorem run_moveForward :
    moveForward.run m.row = .ok () { m with tape := m.tape.right }.row := by
  have hlast : m.tape.cursor + 1 = m.tape.cells.length ↔ m.tape.after = [] := by
    rw [← Tape.length, m.tape.length_eq, ← List.length_eq_zero_iff]
    omega
  by_cases h : m.tape.after = []
  · simp [moveForward, Machine.row, hlast, Tape.cells_right, h]
  · simp [moveForward, Machine.row, hlast, Tape.cells_right, h]

theorem run_moveBackward :
    moveBackward.run m.row = (m.operate (.call .left)).row := by
  by_cases h : m.tape.cursor = 0
  · have hrefused : m.tape.act? .left = none := m.tape.left?_eq_none_iff.2 h
    simp [moveBackward, Machine.operate, Call.answer, hrefused, Machine.row, h, Outcome.row]
  · cases hleft : m.tape.left? with
    | none => exact absurd (m.tape.left?_eq_none_iff.1 hleft) h
    | some tape =>
      have hmoved : m.tape.act? .left = some tape := hleft
      have hcursor := Tape.cursor_of_left? hleft
      simp [moveBackward, Machine.operate, Call.answer, hmoved, Machine.row, Outcome.row,
        Tape.cells_of_left? hleft, hcursor]

theorem run_capture : capture.run m.row = (m.operate (.call .capture)).row := by
  cases h : m.register with
  | none =>
    simp only [capture, Option.isNone_iff_eq_none, EStateM.run_bind, EStateM.run_get,
      Machine.toControl_row, h, if_true, run_read, EStateM.run_modify, Machine.operate,
      Call.answer, Register.capture]
    rfl
  | some v =>
    have hkept : capture.run m.row = .ok () m.row := by simp [capture, h]
    have hcall : m.operate (.call .capture) = .next { m with register := some v } := by
      simp only [Machine.operate, Call.answer, Register.capture, h]
      rfl
    rw [hkept, hcall, ← h]
    rfl

theorem run_paste : paste.run m.row = (m.operate (.call .paste)).row := by
  cases h : m.register with
  | none =>
    have hkept : paste.run m.row = .ok () m.row := by simp [paste, h]
    have hcall : m.operate (.call .paste) = .next { m with register := none } := by
      simp only [Machine.operate, Call.answer, Register.paste, h]
      rfl
    rw [hkept, hcall, ← h]
    rfl
  | some v =>
    simp only [paste, EStateM.run_bind, EStateM.run_get, Machine.toControl_row, h, run_write,
      EStateM.run_modify, Machine.operate, Call.answer, Register.paste]
    rfl

theorem run_toggle : toggle.run m.row = (m.operate (.call .toggle)).row := by
  cases h : m.register with
  | none =>
    have hcall : m.operate (.call .toggle) = m.operate (.call .capture) := by
      simp only [Machine.operate, Call.answer, Register.toggle, h]
    rw [hcall, ← run_capture]
    simp [toggle, h]
  | some v =>
    have hcall : m.operate (.call .toggle) = m.operate (.call .paste) := by
      simp only [Machine.operate, Call.answer, Register.toggle, h]
    rw [hcall, ← run_paste]
    simp [toggle, h]

theorem run_call (c : Call) : (call c).run m.row = (m.operate (.call c)).row := by
  cases c with
  | left => exact run_moveBackward m
  | capture => exact run_capture m
  | paste => exact run_paste m
  | toggle => exact run_toggle m
  | read =>
    rw [call, EStateM.run_bind, run_read]
    rfl
  | write | right | increment | decrement | clear =>
    simp only [call, increment, decrement, EStateM.run_bind, run_read, run_write, run_moveForward]
    rfl

theorem run_called (c : Call) :
    (do call c; advance).run m.row = (m.settle (m.toControl.called m.tape.current c)).row := by
  rw [EStateM.run_bind, run_call, Machine.operate, Control.called]
  rcases c.answer m.register m.tape.current with ⟨register, action⟩
  dsimp only [Machine.settle]
  cases m.tape.act? action <;> rfl

/-! ## Reading and printing -/

theorem run_readChar :
    readChar.run m.row =
      match m.terminal.readChar with
      | .ok (v, terminal) => .ok v { m with terminal }.row
      | .error fault => .error (.fault fault) m.row := by
  simp only [readChar, EStateM.run_bind, EStateM.run_get, Machine.toControl_row]
  cases m.terminal.readChar <;> rfl

theorem run_readNumber :
    readNumber.run m.row =
      match m.terminal.readNumber with
      | (.ok v, terminal) => .ok v { m with terminal }.row
      | (.error fault, terminal) => .error (.fault fault) { m with terminal }.row := by
  simp only [readNumber, EStateM.run_bind, EStateM.run_get, Machine.toControl_row]
  rcases m.terminal.readNumber with ⟨_ | _, terminal⟩ <;> rfl

theorem run_printed (write : Terminal → Except Fault Terminal) :
    (do print write; advance).run m.row =
      (m.settle (m.toControl.written (write m.terminal))).row := by
  simp only [print, EStateM.run_bind, EStateM.run_get, Machine.toControl_row]
  cases write m.terminal <;> rfl

theorem run_followed (search : Program.Search) (target : Int → Int) :
    (followed search target).run m.row =
      match search with
      | .found place => .ok () { m with pc := target place }.row
      | .absent => .ok () { m with pc := m.pc + 1 }.row
      | .outside place => .error (.fault (.outsideProgram place)) m.row := by
  cases search <;> rfl

/-! ## Instructions -/

theorem run_character (delegation : Handler Unit) :
    (handle delegation .character).run m.row =
      (m.settle (m.toControl.obey m.tape.current .character)).row := by
  rw [handle, EStateM.run_bind, run_read, Control.obey]
  by_cases h : m.tape.current = 0
  · simp only [if_pos h, EStateM.run_bind, run_readChar, Control.readChar]
    cases m.terminal.readChar with
    | error fault => rfl
    | ok answer =>
      obtain ⟨v, terminal⟩ := answer
      simp only [run_write]
      rfl
  · simp only [if_neg h]
    exact run_printed m _

theorem run_handle (delegation : Handler Unit) {i : Instruction} (hi : i ≠ .delegate) :
    (handle delegation i).run m.row =
      (m.settle (m.toControl.obey m.tape.current i)).row := by
  cases i with
  | left => exact run_called m .left
  | right => exact run_called m .right
  | decrement => exact run_called m .decrement
  | increment => exact run_called m .increment
  | clear => exact run_called m .clear
  | toggle => exact run_called m .toggle
  | character => exact run_character m delegation
  | printNumber =>
    rw [handle, EStateM.run_bind, run_read]
    exact run_printed m _
  | readNumber =>
    rw [handle, EStateM.run_bind, run_readNumber, Control.obey, Control.readNumber]
    rcases m.terminal.readNumber with ⟨_ | v, terminal⟩
    · rfl
    · simp only [EStateM.run_bind, run_write]
      rfl
  | loopTest =>
    rw [handle, EStateM.run_bind, run_read, Control.obey]
    by_cases h : m.tape.current = 0
    · simp only [h, ne_eq, not_true_eq_false, if_false, if_true, EStateM.run_bind,
        EStateM.run_get, Machine.toControl_row, run_followed, Control.leaveLoop]
      cases m.program.loopExit m.pc <;> rfl
    · simp only [ne_eq, h, not_false_eq_true, if_true, if_false]
      rfl
  | loopEnd =>
    simp only [handle, EStateM.run_bind, EStateM.run_get, Machine.toControl_row, run_followed,
      Control.obey, Control.repeatLoop]
    cases m.program.loopStart m.pc <;> rfl
  | delegate => exact absurd rfl hi

theorem run_delegate :
    delegate.run m.row = (m.settle (m.toControl.delegate m.tape.current)).row := by
  simp only [delegate, EStateM.run_bind, run_read, Control.delegate]
  cases Instruction.ofCode? m.tape.current with
  | none =>
    cases Text.decimal? m.tape.current with
    | none => rfl
    | some digits => rfl
  | some i =>
    by_cases hi : i = .delegate
    · rw [hi]
      rfl
    · exact run_handle m _ hi

theorem run_dispatch (code : Int) : (dispatch code).run m.row = (m.dispatch code).row := by
  rw [Machine.dispatch_eq_settle, dispatch, Control.react]
  by_cases hstop : code = stopCode
  · rw [if_pos hstop, if_pos hstop]
    rfl
  · rw [if_neg hstop, if_neg hstop]
    cases Instruction.ofCode? code with
    | none => rfl
    | some i =>
      cases i with
      | delegate => exact run_delegate m
      | _ => exact run_handle m delegate (by decide)

theorem run_step : step.run m.row = m.step.row := by
  rw [step, EStateM.run_bind, EStateM.run_get, Machine.step]
  by_cases hrun : m.halted = true
  · simp only [Machine.toControl_row, hrun, if_true]
    rfl
  · simp only [Machine.toControl_row, hrun, Machine.current?]
    cases m.program.fetch? m.pc with
    | some code => exact run_dispatch m code
    | none => rfl

end Handler

/-- Every piece of work on a machine is what its handler does to the row of the
machine, failures included. -/
theorem Machine.operate_row (m : Machine) (op : Operation) :
    (Handler.operate op).run m.row = (m.operate op).row := by
  cases op with
  | call c => exact Handler.run_call m c
  | step => exact Handler.run_step m

theorem Machine.steps_row (m : Machine) (n : Nat) :
    (forM (List.replicate n Operation.step) Handler.operate).run m.row = (m.steps n).row := by
  induction n generalizing m with
  | zero => rfl
  | succ n ih =>
    rw [List.replicate_succ, List.forM_cons, EStateM.run_bind, m.operate_row, operate, steps]
    cases m.step with
    | next u => exact ih u
    | fail fault u => rfl

theorem Tape.eq_of_cells {t u : Tape} (hcells : t.cells = u.cells) (hcursor : t.cursor = u.cursor) :
    t = u := by
  obtain ⟨before, current, after⟩ := t
  obtain ⟨before', current', after'⟩ := u
  simp only [cursor] at hcursor
  obtain ⟨hbefore, hrest⟩ := List.append_inj hcells (by simp [hcursor])
  exact (mk.injEq ..).mpr ⟨List.reverse_inj.1 hbefore, List.cons.inj hrest⟩

theorem Machine.row_injective {m u : Machine} (h : m.row = u.row) : m = u := by
  have hcontrol : m.toControl = u.toControl := congrArg Context.toControl h
  have htape : m.tape = u.tape :=
    Tape.eq_of_cells (congrArg Context.cells h) (congrArg Context.cursor h)
  obtain ⟨control, tape⟩ := m
  obtain ⟨control', tape'⟩ := u
  rw [show control = control' from hcontrol, show tape = tape' from htape]

theorem Machine.exists_row {c : Context} (h : c.cursor < c.cells.length) :
    ∃ m : Machine, m.row = c := by
  refine ⟨⟨c.toControl, ⟨(c.cells.take c.cursor).reverse, c.cells[c.cursor],
    c.cells.drop (c.cursor + 1)⟩⟩, ?_⟩
  simp only [row, Tape.cells, Tape.cursor, List.reverse_reverse, List.length_reverse,
    List.length_take, Nat.min_eq_left (Nat.le_of_lt h), ← List.drop_eq_getElem_cons h,
    List.take_append_drop]

end CowMachine
