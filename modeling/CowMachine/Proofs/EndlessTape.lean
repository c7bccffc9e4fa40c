import CowMachine.Proofs.Execution
import Mathlib.Data.List.GetD

/-!
# A tape without end

A tape without end has a cell for every number, all of them zero at first, and
its cursor moves freely to the right. The tape of a machine shows the part of
it up to the furthest cell that the cursor has been on; what lies beyond is
zero. Every action means the same on both tapes, and the control sees the
current cell only, so a machine on either tape goes through the same states,
failures included.
-/

set_option autoImplicit false

namespace CowMachine

structure EndlessTape where
  cells : Nat → Int
  cursor : Nat

namespace EndlessTape

def blank : EndlessTape := ⟨fun _ => 0, 0⟩

def current (t : EndlessTape) : Int := t.cells t.cursor

def write (t : EndlessTape) (v : Int) : EndlessTape :=
  { t with cells := fun i => if i = t.cursor then v else t.cells i }

def right (t : EndlessTape) : EndlessTape := { t with cursor := t.cursor + 1 }

def left? (t : EndlessTape) : Option EndlessTape :=
  if t.cursor = 0 then none else some { t with cursor := t.cursor - 1 }

def act? (t : EndlessTape) : Tape.Action → Option EndlessTape
  | .keep => some t
  | .write v => some (t.write v)
  | .left => t.left?
  | .right => some t.right

end EndlessTape

/-- The same control on a tape without end. -/
structure EndlessMachine extends Control where
  tape : EndlessTape

namespace EndlessMachine

def start (program : Program) (terminal : Terminal) : EndlessMachine :=
  { program, register := none, pc := 0, halted := false, terminal, journal := [],
    tape := .blank }

def dispatch (m : EndlessMachine) (code : Int) : Option Fault × EndlessMachine :=
  match m.toControl.react m.tape.current code with
  | .fail fault control => (some fault, { m with toControl := control })
  | .act action control =>
    match m.tape.act? action with
    | some tape => (none, { toControl := control, tape })
    | none => (some (.abort .tapeUnderflow), m)

def step (m : EndlessMachine) : Option Fault × EndlessMachine :=
  if m.halted then (none, m)
  else
    match m.program.fetch? m.pc with
    | some code => m.dispatch code
    | none => (some (.outsideProgram m.pc), m)

def after (m : EndlessMachine) : Nat → EndlessMachine
  | 0 => m
  | n + 1 => (m.after n).step.2

end EndlessMachine

def Outcome.fault? : Outcome → Option Fault
  | .next _ => none
  | .fail fault _ => some fault

namespace Tape

/-- The tape with zeros put behind its last cell. -/
def endless (t : Tape) : EndlessTape := ⟨fun i => t.cells.getD i 0, t.cursor⟩

theorem endless_blank : blank.endless = .blank := by
  have hcells (i : Nat) : [(0 : Int)].getD i 0 = 0 := by cases i <;> simp
  simp only [endless, EndlessTape.blank, cells_blank, hcells, cursor_blank]

theorem current_endless (t : Tape) : t.endless.current = t.current := by
  simp only [EndlessTape.current, endless, List.getD, getElem?_cells_cursor, Option.getD_some]

theorem endless_write (t : Tape) (v : Int) : (t.write v).endless = t.endless.write v := by
  have hcells (i : Nat) : (t.cells.set t.cursor v).getD i 0 =
      if i = t.cursor then v else t.cells.getD i 0 := by
    by_cases h : i = t.cursor
    · rw [if_pos h, h, List.getD, List.getElem?_set_self t.cursor_lt_length, Option.getD_some]
    · rw [if_neg h, List.getD, List.getElem?_set_ne (Ne.symm h), ← List.getD]
  simp only [endless, cells_write, hcells, cursor_write]
  rfl

theorem endless_right (t : Tape) : t.right.endless = t.endless.right := by
  have hcells (i : Nat) : t.right.cells.getD i 0 = t.cells.getD i 0 := by
    rw [cells_right]
    split
    · rcases Nat.lt_or_ge i t.cells.length with h | h
      · rw [List.getD_append _ _ _ _ h]
      · rw [List.getD_append_right _ _ _ _ h, List.getD_eq_default _ _ h]
        cases i - t.cells.length <;> simp
    · rfl
  simp only [endless, EndlessTape.right, hcells, cursor_right]

theorem endless_left? (t : Tape) : t.left?.map endless = t.endless.left? := by
  cases h : t.left? with
  | none =>
    have hzero : t.endless.cursor = 0 := (left?_eq_none_iff t).1 h
    rw [EndlessTape.left?, if_pos hzero]
    rfl
  | some u =>
    have hcursor : t.endless.cursor = u.cursor + 1 := cursor_of_left? h
    rw [EndlessTape.left?, if_neg (by omega), hcursor, Nat.add_sub_cancel]
    simp only [Option.map_some, endless, cells_of_left? h]

theorem endless_act? (t : Tape) (action : Action) :
    (t.act? action).map endless = t.endless.act? action := by
  cases action with
  | keep => rfl
  | write v => exact congrArg some (t.endless_write v)
  | left => exact t.endless_left?
  | right => exact congrArg some t.endless_right

end Tape

def Machine.endless (m : Machine) : EndlessMachine := ⟨m.toControl, m.tape.endless⟩

def Outcome.endless (o : Outcome) : Option Fault × EndlessMachine := (o.fault?, o.machine.endless)

namespace Machine

theorem endless_start (p : Program) (terminal : Terminal) :
    (start p terminal).endless = .start p terminal := by
  simp only [endless, start, EndlessMachine.start, Tape.endless_blank]

theorem dispatch_endless (m : Machine) (code : Int) :
    m.endless.dispatch code = (m.dispatch code).endless := by
  have hcurrent : m.endless.tape.current = m.tape.current := m.tape.current_endless
  rw [dispatch, EndlessMachine.dispatch, hcurrent]
  cases h : m.toControl.react m.tape.current code with
  | fail fault control =>
    have hreact : m.endless.toControl.react m.tape.current code = .fail fault control := h
    rw [hreact]
    rfl
  | act action control =>
    have hreact : m.endless.toControl.react m.tape.current code = .act action control := h
    have hact : m.endless.tape.act? action = (m.tape.act? action).map Tape.endless :=
      (m.tape.endless_act? action).symm
    rw [hreact]
    dsimp only
    rw [hact]
    cases m.tape.act? action <;> rfl

theorem step_endless (m : Machine) : m.endless.step = m.step.endless := by
  have hhalted : m.endless.halted = m.halted := rfl
  have hfetch : m.endless.program.fetch? m.endless.pc = m.current? := rfl
  rw [step, EndlessMachine.step, hhalted, hfetch]
  split
  · rfl
  · cases m.current? with
    | none => rfl
    | some code => exact m.dispatch_endless code

theorem after_endless (m : Machine) (n : Nat) : m.endless.after n = (m.after n).endless := by
  induction n with
  | zero => rfl
  | succ n ih =>
    rw [EndlessMachine.after, ih, step_endless]
    rfl

end Machine

/-- On its own tape and on a tape without end a machine goes through the same
states and meets the same faults. The tapes have the same cells as far as the
first reaches, and zeros beyond. -/
theorem tape_refines_endless_tape (p : Program) (terminal : Terminal) (n : Nat) :
    let m := (Machine.start p terminal).after n
    let e := (EndlessMachine.start p terminal).after n
    e.toControl = m.toControl ∧ e.tape.cursor = m.tape.cursor ∧
    (∀ i, i < m.tape.cells.length → m.tape.cells[i]? = some (e.tape.cells i)) ∧
    (∀ i, m.tape.cells.length ≤ i → e.tape.cells i = 0) ∧
    e.step.1 = m.step.fault? := by
  intro m e
  have he : e = m.endless := by
    rw [← Machine.after_endless, Machine.endless_start]
  have hcells (i : Nat) : e.tape.cells i = m.tape.cells.getD i 0 := by
    rw [he]
    rfl
  refine ⟨by rw [he]; rfl, by rw [he]; rfl, ?_, ?_, ?_⟩
  · intro i hi
    rw [hcells, List.getD, List.getElem?_eq_getElem hi, Option.getD_some]
  · intro i hi
    rw [hcells, List.getD_eq_default _ _ hi]
  · rw [he, Machine.step_endless]
    rfl

end CowMachine
