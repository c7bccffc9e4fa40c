import CowMachine.Text.Basic

/-!
# The tape and the register

Memory is a row of integers with a cursor on one of them. The row is held as
the cells before the cursor, nearest first, the current cell and the cells
after it, so the cursor always stands on a cell. Moving right past the last
cell adds a zero; moving left of the first is refused. Beside the tape there is
one slot, empty or holding a value. A call on either answers with the new
register and what it does to the tape, given the current cell.
-/

set_option autoImplicit false

namespace CowMachine

structure Tape where
  before : List Int
  current : Int
  after : List Int
  deriving DecidableEq, Repr

namespace Tape

def blank : Tape := ⟨[], 0, []⟩

def cells (t : Tape) : List Int := t.before.reverse ++ t.current :: t.after

def cursor (t : Tape) : Nat := t.before.length

def length (t : Tape) : Nat := t.cells.length

def write (t : Tape) (v : Int) : Tape := { t with current := v }

def right : Tape → Tape
  | ⟨before, current, []⟩ => ⟨current :: before, 0, []⟩
  | ⟨before, current, next :: after⟩ => ⟨current :: before, next, after⟩

def left? : Tape → Option Tape
  | ⟨[], _, _⟩ => none
  | ⟨previous :: before, current, after⟩ => some ⟨before, previous, current :: after⟩

inductive Action where
  | keep
  | write (v : Int)
  | left
  | right
  deriving DecidableEq, Repr

/-- Only a move to the left can be refused. -/
def act? (t : Tape) : Action → Option Tape
  | .keep => some t
  | .write v => some (t.write v)
  | .left => t.left?
  | .right => some t.right

theorem length_eq (t : Tape) : t.length = t.cursor + 1 + t.after.length := by
  simp only [cursor, length, cells, List.length_append, List.length_reverse, List.length_cons]
  omega

theorem cursor_lt_length (t : Tape) : t.cursor < t.length := by
  rw [length_eq]
  omega

theorem getElem?_cells_cursor (t : Tape) : t.cells[t.cursor]? = some t.current := by
  rw [cells, cursor, List.getElem?_append_right (by simp)]
  simp

@[simp] theorem cells_blank : blank.cells = [0] := rfl

@[simp] theorem cursor_blank : blank.cursor = 0 := rfl

@[simp] theorem cursor_write (t : Tape) (v : Int) : (t.write v).cursor = t.cursor := rfl

@[simp] theorem current_write (t : Tape) (v : Int) : (t.write v).current = v := rfl

theorem cells_write (t : Tape) (v : Int) : (t.write v).cells = t.cells.set t.cursor v := by
  simp only [cells, cursor, write]
  rw [List.set_append_right _ _ (by simp)]
  simp

@[simp] theorem cursor_right (t : Tape) : t.right.cursor = t.cursor + 1 := by
  obtain ⟨before, current, after⟩ := t
  cases after <;> rfl

theorem cells_right (t : Tape) :
    t.right.cells = if t.after = [] then t.cells ++ [0] else t.cells := by
  obtain ⟨before, current, after⟩ := t
  cases after <;> simp [right, cells]

theorem left?_eq_none_iff (t : Tape) : t.left? = none ↔ t.cursor = 0 := by
  obtain ⟨before, current, after⟩ := t
  cases before <;> simp [left?, cursor]

theorem cells_of_left? {t u : Tape} (h : t.left? = some u) : u.cells = t.cells := by
  obtain ⟨before, current, after⟩ := t
  cases before with
  | nil => simp [left?] at h
  | cons previous before =>
    simp only [left?, Option.some.injEq] at h
    subst h
    simp [cells]

theorem cursor_of_left? {t u : Tape} (h : t.left? = some u) : t.cursor = u.cursor + 1 := by
  obtain ⟨before, current, after⟩ := t
  cases before with
  | nil => simp [left?] at h
  | cons previous before =>
    simp only [left?, Option.some.injEq] at h
    subst h
    rfl

end Tape

abbrev Register := Option Int

namespace Register

def capture (r : Register) (cell : Int) : Register × Tape.Action :=
  match r with
  | none => (some cell, .keep)
  | some v => (some v, .keep)

def paste (r : Register) : Register × Tape.Action :=
  match r with
  | none => (none, .keep)
  | some v => (none, .write v)

def toggle (r : Register) (cell : Int) : Register × Tape.Action :=
  match r with
  | none => capture r cell
  | some _ => paste r

/-- Nothing for an empty register; no text for a value too long to print. -/
def text? (r : Register) : Option Text :=
  match r with
  | none => some []
  | some v => Text.decimal? v

end Register

/-- A call on the tape or on the register. -/
inductive Call where
  | read
  | write (v : Int)
  | right
  | left
  | increment
  | decrement
  | clear
  | capture
  | paste
  | toggle
  deriving DecidableEq, Repr

def Call.answer (r : Register) (cell : Int) : Call → Register × Tape.Action
  | .read => (r, .keep)
  | .write v => (r, .write v)
  | .right => (r, .right)
  | .left => (r, .left)
  | .increment => (r, .write (cell + 1))
  | .decrement => (r, .write (cell - 1))
  | .clear => (r, .write 0)
  | .capture => r.capture cell
  | .paste => r.paste
  | .toggle => r.toggle cell

end CowMachine
