import CowMachine.Machine

/-!
# Reports on a machine's state

Memory is listed two cells to a line. The full report adds the register, both
pointers and the instructions on either side of the program pointer; the
summary fits on one line and goes into the journal. A number too long to be
written, or a pointer outside the program, leaves no report.
-/

set_option autoImplicit false

namespace CowMachine

namespace Report

def number (v : Int) : Except Fault Text :=
  match Text.decimal? v with
  | some digits => .ok digits
  | none => .error .numberTooLong

def register (r : Register) : Except Fault Text :=
  match r.text? with
  | some t => .ok t
  | none => .error .numberTooLong

def codeAt (p : Program) (place : Int) : Except Fault Text :=
  match p.fetch? place with
  | some code => .ok (codeName code)
  | none => .error (.outsideProgram place)

def entry (cell : Int × Nat) : Except Fault Text := do
  let digits ← number cell.1
  return Text.natural cell.2 ++ ":  ".toList ++ digits

def inPairs : List Text → List Text
  | a :: b :: rest => (a ++ '\t' :: b) :: inPairs rest
  | rest => rest

def memory (cells : List Int) : Except Fault (List Text) := do
  let entries ← cells.zipIdx.mapM entry
  return inPairs entries

/-- The instruction before the program pointer, if there can be one. -/
def last (m : Machine) : Except Fault (List Text) :=
  if 0 < m.pc then do
    let name ← codeAt m.program (m.pc - 1)
    return ["Last instruction: ".toList ++ name]
  else
    return []

def state (m : Machine) : Except Fault (List Text) := do
  let memory ← memory m.tape.cells
  let register ← register m.register
  let cell ← number m.tape.current
  let pointer ← number m.pc
  let last ← last m
  let next ← codeAt m.program m.pc
  return ["MEM===============".toList] ++ memory ++
    ["==================".toList,
      "Register: ".toList ++ register,
      "Current memory value: ".toList ++ cell,
      "Program pointer: ".toList ++ pointer,
      "Memory pointer: ".toList ++ Text.natural m.tape.cursor] ++ last ++
    ["Next instruction: ".toList ++ next, [], []]

def summary (m : Machine) : Except Fault Text := do
  let name ← codeAt m.program m.pc
  let cell ← number m.tape.current
  let register ← register m.register
  return "PC:".toList ++ Text.decimal m.pc ++ " OP:".toList ++ name ++
    " MP:".toList ++ Text.natural m.tape.cursor ++ " M:".toList ++ cell ++
    " R:".toList ++ register

end Report

def Machine.summarise (m : Machine) : Outcome :=
  match Report.summary m with
  | .ok line => .next (m.note .debug line)
  | .error fault => .fail fault m

end CowMachine
