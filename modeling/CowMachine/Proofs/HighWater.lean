import CowMachine.Proofs.Footprint
import Mathlib.Data.List.Induction
import Mathlib.Order.Bounds.Basic

/-!
# How far the cursor has been

Work on a machine is a row of operations: calls on its tape and its register, and
its own steps. Any of them may fail, and the next is made all the same. The cursor
stands where the moves have taken it. The tape ends at the furthest cell that the
cursor has been on, since a move beyond the last cell adds one cell and nothing else
adds or removes any. So a walk to the right and back finds every cell again, behind
which are the zeros that it has added.
-/

set_option autoImplicit false

namespace CowMachine

namespace Machine

variable {m u : Machine} {op : Operation}

/-- After some operations, each made whether the one before failed or not. -/
def afterAll (m : Machine) (ops : List Operation) : Machine :=
  ops.foldl (fun u op => (u.operate op).machine) m

def inTurn : List Operation → Machine → Outcome
  | [], m => .next m
  | op :: ops, m => (m.operate op).andThen (inTurn ops)

def instructionOf? (m : Machine) : Operation → Option Instruction
  | .call .right => some .right
  | .call .left => some .left
  | .call _ => none
  | .step => m.instruction?

def carriedOut? (m : Machine) (op : Operation) : Option Instruction :=
  match m.operate op with
  | .next _ => m.instructionOf? op
  | .fail _ _ => none

/-- The instructions that some operations have carried out. -/
def record : List Operation → Machine → List Instruction
  | [], _ => []
  | op :: ops, m => (m.carriedOut? op).toList ++ record ops (m.operate op).machine

inductive Asks (m : Machine) (op : Operation) : Tape.Action → Prop
  | right (h : m.instructionOf? op = some .right) : m.Asks op .right
  | left (h : m.instructionOf? op = some .left) : m.Asks op .left
  | stays {action : Tape.Action} (hright : m.instructionOf? op ≠ some .right)
      (hleft : m.instructionOf? op ≠ some .left) (h : action.Stays) : m.Asks op action

theorem asks_call (m : Machine) (c : Call) :
    m.Asks (.call c) (c.answer m.register m.tape.current).2 := by
  cases c with
  | right => exact .right rfl
  | left => exact .left rfl
  | read | write | increment | decrement | clear =>
    exact .stays (by simp [instructionOf?]) (by simp [instructionOf?]) trivial
  | capture | paste | toggle =>
    refine .stays (by simp [instructionOf?]) (by simp [instructionOf?]) ?_
    cases m.register <;> trivial

theorem tape_of_no_instruction (hi : m.instruction? = none) (h : m.step = .next u) :
    u.tape = m.tape := by
  cases hrun : m.halted with
  | true =>
    rw [step_halted hrun] at h
    rw [Outcome.next.inj h]
  | false =>
    cases hcode : m.current? with
    | none =>
      rw [step_outside hrun hcode] at h
      cases h
    | some code =>
      rw [instruction?_running hrun hcode] at hi
      rw [step_running hrun hcode] at h
      rcases dispatch_cases h with ⟨i, action, heffective, -, -⟩ | ⟨-, journal, rfl⟩
      · rw [Instruction.effective?_eq_some_iff.2 heffective] at hi
        cases hi
      · rfl

theorem asks_step (h : m.step = .next u) :
    ∃ action, m.Asks .step action ∧ m.tape.act? action = some u.tape := by
  cases hi : m.instruction? with
  | none =>
    refine ⟨.keep, .stays (by simp [instructionOf?, hi]) (by simp [instructionOf?, hi]) trivial, ?_⟩
    rw [tape_of_no_instruction hi h]
    rfl
  | some i =>
    obtain ⟨code, hstep, hreact⟩ := step_of_instruction? hi
    obtain ⟨action, hact, htape⟩ := dispatch_next (hstep.symm.trans h)
    refine ⟨action, ?_, htape⟩
    cases (Control.obey_act_effects (hreact.symm.trans hact)).1 with
    | right => exact .right hi
    | left => exact .left hi
    | stays hright hleft hstays =>
      apply Asks.stays _ _ hstays
      · simpa [instructionOf?, hi] using hright
      · simpa [instructionOf?, hi] using hleft

theorem operate_next (h : m.operate op = .next u) :
    ∃ action, m.Asks op action ∧ m.tape.act? action = some u.tape := by
  cases op with
  | step => exact asks_step h
  | call c =>
    refine ⟨_, m.asks_call c, ?_⟩
    rw [operate] at h
    dsimp only at h
    cases htape : m.tape.act? (c.answer m.register m.tape.current).2 with
    | none =>
      rw [htape] at h
      cases h
    | some tape =>
      rw [htape] at h
      rw [← Outcome.next.inj h]

theorem operate_fail {fault : Fault} (h : m.operate op = .fail fault u) : u.tape = m.tape := by
  cases op with
  | step =>
    rcases step_fail_kept h with rfl | ⟨-, rfl⟩
    · rfl
    · rfl
  | call c =>
    rw [operate] at h
    dsimp only at h
    cases htape : m.tape.act? (c.answer m.register m.tape.current).2 with
    | none =>
      rw [htape] at h
      rw [← (Outcome.fail.inj h).2]
    | some tape =>
      rw [htape] at h
      cases h

theorem operate_touched (m : Machine) (op : Operation) :
    m.tape.Touched (m.operate op).machine.tape := by
  cases h : m.operate op with
  | next u =>
    obtain ⟨action, -, htape⟩ := operate_next h
    exact Tape.touched_act htape
  | fail fault u =>
    rw [Outcome.machine, operate_fail h]
    exact .of_same_cells rfl ⟨Nat.le_succ _, Nat.le_succ _⟩

theorem cursor_operate (m : Machine) (op : Operation) :
    (m.operate op).machine.tape.cursor + (m.carriedOut? op).toList.count .left =
      m.tape.cursor + (m.carriedOut? op).toList.count .right := by
  cases h : m.operate op with
  | fail fault u =>
    rw [carriedOut?, h, Outcome.machine, operate_fail h]
    rfl
  | next u =>
    rw [carriedOut?, h, Outcome.machine]
    dsimp only
    obtain ⟨action, hasks, htape⟩ := operate_next h
    cases hasks with
    | right hi =>
      rw [hi, ← Option.some.inj htape, Tape.cursor_right]
      rfl
    | left hi =>
      rw [hi, Tape.cursor_of_left? htape]
      rfl
    | stays hright hleft hstays =>
      have hcount {i : Instruction} (hi : m.instructionOf? op ≠ some i) :
          (m.instructionOf? op).toList.count i = 0 := by
        rw [List.count_eq_zero, Option.mem_toList]
        exact hi
      rw [hcount hright, hcount hleft, Tape.cursor_of_stays hstays htape]

theorem cursor_afterAll (m : Machine) (ops : List Operation) :
    (m.afterAll ops).tape.cursor + (m.record ops).count .left =
      m.tape.cursor + (m.record ops).count .right := by
  induction ops generalizing m with
  | nil => rfl
  | cons op ops ih =>
    have hone := m.cursor_operate op
    have hrest := ih (m.operate op).machine
    rw [record, List.count_append, List.count_append]
    have hafter : m.afterAll (op :: ops) = (m.operate op).machine.afterAll ops := rfl
    rw [hafter]
    omega

theorem afterAll_concat (m : Machine) (ops : List Operation) (op : Operation) :
    m.afterAll (ops ++ [op]) = ((m.afterAll ops).operate op).machine := by
  rw [afterAll, List.foldl_append]
  rfl

/-- The places that the cursor has been on. -/
def Visited (m : Machine) (ops : List Operation) : Set Nat :=
  {place | ∃ front, front <+: ops ∧ (m.afterAll front).tape.cursor = place}

theorem visited_concat (m : Machine) (ops : List Operation) (op : Operation) :
    m.Visited (ops ++ [op]) =
      insert (m.afterAll (ops ++ [op])).tape.cursor (m.Visited ops) := by
  ext place
  simp only [Visited, Set.mem_ofPred_eq, Set.mem_insert_iff, List.prefix_concat_iff, or_and_right,
    exists_or, exists_eq_left, eq_comm]

theorem greatest_visited (h : m.tape.length = m.tape.cursor + 1) (ops : List Operation) :
    ∃ top, IsGreatest (m.Visited ops) top ∧ (m.afterAll ops).tape.length = top + 1 := by
  induction ops using List.reverseRecOn with
  | nil =>
    refine ⟨m.tape.cursor, ⟨⟨[], List.nil_prefix, rfl⟩, ?_⟩, h⟩
    rintro place ⟨front, hfront, rfl⟩
    rw [List.prefix_nil.1 hfront]
    exact Nat.le_refl _
  | append_singleton ops op ih =>
    obtain ⟨top, hgreatest, hlength⟩ := ih
    refine ⟨max (m.afterAll (ops ++ [op])).tape.cursor top, ?_, ?_⟩
    · rw [visited_concat]
      exact hgreatest.insert _
    · rw [afterAll_concat]
      have hinside := ((m.afterAll ops).operate op).machine.tape.cursor_lt_length
      rcases ((m.afterAll ops).operate_touched op).grown with hsame | ⟨hmore, -, hcursor⟩
      · rw [max_eq_right (by omega)]
        omega
      · rw [max_eq_left (by omega)]
        omega

theorem operate_right (h : m.instructionOf? op = some .right) :
    ∃ c : Control, m.operate op = .next { toControl := c, tape := m.tape.right } := by
  cases op with
  | call c =>
    cases c with
    | right => exact ⟨m.toControl, rfl⟩
    | _ => cases h
  | step =>
    obtain ⟨code, hstep, hreact⟩ := step_of_instruction? h
    rw [operate, hstep, dispatch, hreact]
    exact ⟨_, rfl⟩

theorem call_left {tape : Tape} (htape : m.tape.left? = some tape) :
    m.operate (.call .left) = .next { m with tape } := by
  have hact : m.tape.act? .left = some tape := htape
  rw [operate, Call.answer]
  dsimp only
  rw [hact]

theorem operate_left {tape : Tape} (h : m.instructionOf? op = some .left)
    (htape : m.tape.left? = some tape) :
    ∃ c : Control, m.operate op = .next { toControl := c, tape } := by
  cases op with
  | call c =>
    cases c with
    | left => exact ⟨m.toControl, call_left htape⟩
    | _ => cases h
  | step =>
    have hact : m.tape.act? .left = some tape := htape
    obtain ⟨code, hstep, hreact⟩ := step_of_instruction? h
    rw [operate, hstep, dispatch, hreact, Control.obey, Control.called, Call.answer]
    dsimp only
    rw [hact]
    exact ⟨_, rfl⟩

theorem operate_left_iff (h : m.instructionOf? op = some .left) :
    (∃ v, m.operate op = .next v) ↔ 0 < m.tape.cursor := by
  constructor
  · rintro ⟨v, hoperate⟩
    have hcursor := m.cursor_operate op
    rw [carriedOut?, hoperate, h] at hcursor
    exact Nat.lt_of_lt_of_eq (Nat.succ_pos _) hcursor
  · intro hcursor
    cases hleft : m.tape.left? with
    | none =>
      have hzero := m.tape.left?_eq_none_iff.1 hleft
      omega
    | some tape =>
      obtain ⟨c, hoperate⟩ := operate_left h hleft
      exact ⟨_, hoperate⟩

theorem inTurn_append (ops more : List Operation) (m : Machine) :
    m.inTurn (ops ++ more) = (m.inTurn ops).andThen (inTurn more) := by
  induction ops generalizing m with
  | nil => rfl
  | cons op ops ih =>
    rw [List.cons_append, inTurn, inTurn]
    cases m.operate op with
    | next u => exact ih u
    | fail fault u => rfl

theorem inTurn_right (m : Machine) (n : Nat) :
    ∃ tape, m.inTurn (List.replicate n (.call .right)) = .next { m with tape } ∧
      tape.cursor = m.tape.cursor + n ∧
      tape.cells =
        m.tape.cells ++ List.replicate (m.tape.cursor + n + 1 - m.tape.length) 0 := by
  induction n generalizing m with
  | zero =>
    have hlength := m.tape.cursor_lt_length
    refine ⟨m.tape, rfl, rfl, ?_⟩
    rw [Nat.sub_eq_zero_of_le (by omega), List.replicate_zero, List.append_nil]
  | succ n ih =>
    obtain ⟨tape, hturn, hcursor, hcells⟩ := ih { m with tape := m.tape.right }
    dsimp only at hcursor hcells
    rw [Tape.cursor_right] at hcursor hcells
    refine ⟨tape, hturn, by omega, ?_⟩
    rw [hcells]
    have hlength := m.tape.length_eq
    by_cases hlast : m.tape.after = []
    · have hright : m.tape.right.cells = m.tape.cells ++ [0] := by
        rw [Tape.cells_right, if_pos hlast]
      have hone : m.tape.right.length = m.tape.length + 1 := by
        rw [Tape.length, hright, List.length_append, List.length_singleton, Tape.length]
      rw [hlast, List.length_nil] at hlength
      rw [hright, List.append_assoc, List.singleton_append, ← List.replicate_succ]
      congr 2
      omega
    · have hright : m.tape.right.cells = m.tape.cells := by
        rw [Tape.cells_right, if_neg hlast]
      rw [Tape.length, hright, ← Tape.length]
      congr 2
      omega

theorem inTurn_left {n : Nat} (h : n ≤ m.tape.cursor) :
    ∃ tape, m.inTurn (List.replicate n (.call .left)) = .next { m with tape } ∧
      tape.cursor + n = m.tape.cursor ∧ tape.cells = m.tape.cells := by
  induction n generalizing m with
  | zero => exact ⟨m.tape, rfl, rfl, rfl⟩
  | succ n ih =>
    cases hleft : m.tape.left? with
    | none =>
      have hcursor := m.tape.left?_eq_none_iff.1 hleft
      omega
    | some next =>
      have hone := Tape.cursor_of_left? hleft
      have hroom : n ≤ next.cursor := by omega
      obtain ⟨tape, hturn, hcursor, hcells⟩ := ih (m := { m with tape := next }) hroom
      dsimp only at hcursor hcells
      refine ⟨tape, ?_, by omega, hcells.trans (Tape.cells_of_left? hleft)⟩
      rw [List.replicate_succ, inTurn, call_left hleft]
      exact hturn

theorem inTurn_there_and_back (m : Machine) (n : Nat) :
    ∃ tape, m.inTurn (List.replicate n (.call .right) ++ List.replicate n (.call .left)) =
        .next { m with tape } ∧ tape.cursor = m.tape.cursor ∧
      tape.cells =
        m.tape.cells ++ List.replicate (m.tape.cursor + n + 1 - m.tape.length) 0 := by
  obtain ⟨far, hthere, hfar, hcells⟩ := m.inTurn_right n
  have hroom : n ≤ far.cursor := by omega
  obtain ⟨tape, hback, hcursor, hsame⟩ := inTurn_left (m := { m with tape := far }) hroom
  dsimp only at hcursor hsame
  refine ⟨tape, ?_, by omega, hsame.trans hcells⟩
  rw [inTurn_append, hthere]
  exact hback

end Machine

/-- The tape ends at the furthest cell that the cursor has been on, whatever was done
and whatever has failed. -/
theorem tape_length_is_high_water_mark (p : Program) (terminal : Terminal)
    (ops : List Operation) :
    let m := Machine.start p terminal
    let u := m.afterAll ops
    u.tape.cursor < u.tape.length ∧
      (u.tape.cursor : Int) = (m.record ops).count .right - (m.record ops).count .left ∧
      (∃ top, IsGreatest (m.Visited ops) top ∧ u.tape.length = top + 1) ∧
      (∀ op, u.instructionOf? op = some .right → ∃ v, u.operate op = .next v) ∧
      (∀ op, u.instructionOf? op = some .left →
        ((∃ v, u.operate op = .next v) ↔ 0 < u.tape.cursor)) ∧
      ∀ n, ∃ tape,
        u.inTurn (List.replicate n (.call .right) ++ List.replicate n (.call .left)) =
            .next { u with tape } ∧
          tape.cursor = u.tape.cursor ∧
          tape.cells =
            u.tape.cells ++ List.replicate (u.tape.cursor + n + 1 - u.tape.length) 0 := by
  intro m u
  refine ⟨u.tape.cursor_lt_length, ?_, Machine.greatest_visited rfl ops, ?_, ?_, ?_⟩
  · have hcursor : u.tape.cursor + (m.record ops).count .left = 0 + (m.record ops).count .right :=
      m.cursor_afterAll ops
    omega
  · intro op hi
    obtain ⟨c, hoperate⟩ := Machine.operate_right hi
    exact ⟨_, hoperate⟩
  · intro op hi
    exact Machine.operate_left_iff hi
  · intro n
    exact u.inTurn_there_and_back n

example :
    let m := Machine.start [2] (.ofInput (.ofText [] false))
    let ops : List Operation := [.call .left, .call .right, .step, .call .left]
    m.record ops = [.right, .right, .left] ∧ (m.afterAll ops).tape = ⟨[0], 0, [0]⟩ := by decide

end CowMachine
