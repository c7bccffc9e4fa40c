import CowMachine.Proofs.Execution
import CowMachine.Proofs.Running

/-!
# What is printed stays printed

An instruction prints a line or nothing, and takes back nothing that was
printed before. Through any number of steps the output only grows at its end.
The screen and the keys belong to a debugging session, and instructions leave
them alone.
-/

set_option autoImplicit false

namespace CowMachine

def Reaction.control : Reaction → Control
  | .act _ c => c
  | .fail _ c => c

namespace Terminal

/-- From the first terminal to the second lines were printed; nothing was shown
and no key was read. -/
structure PrintsTo (t u : Terminal) : Prop where
  recent : ∃ lines : List Line, u.recent = lines.map Printed.line ++ t.recent
  keys : u.keys = t.keys

variable {t u v : Terminal}

theorem PrintsTo.silent (hrecent : u.recent = t.recent) (hkeys : u.keys = t.keys) :
    t.PrintsTo u :=
  ⟨⟨[], hrecent⟩, hkeys⟩

theorem PrintsTo.trans (h : t.PrintsTo u) (h' : u.PrintsTo v) : t.PrintsTo v := by
  obtain ⟨lines, hu⟩ := h.recent
  obtain ⟨lines', hv⟩ := h'.recent
  refine ⟨⟨lines' ++ lines, ?_⟩, h'.keys.trans h.keys⟩
  rw [hv, hu, List.map_append, List.append_assoc]

theorem PrintsTo.output_grows (h : t.PrintsTo u) : t.output <+: u.output := by
  obtain ⟨lines, hu⟩ := h.recent
  simp only [output, Terminal.lines, printed, hu, List.reverse_append, List.filterMap_append,
    List.flatMap_append]
  exact List.prefix_append _ _

theorem PrintsTo.recent_eq (h : t.PrintsTo u) (h' : u.PrintsTo v) (hv : v.recent = t.recent) :
    u.recent = t.recent := by
  obtain ⟨lines, hu⟩ := h.recent
  obtain ⟨lines', hlines⟩ := h'.recent
  have hsize := congrArg List.length (hv.symm.trans hlines)
  rw [hu, List.length_append, List.length_append, List.length_map, List.length_map] at hsize
  have hnone : lines = [] := List.eq_nil_of_length_eq_zero (by omega)
  rw [hu, hnone, List.map_nil, List.nil_append]

theorem PrintsTo.screen_eq (h : t.PrintsTo u) : u.screen = t.screen := by
  obtain ⟨lines, hu⟩ := h.recent
  have hnone : (lines.map Printed.line).reverse.filterMap Printed.shown? = [] := by
    rw [List.filterMap_eq_nil_iff]
    intro entry hentry
    obtain ⟨line, -, rfl⟩ := List.mem_map.1 (List.mem_reverse.1 hentry)
    rfl
  rw [screen, screen, printed, printed, hu, List.reverse_append, List.filterMap_append, hnone,
    List.append_nil]

theorem writeLine_prints {line : Line} (h : t.writeLine line = .ok u) : t.PrintsTo u := by
  unfold writeLine at h
  split at h
  · cases h
  · obtain rfl := Except.ok.inj h
    exact ⟨⟨[_], rfl⟩, rfl⟩

theorem writeNumber_prints {n : Int} (h : t.writeNumber n = .ok u) : t.PrintsTo u := by
  unfold writeNumber at h
  split at h
  · exact writeLine_prints h
  · cases h

end Terminal

namespace Control

variable (c : Control)

theorem written_prints {r : Except Fault Terminal}
    (h : ∀ terminal, r = .ok terminal → c.terminal.PrintsTo terminal) :
    c.terminal.PrintsTo (c.written r).control.terminal := by
  cases r with
  | ok terminal => exact h terminal rfl
  | error fault => exact .silent rfl rfl

theorem readChar_prints : c.terminal.PrintsTo c.readChar.control.terminal := by
  rw [readChar, Terminal.readChar]
  cases c.terminal.input.readChar with
  | error fault => exact .silent rfl rfl
  | ok answer => obtain ⟨_ | _, input⟩ := answer <;> exact .silent rfl rfl

theorem readNumber_prints : c.terminal.PrintsTo c.readNumber.control.terminal := by
  rw [readNumber]
  cases h : c.terminal.readNumber with
  | mk answer terminal =>
    have hrecent : c.terminal.readNumber.2.recent = c.terminal.recent := rfl
    have hkeys : c.terminal.readNumber.2.keys = c.terminal.keys := rfl
    rw [h] at hrecent hkeys
    cases answer <;> exact .silent hrecent hkeys

theorem obey_prints (cell : Int) (i : Instruction) :
    c.terminal.PrintsTo (c.obey cell i).control.terminal := by
  cases i with
  | loopEnd =>
    rw [obey, repeatLoop]
    split <;> exact .silent rfl rfl
  | loopTest =>
    rw [obey, leaveLoop]
    split
    · split <;> exact .silent rfl rfl
    · exact .silent rfl rfl
  | character =>
    rw [obey]
    split
    · exact c.readChar_prints
    · exact c.written_prints fun _ h => Terminal.writeLine_prints h
  | printNumber => exact c.written_prints fun _ h => Terminal.writeNumber_prints h
  | readNumber => exact c.readNumber_prints
  | left | right | delegate | decrement | increment | clear | toggle => exact .silent rfl rfl

theorem react_prints (cell code : Int) :
    c.terminal.PrintsTo (c.react cell code).control.terminal := by
  obtain ⟨rule, hrule, hreact⟩ := react_rule cell code
  rw [hreact]
  cases hrule with
  | obey i hi => exact c.obey_prints cell i
  | stop | selfDelegation | noCode | noDigits | unknown => exact .silent rfl rfl

end Control

namespace Machine

theorem dispatch_prints (m : Machine) (code : Int) :
    m.terminal.PrintsTo (m.dispatch code).machine.terminal := by
  have hreact := m.toControl.react_prints m.tape.current code
  rw [dispatch]
  cases h : m.toControl.react m.tape.current code with
  | fail fault c =>
    rw [h] at hreact
    exact hreact
  | act action c =>
    rw [h] at hreact
    simp only
    cases m.tape.act? action with
    | some tape => exact hreact
    | none => exact .silent rfl rfl

theorem step_prints (m : Machine) : m.terminal.PrintsTo m.step.machine.terminal := by
  cases hrun : m.halted with
  | true =>
    rw [step_halted hrun]
    exact .silent rfl rfl
  | false =>
    cases hcode : m.current? with
    | none =>
      rw [step_outside hrun hcode]
      exact .silent rfl rfl
    | some code =>
      rw [step_running hrun hcode]
      exact m.dispatch_prints code

theorem steps_prints {m u : Machine} {n : Nat} (h : m.steps n = .next u) :
    m.terminal.PrintsTo u.terminal := by
  induction n generalizing u with
  | zero =>
    obtain rfl := Outcome.next.inj h
    exact .silent rfl rfl
  | succ n ih =>
    obtain ⟨v, hsteps, hstep⟩ := steps_concat h
    have hlast := v.step_prints
    rw [hstep] at hlast
    exact (ih hsteps).trans hlast

theorem breakOff_prints (m : Machine) (fault : Fault) :
    m.terminal.PrintsTo (m.breakOff fault).machine.terminal := by
  obtain ⟨-, journal, hmachine⟩ := m.breakOff_ends fault
  rw [hmachine]
  exact .silent rfl rfl

theorem run_prints (m : Machine) (bound : Nat) :
    m.terminal.PrintsTo (m.run bound).machine.terminal := by
  induction bound generalizing m with
  | zero =>
    rw [run, runBy]
    split <;> exact .silent rfl rfl
  | succ bound ih =>
    cases hrun : m.halted with
    | true =>
      rw [run, runBy_halted hrun]
      exact .silent rfl rfl
    | false =>
      have hstep := m.step_prints
      cases hnext : m.step with
      | fail fault m' =>
        rw [hnext] at hstep
        rw [run, runBy_fail hrun hnext]
        exact hstep.trans (m'.breakOff_prints fault)
      | next m' =>
        rw [hnext] at hstep
        rw [run, runBy_next hrun hnext]
        exact hstep.trans (ih m')

end Machine

end CowMachine
