import CowMachine.Run
import CowMachine.Proofs.Legibility
import CowMachine.Proofs.Printing
import CowMachine.Proofs.Terminals

/-!
# A run that is watched

A debugging session shows text before and after each step. Nothing of it comes
back to the machine: without what is shown, and without the keys of the
session, a watched machine is the machine of the plain run, step for step. Only
a number too long to be shown ends a watched run earlier.
-/

set_option autoImplicit false

namespace CowMachine

namespace Terminal

def quiet (t : Terminal) : Terminal :=
  { t with keys := none, recent := t.recent.filter fun entry => entry.line?.isSome }

theorem output_quiet (t : Terminal) : t.quiet.output = t.output := by
  have hlines : t.quiet.lines = t.lines := by
    simp only [lines, printed, quiet, ← List.filter_reverse, List.filterMap_filter]
    congr 1
    funext entry
    cases entry <;> rfl
  rw [output, output, hlines]

theorem alike_quiet (t : Terminal) (cell : Int) (i : Instruction) : t.Alike quiet cell i where
  readChar _ _ := by
    have hinput : t.quiet.input = t.input := rfl
    rw [readChar, readChar, hinput]
    cases t.input.readChar with
    | error fault => rfl
    | ok answer => obtain ⟨_ | _, input⟩ := answer <;> rfl
  readNumber _ := rfl
  writeLine := writeLine_of_print rfl fun _ => rfl

theorem screen_display (t : Terminal) (content : Text) :
    (t.display content).screen = t.screen ++ content := by
  simp [screen, display, Printed.shown?]

end Terminal

namespace Machine

variable {p : Program} {w m m' : Machine}

/-- The same machine but for what a debugging session shows and reads. -/
def Matches (w m : Machine) : Prop := w.atTerminal .quiet = m.atTerminal .quiet

theorem alike_quiet (m : Machine) : m.Alike .quiet := fun i _ _ _ _ => m.terminal.alike_quiet _ i

theorem Matches.congr {α : Type} (h : w.Matches m) (g : Machine → α)
    (hg : ∀ u : Machine, g (u.atTerminal .quiet) = g u) : g w = g m := by
  rw [← hg w, ← hg m, h]

theorem Matches.halted (h : w.Matches m) : w.halted = m.halted :=
  h.congr (fun u => u.halted) fun _ => rfl

theorem Matches.current? (h : w.Matches m) : w.current? = m.current? :=
  h.congr Machine.current? fun _ => rfl

theorem Matches.state (h : w.Matches m) : Report.state w = Report.state m :=
  h.congr Report.state fun _ => rfl

theorem Matches.output (h : w.Matches m) : w.terminal.output = m.terminal.output :=
  h.congr (fun u => u.terminal.output) fun u => u.terminal.output_quiet

theorem screen_display (m : Machine) (content : Text) :
    (m.display content).terminal.screen = m.terminal.screen ++ content :=
  m.terminal.screen_display content

theorem Matches.step (h : w.Matches m) : w.step.atTerminal .quiet = m.step.atTerminal .quiet := by
  rw [← step_atTerminal w.alike_quiet, ← step_atTerminal m.alike_quiet, h]

theorem Matches.step_next (h : w.Matches m) (hstep : m.step = .next m') :
    ∃ w', w.step = .next w' ∧ w'.Matches m' := by
  have houtcome := h.step
  rw [hstep] at houtcome
  cases hw : w.step with
  | next w' =>
    rw [hw] at houtcome
    exact ⟨w', rfl, Outcome.next.inj houtcome⟩
  | fail fault w' =>
    rw [hw] at houtcome
    cases houtcome

theorem Matches.step_fail (h : w.Matches m) {fault : Fault} (hstep : m.step = .fail fault m') :
    ∃ w', w.step = .fail fault w' ∧ w'.Matches m' := by
  have houtcome := h.step
  rw [hstep] at houtcome
  cases hw : w.step with
  | next w' =>
    rw [hw] at houtcome
    cases houtcome
  | fail fault' w' =>
    rw [hw] at houtcome
    obtain ⟨rfl, hmatch⟩ := Outcome.fail.inj houtcome
    exact ⟨w', rfl, hmatch⟩

theorem Matches.finish (h : w.Matches m) :
    w.finish.atTerminal .quiet = m.finish.atTerminal .quiet :=
  congrArg Machine.finish h

theorem Matches.breakOff (h : w.Matches m) (fault : Fault) :
    (w.breakOff fault).atTerminal .quiet = (m.breakOff fault).atTerminal .quiet := by
  rw [← breakOff_atTerminal, ← breakOff_atTerminal, h]

/-- What can come of a step and the report behind it, for a machine `w` that
matches `m`: both fail, or the state is shown, or it cannot be shown. -/
inductive Watched (w m : Machine) : Outcome → Prop
  | failed {fault : Fault} {w' m' : Machine} (hstep : m.step = .fail fault m')
      (h : w'.Matches m') (hprints : w.terminal.PrintsTo w'.terminal) :
      Watched w m (.fail fault w')
  | shown {lines : List Text} {w' m' : Machine} (hstep : m.step = .next m')
      (hlines : Report.state m' = .ok lines) (h : w'.Matches m')
      (hscreen : w'.terminal.screen = w.terminal.screen ++ Text.unlines lines)
      (hkeys : w'.terminal.keys = w.terminal.keys) : Watched w m (.next w')
  | hidden {w' m' : Machine} (hstep : m.step = .next m')
      (hlong : ¬(m'.Legible ∧ Text.Printable m'.pc)) : Watched w m (.fail .numberTooLong w')

theorem Matches.watched (h : w.Matches m) (hp : p.Closed) (hm : m.Safe p) :
    Watched w m (w.step.andThen displayState) := by
  have hprints := w.step_prints
  cases hstep : m.step with
  | fail fault m' =>
    obtain ⟨w', hw, h'⟩ := h.step_fail hstep
    rw [hw] at hprints ⊢
    exact .failed hstep h' hprints
  | next m' =>
    obtain ⟨w', hw, h'⟩ := h.step_next hstep
    have hm' : m'.Safe p := by
      have hsafe := hm.step hp
      rwa [hstep] at hsafe
    rw [hw] at hprints ⊢
    have hdisplay : (Outcome.next w').andThen displayState = w'.displayState := rfl
    rw [hdisplay, displayState, h'.state]
    by_cases hlegible : m'.Legible ∧ Text.Printable m'.pc
    · obtain ⟨lines, hlines⟩ := (Report.state_written hm').1 hlegible
      rw [hlines]
      refine .shown hstep hlines h' ?_ hprints.keys
      have hkept : w'.terminal.screen = w.terminal.screen := hprints.screen_eq
      rw [screen_display, hkept]
    · rw [(Report.state_written hm').2 hlegible]
      exact .hidden hstep hlegible

theorem run_quiet (h : m.atTerminal .quiet = m) (n : Nat) :
    (m.run n).atTerminal .quiet = m.run n := by
  rw [← run_atTerminal fun k _ => (m.after k).alike_quiet, h]

end Machine

theorem Run.ending_output_of_quiet {watched plain : Run} (h : watched.atTerminal .quiet = plain) :
    watched.ending = plain.ending ∧
      watched.machine.terminal.output = plain.machine.terminal.output := by
  subst h
  exact ⟨rfl, (Terminal.output_quiet _).symm⟩

end CowMachine
