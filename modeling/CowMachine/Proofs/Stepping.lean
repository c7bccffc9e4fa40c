import Mathlib.Data.List.TakeWhile
import CowMachine.Proofs.Resumption
import CowMachine.Proofs.Watching

/-!
# Stepped runs

A stepped run waits for a line of keys before each instruction. While the keys
last it is the plain run, and each step that is begun, also one that fails,
takes one line of them. When they are used up the prompt is closed: the run
breaks off there, and the step that was asked for is not taken.
-/

set_option autoImplicit false

namespace CowMachine

namespace Text

/-- A newline closes a line, and what stands behind the last one is a line
unless it is empty. -/
def lineCount (t : Text) : Nat :=
  t.count '\n' + if t = [] ∨ t.getLast? = some '\n' then 0 else 1

def dropLine (t : Text) : Text := (t.dropWhile (· != '\n')).tail

def dropLines : Nat → Text → Text
  | 0, t => t
  | n + 1, t => dropLines n t.dropLine

variable {t line : Text}

theorem dropWhile_unclosed (h : '\n' ∉ t) : t.dropWhile (· != '\n') = [] := by
  rw [List.dropWhile_eq_nil_iff]
  intro c hc
  exact bne_iff_ne.2 (ne_of_mem_of_not_mem hc h)

theorem dropWhile_closed (h : '\n' ∉ line) (rest : Text) :
    (line ++ '\n' :: rest).dropWhile (· != '\n') = '\n' :: rest := by
  rw [List.dropWhile_append_of_pos]
  · rfl
  · intro c hc
    exact bne_iff_ne.2 (ne_of_mem_of_not_mem hc h)

theorem lineCount_unclosed (h : '\n' ∉ t) (hne : t ≠ []) : t.lineCount = 1 := by
  have hlast : t.getLast? ≠ some '\n' := fun hlast => h (List.mem_of_getLast? hlast)
  rw [lineCount, List.count_eq_zero_of_not_mem h, if_neg (not_or.2 ⟨hne, hlast⟩)]

theorem lineCount_closed (h : '\n' ∉ line) (rest : Text) :
    lineCount (line ++ '\n' :: rest) = lineCount rest + 1 := by
  have hcount : (line ++ '\n' :: rest).count '\n' = rest.count '\n' + 1 := by
    rw [List.count_append, List.count_eq_zero_of_not_mem h, List.count_cons_self, Nat.zero_add]
  have htail : (line ++ '\n' :: rest = [] ∨ (line ++ '\n' :: rest).getLast? = some '\n') ↔
      (rest = [] ∨ rest.getLast? = some '\n') := by
    cases rest with
    | nil => simp
    | cons c rest => simp [List.getLast?_append]
  simp only [lineCount, hcount, htail]
  exact Nat.add_right_comm _ _ _

theorem lines_cases (t : Text) :
    t = [] ∨ t ≠ [] ∧ '\n' ∉ t ∨ ∃ line rest, '\n' ∉ line ∧ t = line ++ '\n' :: rest := by
  by_cases hmem : '\n' ∈ t
  · obtain ⟨line, rest, ht, hline⟩ := List.eq_append_cons_of_mem hmem
    exact .inr (.inr ⟨line, rest, hline, ht⟩)
  · by_cases hne : t = []
    · exact .inl hne
    · exact .inr (.inl ⟨hne, hmem⟩)

theorem lineCount_eq_zero : t.lineCount = 0 ↔ t = [] := by
  constructor
  · intro hcount
    obtain rfl | ⟨hne, h⟩ | ⟨line, rest, h, rfl⟩ := lines_cases t
    · rfl
    · rw [lineCount_unclosed h hne] at hcount
      cases hcount
    · rw [lineCount_closed h] at hcount
      cases hcount
  · rintro rfl
    rfl

theorem lineCount_dropLine (t : Text) : t.dropLine.lineCount = t.lineCount - 1 := by
  obtain rfl | ⟨hne, h⟩ | ⟨line, rest, h, rfl⟩ := lines_cases t
  · rfl
  · rw [lineCount_unclosed h hne, dropLine, dropWhile_unclosed h]
    rfl
  · rw [lineCount_closed h, dropLine, dropWhile_closed h]
    rfl

theorem lineCount_dropLines (n : Nat) (t : Text) :
    (t.dropLines n).lineCount = t.lineCount - n := by
  induction n generalizing t with
  | zero => rfl
  | succ n ih => rw [dropLines, ih, lineCount_dropLine, Nat.sub_sub, Nat.add_comm 1 n]

end Text

theorem Input.skipLine_keys {keys : Text} (hne : keys ≠ []) :
    (Input.ofText keys false).skipLine = .ok (.ofText keys.dropLine false) := by
  have hrest : (Input.ofText keys false).rest = keys := rfl
  obtain rfl | ⟨-, h⟩ | ⟨line, rest, h, rfl⟩ := Text.lines_cases keys
  · exact absurd rfl hne
  · have hempty : keys.isEmpty = false := List.isEmpty_eq_false_iff.2 hne
    rw [skipLine, Text.dropLine, hrest, Text.dropWhile_unclosed h, hempty]
    rfl
  · rw [skipLine, Text.dropLine, hrest, Text.dropWhile_closed h]
    rfl

namespace Machine

variable {p : Program} {w m : Machine} {keys : Text}

theorem prompt_next {code : Int} (hcode : w.current? = some code)
    (hkeys : w.terminal.keys = some (.ofText keys false)) (hne : keys ≠ []) :
    ∃ v : Machine, w.prompt = .next v ∧ v.Matches w ∧
      v.terminal.keys = some (.ofText keys.dropLine false) := by
  have hfetch : w.program.fetch? w.pc = some code := hcode
  have hkeys' (content : Text) :
      (w.display content).terminal.keys = some (.ofText keys false) := hkeys
  rw [prompt, Report.codeAt, hfetch]
  simp only [Terminal.awaitReturn, hkeys', Input.skipLine_keys hne, Except.map]
  exact ⟨_, rfl, rfl, rfl⟩

theorem prompt_closed {code : Int} (hcode : w.current? = some code)
    (hkeys : w.terminal.keys = some (.ofText [] false)) :
    ∃ v : Machine, w.prompt = .fail .promptClosed v ∧ v.Matches w := by
  have hfetch : w.program.fetch? w.pc = some code := hcode
  have hkeys' (content : Text) :
      (w.display content).terminal.keys = some (.ofText [] false) := hkeys
  have hclosed : (Input.ofText [] false).skipLine = .error .promptClosed := rfl
  rw [prompt, Report.codeAt, hfetch]
  simp only [Terminal.awaitReturn, hkeys', hclosed, Except.map]
  exact ⟨_, rfl, rfl⟩

/-- The run takes so many steps and no fewer; the last of them may fail. -/
def EndsAfter (m : Machine) (n : Nat) : Prop :=
  (m.run n).ending ≠ .unfinished ∧ ∀ j, j < n → (m.run j).ending = .unfinished

theorem Matches.stepped (h : w.Matches m) (hp : p.Closed) (hm : m.Safe p)
    (hkeys : w.terminal.keys = some (.ofText keys false)) (hne : keys ≠ []) :
    ∃ v : Machine, v.terminal.keys = some (.ofText keys.dropLine false) ∧
      Watched v m (Mode.stepped.cycle w) := by
  obtain ⟨code, hcode, -⟩ := hm.current hp
  obtain ⟨v, hprompt, hv, hleft⟩ := prompt_next (h.current?.trans hcode) hkeys hne
  have hmatch : v.Matches m := hv.trans h
  rw [Mode.cycle, hprompt]
  exact ⟨v, hleft, hmatch.watched hp hm⟩

theorem Matches.stepped_run (h : w.Matches m) (hp : p.Closed) (hm : m.Safe p)
    (hsize : Text.Printable p.length) (hlegible : ∀ k u, m.steps k = .next u → u.Legible)
    (hkeys : w.terminal.keys = some (.ofText keys false)) {n : Nat} (hn : n ≤ keys.lineCount) :
    (Mode.stepped.run n w).atTerminal .quiet = (m.run n).atTerminal .quiet ∧
    ((∀ j, j < n → (m.run j).ending = .unfinished) →
      (Mode.stepped.run n w).machine.terminal.keys = some (.ofText (keys.dropLines n) false)) := by
  induction n generalizing w m keys with
  | zero =>
    cases hrun : m.halted with
    | true =>
      rw [Mode.run, run, runBy_halted hrun, runBy_halted (h.halted.trans hrun)]
      exact ⟨h.finish, fun _ => hkeys⟩
    | false =>
      rw [Mode.run, run, runBy_zero hrun, runBy_zero (h.halted.trans hrun)]
      exact ⟨congrArg (Run.mk .unfinished) h, fun _ => hkeys⟩
  | succ n ih =>
    cases hrun : m.halted with
    | true =>
      rw [Mode.run, run, runBy_halted hrun, runBy_halted (h.halted.trans hrun)]
      refine ⟨h.finish, fun hlasts => ?_⟩
      have hstart := hlasts 0 (Nat.succ_pos n)
      rw [run, runBy_halted hrun] at hstart
      cases hstart
    | false =>
      have hrun' := h.halted.trans hrun
      have hne : keys ≠ [] := by
        rintro rfl
        exact absurd hn (Nat.not_succ_le_zero n)
      obtain ⟨v, hleft, hwatched⟩ := h.stepped hp hm hkeys hne
      have hsafe := hm.step hp
      generalize hcycle : Mode.stepped.cycle w = o at hwatched
      cases hwatched with
      | hidden hstep hlong =>
        rw [hstep] at hsafe
        have hone := hlegible 1 _ ((steps_one m).trans hstep)
        exact absurd ⟨hone, hsafe.printable_pc hsize⟩ hlong
      | @failed fault w' m' hstep h' hprints =>
        rw [Mode.run, run, runBy_fail hrun hstep, runBy_fail hrun' hcycle]
        refine ⟨h'.breakOff _, fun hlasts => ?_⟩
        cases n with
        | zero => exact ((breakOff_prints _ _).keys.trans hprints.keys).trans hleft
        | succ n =>
          have hfirst := hlasts 1 (Nat.succ_lt_succ (Nat.succ_pos n))
          rw [run, runBy_fail hrun hstep] at hfirst
          exact absurd hfirst (m'.breakOff_ends fault).1
      | @shown lines w' m' hstep hlines h' hscreen hkept =>
        rw [hstep] at hsafe
        rw [Mode.run, run, runBy_next hrun hstep, runBy_next hrun' hcycle]
        have hn' : n ≤ keys.dropLine.lineCount := by
          rw [Text.lineCount_dropLine]
          exact Nat.le_sub_one_of_lt hn
        obtain ⟨hsame, hspent⟩ := ih h' hsafe
          (fun k u hk => hlegible (k + 1) u ((steps_succ hstep k).trans hk))
          (hkept.trans hleft) hn'
        refine ⟨hsame, fun hlasts => hspent fun j hj => ?_⟩
        have hlater := hlasts (j + 1) (Nat.succ_lt_succ hj)
        rwa [run, runBy_next hrun hstep] at hlater

theorem Matches.stepped_closed (h : w.Matches m) (hp : p.Closed) (hm : m.Safe p)
    (hrun : m.halted = false) (hkeys : w.terminal.keys = some (.ofText [] false)) (bound : Nat) :
    (Mode.stepped.run (bound + 1) w).ending = .failed .promptClosed ∧
      (Mode.stepped.run (bound + 1) w).machine.Matches m := by
  obtain ⟨code, hcode, -⟩ := hm.current hp
  obtain ⟨v, hprompt, hv⟩ := prompt_closed (h.current?.trans hcode) hkeys
  have hcycle : Mode.stepped.cycle w = .fail .promptClosed v := by
    rw [Mode.cycle, hprompt]
    rfl
  rw [Mode.run, runBy_fail (h.halted.trans hrun) hcycle]
  exact ⟨rfl, hv.trans h⟩

end Machine

/-- Let the numbers of all states have text, and the length of the program. A run
that ends before the keys do is stepped to the same end, with the same output
and one line of keys less for each step. A longer run is broken off by the prompt
that finds no line, with the output of as many steps as there were lines. -/
theorem stepped_run_takes_line_per_step {t : Text} {p : Program}
    (hload : (Source.Listing.ofText t).program = .ok p) (hsize : Text.Printable p.length)
    (input : Input) (keys : Text) (bound : Nat)
    (hlegible : ∀ k u, (Machine.start p (.ofInput input)).steps k = .next u → u.Legible) :
    let m := Machine.start p (.ofInput input)
    let w := Machine.start p { Terminal.ofInput input with keys := some (.ofText keys false) }
    let stepped := (Mode.ofFlags true true).run bound w
    (∀ n, m.EndsAfter n → n ≤ keys.lineCount → n ≤ bound →
      let plain := (Mode.ofFlags false false).run n m
      stepped.ending = plain.ending ∧
      stepped.machine.terminal.output = plain.machine.terminal.output ∧
      stepped.atTerminal .quiet = plain ∧
      stepped.machine.terminal.keys = some (.ofText (keys.dropLines n) false) ∧
      (keys.dropLines n).lineCount = keys.lineCount - n) ∧
    ((m.run keys.lineCount).ending = .unfinished → keys.lineCount < bound →
      stepped.ending = .failed .promptClosed ∧
      ∃ u, m.steps keys.lineCount = .next u ∧
        stepped.machine.terminal.output = u.terminal.output) := by
  intro m w stepped
  have hp := Source.Listing.closed_of_program hload
  have hm : m.Safe p := Machine.start_safe hp _
  have hmatch : w.Matches m := rfl
  constructor
  · intro n hends hlines hbound plain
    obtain ⟨hsame, hspent⟩ := hmatch.stepped_run hp hm hsize hlegible rfl hlines
    have hquiet : (Mode.stepped.run n w).atTerminal .quiet = plain :=
      hsame.trans (Machine.run_quiet rfl n)
    obtain ⟨hending, houtput⟩ := Run.ending_output_of_quiet hquiet
    have hstepped : stepped = Mode.stepped.run n w := by
      obtain ⟨more, rfl⟩ := Nat.exists_eq_add_of_le hbound
      exact Machine.runBy_ended (hending ▸ hends.1) more
    rw [hstepped]
    exact ⟨hending, houtput, hquiet, hspent hends.2, keys.lineCount_dropLines n⟩
  · intro hcut hbound
    obtain ⟨hsame, hspent⟩ := hmatch.stepped_run hp hm hsize hlegible rfl (Nat.le_refl _)
    have hsteps := Machine.steps_of_unfinished hcut
    have hcut' : (Mode.stepped.run keys.lineCount w).ending = .unfinished :=
      (congrArg Run.ending hsame).trans hcut
    have hmatch' : (Mode.stepped.run keys.lineCount w).machine.Matches
        (m.run keys.lineCount).machine := congrArg Run.machine hsame
    have hempty : keys.dropLines keys.lineCount = [] := by
      rw [← Text.lineCount_eq_zero, Text.lineCount_dropLines, Nat.sub_self]
    have hkeys := hspent fun j hj => Machine.unfinished_of_le hcut hj.le
    rw [hempty] at hkeys
    obtain ⟨more, rfl⟩ := Nat.exists_eq_add_of_lt hbound
    have hstepped : stepped = Mode.stepped.run (more + 1)
        (Mode.stepped.run keys.lineCount w).machine := Machine.runBy_resume hcut' (more + 1)
    obtain ⟨hending, hlast⟩ := hmatch'.stepped_closed hp (hm.of_steps hp hsteps)
      (Machine.cut_running hcut) hkeys more
    rw [hstepped]
    exact ⟨hending, _, hsteps, hlast.output⟩

theorem stepped_run_takes_line_per_step_to_abort :
    let m := Machine.start [6, 10, 1, 255] (.ofInput (.ofText [] false))
    let stepped (keys : String) := (Mode.ofFlags true true).run 5 (Machine.start [6, 10, 1, 255]
      { Terminal.ofInput (.ofText [] false) with keys := some (.ofText keys.toList false) })
    (∀ k u, m.steps k = .next u → u.Legible) ∧ m.EndsAfter 3 ∧
    (stepped "x\n\ny\nz").ending = .aborted .tapeUnderflow ∧
    (stepped "x\n\ny\nz").machine.terminal.output = "1\n".toList ∧
    (stepped "x\n\ny\nz").machine.terminal.keys = some (.ofText ['z'] false) ∧
    (m.run 2).ending = .unfinished ∧
    (stepped "x\ny").ending = .failed .promptClosed ∧
    (stepped "x\ny").machine.terminal.output = "1\n".toList := by
  have hload : (Source.Listing.ofText "MoO OOM mOo".toList).program = .ok [6, 10, 1, 255] := by cbv
  have hlegible : ∀ k u, (Machine.start [6, 10, 1, 255] (.ofInput (.ofText [] false))).steps k =
      .next u → u.Legible :=
    Machine.legible_of_fail (n := 3) rfl (by decide)
  have hends : (Machine.start [6, 10, 1, 255] (.ofInput (.ofText [] false))).EndsAfter 3 :=
    ⟨by decide, by decide⟩
  have hcut : ((Machine.start [6, 10, 1, 255] (.ofInput (.ofText [] false))).run
      (Text.lineCount "x\ny".toList)).ending = .unfinished := by decide
  obtain ⟨hending, houtput, -, hkeys, -⟩ := (stepped_run_takes_line_per_step hload (by decide)
    (.ofText [] false) "x\n\ny\nz".toList 5 hlegible).1 3 hends (by decide) (by decide)
  obtain ⟨hclosed, u, hsteps, hshort⟩ := (stepped_run_takes_line_per_step hload (by decide)
    (.ofText [] false) "x\ny".toList 5 hlegible).2 hcut (by decide)
  refine ⟨hlegible, hends, ?_, ?_, hkeys, hcut, hclosed, ?_⟩
  · rw [hending]
    decide
  · rw [houtput]
    decide
  · rw [hshort, ← Machine.after_eq_of_steps hsteps]
    decide

end CowMachine
