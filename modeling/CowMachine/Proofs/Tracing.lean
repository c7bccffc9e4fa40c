import CowMachine.Proofs.Watching

/-!
# Traced runs

A traced run announces each instruction and shows the state after it. It is the
plain run, with what it shows added to the transcript: one announcement for
each step that is begun, and behind it the report of the state unless the step
failed. Where a number cannot be shown the traced run breaks off, so a traced
run that has a result has that of the plain run.
-/

set_option autoImplicit false

namespace CowMachine

def Ending.IsResult : Ending → Prop
  | .halted => True
  | .aborted _ => True
  | .failed _ => False
  | .unfinished => False

def announcement (code : Int) : Text := "Executing: ".toList ++ codeName code

namespace Machine

/-- The lines that go with a run to its end: for each step its announcement,
and the state that the step leaves unless it fails. -/
inductive Narrated : Machine → List Text → Prop
  | halted {m : Machine} (hrun : m.halted = true) : Narrated m []
  | failed {m m' : Machine} {code : Int} {fault : Fault} (hrun : m.halted = false)
      (hcode : m.current? = some code) (hstep : m.step = .fail fault m') :
      Narrated m [announcement code]
  | next {m m' : Machine} {code : Int} {state rest : List Text} (hrun : m.halted = false)
      (hcode : m.current? = some code) (hstep : m.step = .next m')
      (hstate : Report.state m' = .ok state) (hrest : Narrated m' rest) :
      Narrated m (announcement code :: state ++ rest)

variable {p : Program} {w m : Machine}

theorem announce_eq {code : Int} (hcode : m.current? = some code) :
    m.announce = .next (m.display (Text.unlines [announcement code])) := by
  have hfetch : m.program.fetch? m.pc = some code := hcode
  rw [announce, Report.codeAt, hfetch]
  rfl

theorem Matches.traced (h : w.Matches m) (hp : p.Closed) (hm : m.Safe p) {code : Int}
    (hcode : m.current? = some code) :
    Watched (w.display (Text.unlines [announcement code])) m (Mode.traced.cycle w) := by
  have hannounced : (w.display (Text.unlines [announcement code])).Matches m := h
  rw [Mode.cycle, announce_eq (h.current?.trans hcode)]
  exact hannounced.watched hp hm

theorem Matches.traced_halted (h : w.Matches m) (hrun : m.halted = true) (n : Nat) :
    (Mode.traced.run n w).atTerminal .quiet = (m.run n).atTerminal .quiet ∧
      ∃ lines, m.Narrated lines ∧
        (Mode.traced.run n w).machine.terminal.screen = w.terminal.screen ++ Text.unlines lines := by
  rw [Mode.run, run, runBy_halted hrun, runBy_halted (h.halted.trans hrun)]
  exact ⟨h.finish, [], .halted hrun, (List.append_nil _).symm⟩

theorem Matches.traced_run (h : w.Matches m) (hp : p.Closed) (hm : m.Safe p) (n : Nat) :
    (Mode.traced.run n w).atTerminal .quiet = (m.run n).atTerminal .quiet ∧
      ((m.run n).ending ≠ .unfinished → ∃ lines, m.Narrated lines ∧
        (Mode.traced.run n w).machine.terminal.screen =
          w.terminal.screen ++ Text.unlines lines) ∨
    (Mode.traced.run n w).ending = .failed .numberTooLong ∧
      ∃ k u, m.steps k = .next u ∧ u.Safe p ∧ ¬(u.Legible ∧ Text.Printable u.pc) := by
  induction n generalizing w m with
  | zero =>
    cases hrun : m.halted with
    | true =>
      obtain ⟨hsame, hlines⟩ := h.traced_halted hrun 0
      exact .inl ⟨hsame, fun _ => hlines⟩
    | false =>
      rw [Mode.run, run, runBy_zero hrun, runBy_zero (h.halted.trans hrun)]
      exact .inl ⟨congrArg (Run.mk .unfinished) h, fun hended => absurd rfl hended⟩
  | succ n ih =>
    cases hrun : m.halted with
    | true =>
      obtain ⟨hsame, hlines⟩ := h.traced_halted hrun (n + 1)
      exact .inl ⟨hsame, fun _ => hlines⟩
    | false =>
      have hrun' := h.halted.trans hrun
      obtain ⟨code, hcode, -⟩ := hm.current hp
      have hwatched := h.traced hp hm hcode
      have hsafe := hm.step hp
      generalize hcycle : Mode.traced.cycle w = o at hwatched
      cases hwatched with
      | failed hstep h' hprints =>
        rw [Mode.run, run, runBy_fail hrun hstep, runBy_fail hrun' hcycle]
        refine .inl ⟨h'.breakOff _, fun _ => ⟨_, .failed hrun hcode hstep, ?_⟩⟩
        rw [(breakOff_prints _ _).screen_eq, hprints.screen_eq, screen_display]
      | hidden hstep hlong =>
        rw [hstep] at hsafe
        rw [Mode.run, runBy_fail hrun' hcycle]
        exact .inr ⟨rfl, 1, _, steps_one m ▸ hstep, hsafe, hlong⟩
      | @shown state w' m' hstep hstate h' hscreen hkeys =>
        rw [hstep] at hsafe
        rw [Mode.run, run, runBy_next hrun hstep, runBy_next hrun' hcycle]
        rcases ih h' hsafe with ⟨hsame, hlines⟩ | ⟨hfailed, k, u, hsteps, hbad⟩
        · refine .inl ⟨hsame, fun hended => ?_⟩
          obtain ⟨rest, hrest, hshown⟩ := hlines hended
          refine ⟨_, .next hrun hcode hstep hstate hrest, ?_⟩
          rw [Mode.run] at hshown
          rw [hshown, hscreen, screen_display]
          simp only [Text.unlines, List.flatMap_append, List.flatMap_cons, List.flatMap_nil,
            List.append_nil, List.append_assoc, List.cons_append]
        · exact .inr ⟨hfailed, k + 1, u, (steps_succ hstep k).trans hsteps, hbad⟩

end Machine

/-- A plain run that ends, through states whose numbers have text and in a
program whose length has, is traced to the same end with the same output, and
what is shown is its narration. A traced run with a result has that of the plain
run, whatever the numbers. -/
theorem traced_run_is_plain_run {t : Text} {p : Program}
    (hload : (Source.Listing.ofText t).program = .ok p) (input : Input) (n : Nat) :
    let m := Machine.start p (.ofInput input)
    let plain := (Mode.ofFlags false false).run n m
    let traced := (Mode.ofFlags true false).run n m
    (plain.ending ≠ .unfinished → Text.Printable p.length →
      (∀ k u, m.steps k = .next u → u.Legible) →
      traced.ending = plain.ending ∧
      traced.machine.terminal.output = plain.machine.terminal.output ∧
      traced.atTerminal .quiet = plain ∧
      ∃ lines, m.Narrated lines ∧ traced.machine.terminal.screen = Text.unlines lines) ∧
    (traced.ending.IsResult →
      plain.ending = traced.ending ∧
      plain.machine.terminal.output = traced.machine.terminal.output ∧
      plain = traced.atTerminal .quiet) := by
  intro m plain traced
  have hp := Source.Listing.closed_of_program hload
  have hm : m.Safe p := Machine.start_safe hp _
  have hmatch : m.Matches m := rfl
  rcases hmatch.traced_run hp hm n with ⟨hsame, hlines⟩ | ⟨hfailed, k, u, hsteps, hu, hlong⟩
  · have hquiet : traced.atTerminal .quiet = plain := hsame.trans (Machine.run_quiet rfl n)
    obtain ⟨hending, houtput⟩ := Run.ending_output_of_quiet hquiet
    constructor
    · intro hended _ _
      exact ⟨hending, houtput, hquiet, hlines hended⟩
    · intro _
      exact ⟨hending.symm, houtput.symm, hquiet.symm⟩
  · have hfailed' : traced.ending = .failed .numberTooLong := hfailed
    constructor
    · intro _ hsize hlegible
      exact absurd ⟨hlegible k u hsteps, hu.printable_pc hsize⟩ hlong
    · intro hresult
      rw [hfailed'] at hresult
      exact hresult.elim

theorem traced_run_is_plain_run_to_abort :
    let m := Machine.start [6, 10, 1, 255] (.ofInput (.ofText [] false))
    let traced := (Mode.ofFlags true false).run 3 m
    (∀ k u, m.steps k = .next u → u.Legible) ∧
    traced.ending = .aborted .tapeUnderflow ∧
    (∃ lines, m.Narrated lines ∧ traced.machine.terminal.screen = Text.unlines lines) ∧
    traced.ending.IsResult ∧ (m.run 3).ending = traced.ending ∧
    traced.machine.terminal.output = "1\n".toList ∧
    Text.unlines ["Executing: MoO".toList, "MEM===============".toList, "0:  1".toList,
      "==================".toList, "Register: ".toList, "Current memory value: 1".toList,
      "Program pointer: 1".toList, "Memory pointer: 0".toList, "Last instruction: MoO".toList,
      "Next instruction: OOM".toList, [], [], "Executing: OOM".toList] <+:
      traced.machine.terminal.screen := by
  have hload : (Source.Listing.ofText "MoO OOM mOo".toList).program = .ok [6, 10, 1, 255] := by cbv
  have hlegible : ∀ k u, (Machine.start [6, 10, 1, 255] (.ofInput (.ofText [] false))).steps k =
      .next u → u.Legible :=
    Machine.legible_of_fail (n := 3) rfl (by decide)
  obtain ⟨htraced, hback⟩ := traced_run_is_plain_run hload (.ofText [] false) 3
  obtain ⟨hending, -, -, hlines⟩ := htraced (by decide) (by decide) hlegible
  have hresult : ((Mode.ofFlags true false).run 3
      (Machine.start [6, 10, 1, 255] (.ofInput (.ofText [] false)))).ending.IsResult := by
    rw [hending]
    trivial
  refine ⟨hlegible, ?_, hlines, hresult, (hback hresult).1, by decide, by decide⟩
  rw [hending]
  decide

end CowMachine
