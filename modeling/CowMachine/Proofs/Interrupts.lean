import CowMachine.Proofs.Exits
import CowMachine.Proofs.Footprint
import CowMachine.Proofs.Stepping
import CowMachine.Proofs.Tracing
import CowMachine.Proofs.UnreadInput

/-!
# Interrupts

An interrupt from the keyboard is met by a read that comes to the end of the
input. An instruction that reads there passes it on, and the command ends as one
that its user has halted. The prompt of a stepped run reads there too, but it
closes, as it does when there is nothing left to read: the command cannot tell
the two and ends as one that has failed.
-/

set_option autoImplicit false

namespace CowMachine

namespace Input

variable {i : Input}

theorem skipLine_closed (h : '\n' ∈ i.rest) :
    i.skipLine = .ok { i with rest := i.rest.dropLine } := by
  obtain ⟨line, rest, hrest, hline⟩ := List.eq_append_cons_of_mem h
  rw [skipLine, Text.dropLine, hrest, Text.dropWhile_closed hline]
  rfl

theorem skipLine_interrupted (h : '\n' ∉ i.rest) (hend : i.ending = .interrupt) :
    i.skipLine = .error .promptClosed := by
  rw [skipLine, Text.dropWhile_unclosed h, hend]

end Input

theorem Terminal.awaitReturn_input {t : Terminal} (h : t.keys = none) :
    t.awaitReturn = t.input.skipLine.map fun input => { t with input } := by
  rw [awaitReturn, h]

namespace Machine

variable {p : Program} {m u : Machine} {code : Int}

theorem step_ending (m : Machine) :
    m.step.machine.terminal.input.ending = m.terminal.input.ending := by
  cases hstep : m.step with
  | fail fault u =>
    rcases step_fail_kept hstep with rfl | ⟨-, rfl⟩
    · rfl
    · obtain ⟨rest, hrest, -⟩ := m.readNumber_rest
      rw [hrest]
      rfl
  | next u =>
    cases hrun : m.halted with
    | true =>
      rw [step_halted hrun] at hstep
      obtain rfl := Outcome.next.inj hstep
      rfl
    | false =>
      cases hcode : m.current? with
      | none =>
        rw [step_outside hrun hcode] at hstep
        cases hstep
      | some code =>
        rw [step_running hrun hcode] at hstep
        rcases dispatch_cases hstep with ⟨i, action, -, hact, -⟩ | ⟨-, journal, rfl⟩
        · exact (Control.obey_touched hact).ending
        · rfl

theorem awaitReturn_display (hkeys : m.terminal.keys = none) (content : Text) :
    (m.display content).terminal.awaitReturn =
      m.terminal.input.skipLine.map fun input => { (m.display content).terminal with input } :=
  Terminal.awaitReturn_input hkeys

theorem prompt_of_line (hcode : m.current? = some code) (hkeys : m.terminal.keys = none)
    (hline : '\n' ∈ m.terminal.input.rest) :
    m.prompt = .next ((m.withRest m.terminal.input.rest.dropLine).display
      (m.promptText (codeName code))) := by
  have hfetch : m.program.fetch? m.pc = some code := hcode
  rw [prompt, Report.codeAt, hfetch]
  simp only [awaitReturn_display hkeys, Input.skipLine_closed hline]
  rfl

theorem prompt_of_interrupt (hcode : m.current? = some code) (hkeys : m.terminal.keys = none)
    (hend : m.terminal.input.ending = .interrupt) (hline : '\n' ∉ m.terminal.input.rest) :
    m.prompt = .fail .promptClosed (m.display (m.promptText (codeName code))) := by
  have hfetch : m.program.fetch? m.pc = some code := hcode
  rw [prompt, Report.codeAt, hfetch]
  simp only [awaitReturn_display hkeys, Input.skipLine_interrupted hline hend, Except.map]

structure Interruptible (p : Program) (m : Machine) : Prop where
  safe : m.Safe p
  keys : m.terminal.keys = none
  ending : m.terminal.input.ending = .interrupt

namespace Interruptible

theorem step (hp : p.Closed) (hm : m.Interruptible p) : m.step.machine.Interruptible p :=
  ⟨hm.safe.step hp, m.step_prints.keys.trans hm.keys, m.step_ending.trans hm.ending⟩

theorem display (hm : m.Interruptible p) (content : Text) : (m.display content).Interruptible p :=
  ⟨⟨hm.safe.program, hm.safe.inside, hm.safe.stopped⟩, hm.keys, hm.ending⟩

theorem withRest (hm : m.Interruptible p) (rest : Text) : (m.withRest rest).Interruptible p :=
  ⟨⟨hm.safe.program, hm.safe.inside, hm.safe.stopped⟩, hm.keys, hm.ending⟩

theorem displayState (hm : m.Interruptible p) : m.displayState.machine.Interruptible p := by
  rw [Machine.displayState]
  cases Report.state m with
  | ok lines => exact hm.display _
  | error fault => exact hm

end Interruptible

theorem journal_of_step_fail {fault : Fault} (h : m.step = .fail fault u) :
    u.journal = m.journal := by
  rcases step_fail_kept h with rfl | ⟨-, rfl⟩ <;> rfl

theorem displayState_ne_interrupted (hm : m.Safe p) : m.displayState ≠ .fail .interrupted u := by
  rw [displayState]
  by_cases h : m.Legible ∧ Text.Printable m.pc
  · obtain ⟨lines, hlines⟩ := (Report.state_written hm).1 h
    rw [hlines]
    intro hfail
    cases hfail
  · rw [(Report.state_written hm).2 h]
    intro hfail
    cases hfail

theorem cause_of_breakOff_interrupted (hm : m.Safe p) {fault : Fault}
    (h : (m.breakOff fault).ending = .failed .interrupted) : fault = .interrupted := by
  cases fault with
  | abort cause =>
    by_cases hprint : m.Printable
    · obtain ⟨journal, hbreak⟩ := breakOff_of_printable hm hprint cause
      rw [hbreak] at h
      cases h
    · obtain ⟨journal, hbreak⟩ := breakOff_of_not_printable hm hprint cause
      rw [hbreak] at h
      cases h
  | _ => exact Ending.failed.inj h

end Machine

namespace Mode

variable {p : Program} {mode : Mode} {m u : Machine}

def begun (mode : Mode) (m : Machine) : Machine :=
  match mode with
  | .plain => m
  | .traced => m
  | .stepped => m.withRest m.terminal.input.rest.dropLine

/-- The prompt of the next cycle reads at the end of the input, since nothing
closes its line. -/
def PromptReadsEnd (mode : Mode) (m : Machine) : Prop :=
  mode = .stepped ∧ '\n' ∉ m.terminal.input.rest

/-- The instruction of the next cycle reads at the end of the input. -/
def InstructionReadsEnd (mode : Mode) (m : Machine) : Prop :=
  ¬mode.PromptReadsEnd m ∧ (mode.begun m).ReadsEnd

instance (mode : Mode) (m : Machine) : Decidable (mode.PromptReadsEnd m) :=
  inferInstanceAs (Decidable (_ ∧ _))

instance (mode : Mode) (m : Machine) : Decidable (mode.InstructionReadsEnd m) :=
  inferInstanceAs (Decidable (_ ∧ _))

theorem cycle_cases (hp : p.Closed) (hm : m.Interruptible p) (h : ¬mode.PromptReadsEnd m) :
    ∃ v : Machine, v.Interruptible p ∧ v.journal = m.journal ∧
      (v.ReadsEnd ↔ (mode.begun m).ReadsEnd) ∧
        (mode.cycle m = v.step ∨ mode.cycle m = v.step.andThen Machine.displayState) := by
  obtain ⟨code, hcode, -⟩ := hm.safe.current hp
  cases mode with
  | plain => exact ⟨m, hm, rfl, Iff.rfl, .inl rfl⟩
  | traced =>
    refine ⟨m.display (Text.unlines [announcement code]), hm.display _, rfl, Iff.rfl, .inr ?_⟩
    rw [cycle, Machine.announce_eq hcode]
    rfl
  | stepped =>
    have hline : '\n' ∈ m.terminal.input.rest := by
      by_contra hnone
      exact h ⟨rfl, hnone⟩
    refine ⟨(m.withRest m.terminal.input.rest.dropLine).display (m.promptText (codeName code)),
      (hm.withRest _).display _, rfl, Iff.rfl, .inr ?_⟩
    rw [cycle, Machine.prompt_of_line hcode hm.keys hline]
    rfl

theorem cycle_of_promptReadsEnd (hp : p.Closed) (hm : m.Interruptible p)
    (h : mode.PromptReadsEnd m) :
    ∃ content, mode.cycle m = .fail .promptClosed (m.display content) := by
  obtain ⟨rfl, hline⟩ := h
  obtain ⟨code, hcode, -⟩ := hm.safe.current hp
  refine ⟨m.promptText (codeName code), ?_⟩
  rw [cycle, Machine.prompt_of_interrupt hcode hm.keys hm.ending hline]
  rfl

theorem cycle_interruptible (hp : p.Closed) (mode : Mode) (m : Machine) (hm : m.Interruptible p) :
    (mode.cycle m).machine.Interruptible p := by
  by_cases hprompt : mode.PromptReadsEnd m
  · obtain ⟨content, hcycle⟩ := cycle_of_promptReadsEnd hp hm hprompt
    rw [hcycle]
    exact hm.display content
  · obtain ⟨v, hv, -, -, hcycle | hcycle⟩ := cycle_cases hp hm hprompt
    · rw [hcycle]
      exact hv.step hp
    · have hstepped := hv.step hp
      rw [hcycle]
      cases hstep : v.step with
      | next v' =>
        rw [hstep] at hstepped
        exact hstepped.displayState
      | fail fault v' =>
        rw [hstep] at hstepped
        exact hstepped

theorem cycle_of_instructionReadsEnd (hp : p.Closed) (hm : m.Interruptible p)
    (h : mode.InstructionReadsEnd m) :
    ∃ u, mode.cycle m = .fail .interrupted u ∧ u.journal = m.journal := by
  obtain ⟨v, hv, hjournal, hreads, hcycle⟩ := cycle_cases hp hm h.1
  obtain ⟨u, hstep⟩ := (Machine.step_interrupted_iff hv.ending).2 (hreads.2 h.2)
  refine ⟨u, ?_, (Machine.journal_of_step_fail hstep).trans hjournal⟩
  rcases hcycle with hcycle | hcycle
  · exact hcycle.trans hstep
  · rw [hcycle, hstep]
    rfl

theorem instructionReadsEnd_of_cycle (hp : p.Closed) (hm : m.Interruptible p)
    (h : mode.cycle m = .fail .interrupted u) : mode.InstructionReadsEnd m := by
  have hprompt : ¬mode.PromptReadsEnd m := by
    intro hprompt
    obtain ⟨content, hcycle⟩ := cycle_of_promptReadsEnd hp hm hprompt
    rw [hcycle] at h
    cases h
  obtain ⟨v, hv, -, hreads, hcycle⟩ := cycle_cases hp hm hprompt
  have hstep : v.step = .fail .interrupted u := by
    rcases hcycle with hcycle | hcycle
    · exact hcycle.symm.trans h
    · have hstepped := hv.step hp
      rw [hcycle] at h
      cases hstep : v.step with
      | next v' =>
        rw [hstep] at h hstepped
        exact absurd h (Machine.displayState_ne_interrupted hstepped.safe)
      | fail fault v' => rwa [hstep] at h
  exact ⟨hprompt, hreads.1 ((Machine.step_interrupted_iff hv.ending).1 ⟨u, hstep⟩)⟩

end Mode

namespace CommandLine

open Source (Path FileError Listing)

variable {arguments : List Text} {options : Options} {source : Text}
  {contents : Path → Except FileError (List UInt8)} {bytes : List UInt8} {p : Program}

theorem journalText_info {note : Note} (h : note.level = .info) (verbose : Bool) (j : Journal) :
    journalText verbose (j ++ [note]) = journalText verbose j ++ (noteText note ++ ['\n']) := by
  have hkept : [note].filter (fun n => verbose || n.level != .debug) = [note] := by
    rw [List.filter_eq_self]
    intro n hn
    rw [List.mem_singleton.1 hn, h]
    cases verbose <;> rfl
  simp only [journalText, Text.unlines, List.filter_append, List.map_append,
    List.flatMap_append, hkept]
  simp only [List.map_cons, List.map_nil, List.flatMap_singleton]

theorem interrupted_of_code {verbose : Bool} {loading : Journal} {run : Run} {response : Response}
    (h : conclude verbose loading run = some response) (hcode : response.code = 3) :
    run.ending = .failed .interrupted := by
  rw [conclude] at h
  cases hending : run.ending with
  | failed fault =>
    rw [hending] at h
    obtain rfl := Option.some.inj h
    cases fault with
    | interrupted => rfl
    | _ => cases hcode
  | halted =>
    rw [hending] at h
    obtain rfl := Option.some.inj h
    cases hcode
  | aborted cause =>
    rw [hending] at h
    obtain rfl := Option.some.inj h
    cases hcode
  | unfinished =>
    rw [hending] at h
    cases h

theorem respond_of_cycle_fail {mode : Mode} {input : Input} {w u : Machine} {fault : Fault}
    {n bound : Nat} (hrequest : Request.ofArguments arguments = .ok (.run options source))
    (hfile : contents (.ofText source) = .ok bytes)
    (hload : (Listing.ofBytes bytes).program = .ok p)
    (hmode : Mode.ofFlags options.debug options.step = mode)
    (hcut : mode.run n (Machine.start p (terminalOf input)) = ⟨.unfinished, w⟩) (hn : n < bound)
    (hfail : mode.cycle w = .fail fault u) (hbreak : u.breakOff fault = ⟨.failed fault, u⟩)
    (hjournal : u.journal = w.journal) :
    respond arguments contents input bound =
      some ⟨(exitOfFault fault).2.code, u.terminal.transcript, journalText options.verbose
        ([greeting, openingNote (.ofText source)] ++ (Listing.ofBytes bytes).journal ++
          w.journal ++ [(exitOfFault fault).1])⟩ := by
  have hrun := (Machine.runBy_of_cut_fail hcut hfail hn).trans hbreak
  rw [respond_of_file hrequest hfile, runSource_of_program hload, hmode, Mode.run, hrun, ← hjournal]
  rfl

/-- The command on a source that loads, with whatever flags, and an input that ends
in an interrupt. When an instruction reads there, the command exits with 3 and
says that its user has halted it. When a prompt reads there, it exits with 100, as
after an error without a message. It exits with 3 for no other reason. -/
theorem interrupted_command_exit (input : Input)
    (hrequest : Request.ofArguments arguments = .ok (.run options source))
    (hfile : contents (.ofText source) = .ok bytes)
    (hload : (Listing.ofBytes bytes).program = .ok p) (hinput : input.ending = .interrupt)
    (bound : Nat) :
    let mode := Mode.ofFlags options.debug options.step
    let m := Machine.start p (terminalOf input)
    let loading := [greeting, openingNote (.ofText source)] ++ (Listing.ofBytes bytes).journal
    (∀ n w, n < bound → mode.run n m = ⟨.unfinished, w⟩ →
      (mode.InstructionReadsEnd w → ∃ output, respond arguments contents input bound =
        some ⟨3, output, journalText options.verbose (loading ++ w.journal) ++
          "INFO:root:Execution halted by the user\n".toList⟩) ∧
      (mode.PromptReadsEnd w → ∃ output, respond arguments contents input bound =
        some ⟨100, output, journalText options.verbose (loading ++ w.journal) ++
          "INFO:root:Execution halted on general error \n".toList⟩)) ∧
    ∀ response, respond arguments contents input bound = some response → response.code = 3 →
      ∃ n w, n < bound ∧ mode.run n m = ⟨.unfinished, w⟩ ∧ mode.InstructionReadsEnd w := by
  intro mode m loading
  have hp := Listing.closed_of_program hload
  have hm : m.Interruptible p := ⟨Machine.start_safe hp _, rfl, hinput⟩
  have hreached {n : Nat} {w : Machine} (hcut : mode.run n m = ⟨.unfinished, w⟩) :
      w.Interruptible p := Machine.runBy_invariant (Mode.cycle_interruptible hp mode) hm hcut
  have hhalted : noteText (exitOfFault .interrupted).1 ++ ['\n'] =
      "INFO:root:Execution halted by the user\n".toList := by decide
  have hfailed : noteText (exitOfFault .promptClosed).1 ++ ['\n'] =
      "INFO:root:Execution halted on general error \n".toList := by decide
  refine ⟨fun n w hn hcut => ⟨fun hreads => ?_, fun hreads => ?_⟩, fun response hends hcode => ?_⟩
  · obtain ⟨u, hfail, hjournal⟩ := Mode.cycle_of_instructionReadsEnd hp (hreached hcut) hreads
    refine ⟨u.terminal.transcript, ?_⟩
    rw [respond_of_cycle_fail hrequest hfile hload rfl hcut hn hfail rfl hjournal,
      journalText_info rfl, hhalted]
    rfl
  · obtain ⟨content, hfail⟩ := Mode.cycle_of_promptReadsEnd hp (hreached hcut) hreads
    refine ⟨(w.display content).terminal.transcript, ?_⟩
    rw [respond_of_cycle_fail hrequest hfile hload rfl hcut hn hfail rfl rfl,
      journalText_info rfl, hfailed]
    rfl
  · rw [respond_of_file hrequest hfile, runSource_of_program hload] at hends
    have hending := interrupted_of_code hends hcode
    obtain ⟨n, w, cause, u, hn, hcut, hfail, hbreak⟩ := Machine.cut_of_runBy_failed hending
    have hw := hreached hcut
    have hu := Mode.cycle_interruptible hp (Mode.ofFlags options.debug options.step) w hw
    rw [hfail] at hu
    rw [Mode.run, hbreak] at hending
    obtain rfl := Machine.cause_of_breakOff_interrupted hu.safe hending
    exact ⟨n, w, hn, hcut, Mode.instructionReadsEnd_of_cycle hp hw hfail⟩

theorem interrupted_command_exit_at_both_readers :
    let contents : Path → Except FileError (List UInt8) :=
      fun _ => .ok ("oom OOM".toList.map (.ofNat ·.toNat))
    let input (rest : Text) : Input := ⟨rest, .interrupt⟩
    let m (rest : Text) := Machine.start [11, 10, 255] (terminalOf (input rest))
    (∃ w output noted, Mode.stepped.run 0 (m "\n4".toList) = ⟨.unfinished, w⟩ ∧
      Mode.stepped.InstructionReadsEnd w ∧
      respond ["-ds".toList, "a.cow".toList] contents (input "\n4".toList) 2 =
        some ⟨3, output, noted ++ "INFO:root:Execution halted by the user\n".toList⟩) ∧
    ∃ w output noted, Mode.stepped.run 1 (m "\n4 ".toList) = ⟨.unfinished, w⟩ ∧
      Mode.stepped.PromptReadsEnd w ∧
      respond ["-ds".toList, "a.cow".toList] contents (input "\n4 ".toList) 2 =
        some ⟨100, output, noted ++ "INFO:root:Execution halted on general error \n".toList⟩ := by
  have hrequest : Request.ofArguments ["-ds".toList, "a.cow".toList] =
      .ok (.run ⟨false, true, true⟩ "a.cow".toList) := by decide
  have hsource : Source.fileText ("oom OOM".toList.map (.ofNat ·.toNat)) = "oom OOM".toList := by
    decide
  have hload : (Listing.ofText "oom OOM".toList).program = .ok [11, 10, 255] := by cbv
  rw [← hsource] at hload
  intro contents input m
  have hfile : contents (.ofText "a.cow".toList) = _ := rfl
  constructor
  · have hreads : Mode.stepped.InstructionReadsEnd (m "\n4".toList) := by decide
    have hexit := interrupted_command_exit (input "\n4".toList) hrequest hfile hload rfl 2
    obtain ⟨output, hrespond⟩ := (hexit.1 0 _ (by decide) rfl).1 hreads
    exact ⟨_, output, _, rfl, hreads, hrespond⟩
  · have hending : (Mode.stepped.run 1 (m "\n4 ".toList)).ending = .unfinished := by decide
    have hcut : Mode.stepped.run 1 (m "\n4 ".toList) =
        ⟨.unfinished, (Mode.stepped.run 1 (m "\n4 ".toList)).machine⟩ := by rw [← hending]
    have hreads : Mode.stepped.PromptReadsEnd (Mode.stepped.run 1 (m "\n4 ".toList)).machine := by
      decide
    have hexit := interrupted_command_exit (input "\n4 ".toList) hrequest hfile hload rfl 2
    obtain ⟨output, hrespond⟩ := (hexit.1 1 _ (by decide) hcut).2 hreads
    exact ⟨_, output, _, hcut, hreads, hrespond⟩

/-- The interrupt is met by the first prompt, and the exit is not 3. -/
theorem interrupted_prompt_exits_as_error :
    let contents : Path → Except FileError (List UInt8) :=
      fun _ => .ok ("MoO".toList.map (.ofNat ·.toNat))
    Mode.stepped.PromptReadsEnd (Machine.start [6, 255] (terminalOf (.ofBytes [] true))) ∧
      respond ["-ds".toList, "p.cow".toList] contents (.ofBytes [] true) 1 =
        some ⟨100, "Press [return] to execute command at pointer 0 (MoO)...".toList,
          "INFO:root:COW\nINFO:root:Execution halted on general error \n".toList⟩ := by
  have hrequest : Request.ofArguments ["-ds".toList, "p.cow".toList] =
      .ok (.run ⟨false, true, true⟩ "p.cow".toList) := by decide
  have hinput : Input.ofBytes [] true = ⟨[], .interrupt⟩ := by cbv
  have hsource : Source.fileText ("MoO".toList.map (.ofNat ·.toNat)) = "MoO".toList := by decide
  have hlisting : Listing.ofText "MoO".toList = ⟨[.increment], none⟩ := by cbv
  have hload : (Listing.ofText "MoO".toList).program = .ok [6, 255] := by
    rw [hlisting]
    rfl
  rw [← hsource] at hlisting hload
  intro contents
  rw [hinput]
  refine ⟨by decide, ?_⟩
  rw [respond_of_file hrequest rfl, runSource_of_program hload, Listing.ofBytes, hlisting]
  decide

end CommandLine

end CowMachine
