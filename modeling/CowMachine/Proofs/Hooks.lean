import CowMachine.Proofs.Resumption

/-!
# Runs with hooks

The loop behind every run: as long as the machine has not halted, a hook is
called, a step is made and another hook is called. Hooks keep a record of their
own, may act on the machine and may raise a fault of it, or refuse to go on. An
abort raised anywhere in the loop is caught, noted with a summary of the machine and
made the result. Everything else that is raised leaves the loop.

A bound on the steps is a hook that refuses to go on, and a trace is what a hook
has kept. So `run` and `trace` are what the loop gives with both, and a debugging
session is the loop with its own hooks.
-/

set_option autoImplicit false

namespace CowMachine

/-- What leaves a piece of work before its end. Fuel is spent by the loop alone. -/
inductive Raised where
  | fault (fault : Fault)
  | refusal
  | fuelSpent
  deriving DecidableEq, Repr

/-- Work on a machine with a record beside it. What is raised leaves both as they
are. -/
abbrev Hooked (σ : Type) := EStateM Raised (σ × Machine)

structure Hooks (σ : Type) where
  before : Hooked σ Unit
  after : Hooked σ Unit

namespace Hooks

variable {σ : Type}

def doing (act : Machine → Outcome) : Hooked σ Unit := fun (s, m) =>
  match act m with
  | .next m => .ok () (s, m)
  | .fail fault m => .error (.fault fault) (s, m)

def noting (level : Level) (message : Text) : Hooked σ Unit :=
  modify fun (s, m) => (s, m.note level message)

def turn (h : Hooks σ) : Hooked σ Unit := do
  h.before
  doing Machine.step
  h.after

def loop (h : Hooks σ) : Nat → Hooked σ Unit
  | 0 => do
    unless (← get).2.halted do throw .fuelSpent
  | fuel + 1 => do
    unless (← get).2.halted do
      h.turn
      h.loop fuel

def run (h : Hooks σ) (fuel : Nat) : Hooked σ Ending :=
  tryCatch
    (do
      h.loop fuel
      noting .info "Execution halted gracefully".toList
      pure .halted)
    fun
      | .fault (.abort cause) => do
        noting .info ("Execution aborted: ".toList ++ cause.message)
        doing Machine.summarise
        pure (.aborted cause)
      | raised => throw raised

def seen : EStateM.Result Raised (σ × Machine) Ending → Option (σ × Run)
  | .ok ending (s, m) => some (s, ⟨ending, m⟩)
  | .error (.fault fault) (s, m) => some (s, ⟨.failed fault, m⟩)
  | .error .refusal (s, m) => some (s, ⟨.unfinished, m⟩)
  | .error .fuelSpent _ => none

def seenLoop : EStateM.Result Raised (σ × Machine) Unit → Option (σ × Run)
  | .ok _ (s, m) => some (s, m.finish)
  | .error (.fault fault) (s, m) => some (s, m.breakOff fault)
  | .error .refusal (s, m) => some (s, ⟨.unfinished, m⟩)
  | .error .fuelSpent _ => none

variable {act : Machine → Outcome} {s : σ} {m m' : Machine} {fault : Fault}

theorem run_doing_next (h : act m = .next m') : (doing act).run (s, m) = .ok () (s, m') := by
  rw [EStateM.run, doing, h]

theorem run_doing_fail (h : act m = .fail fault m') :
    (doing act).run (s, m) = .error (.fault fault) (s, m') := by
  rw [EStateM.run, doing, h]

theorem run_noting (level : Level) (message : Text) :
    (noting level message).run (s, m) = .ok () (s, m.note level message) := rfl

theorem run_tryCatch {α : Type} (x : Hooked σ α) (handle : Raised → Hooked σ α)
    (w : σ × Machine) :
    (tryCatch x handle).run w =
      match x.run w with
      | .error raised w => (handle raised).run w
      | ok => ok := by
  change EStateM.tryCatch x handle w = _
  delta EStateM.tryCatch
  cases h : x w with
  | ok a w' => simp only [EStateM.run, h]
  | error raised w' =>
    simp only [EStateM.run, h]
    rfl

theorem seen_run (h : Hooks σ) (fuel : Nat) (w : σ × Machine) :
    seen ((h.run fuel).run w) = seenLoop ((h.loop fuel).run w) := by
  rw [run, run_tryCatch, EStateM.run_bind]
  rcases (h.loop fuel).run w with ⟨_, s, m⟩ | ⟨raised, s, m⟩
  · rfl
  · cases raised with
    | refusal | fuelSpent => rfl
    | fault fault =>
      cases fault with
      | abort cause =>
        simp only [seenLoop, Machine.breakOff, EStateM.run_bind, run_noting]
        cases hsummary :
            (m.note .info ("Execution aborted: ".toList ++ cause.message)).summarise with
        | next m' =>
          rw [run_doing_next hsummary]
          rfl
        | fail fault m' =>
          rw [run_doing_fail hsummary]
          rfl
      | _ => rfl

theorem loop_halted (h : Hooks σ) (hrun : m.halted = true) (fuel : Nat) :
    (h.loop fuel).run (s, m) = .ok () (s, m) := by
  cases fuel with
  | zero => simp [loop, hrun]
  | succ fuel => simp [loop, hrun]

theorem loop_zero (h : Hooks σ) (hrun : m.halted = false) :
    (h.loop 0).run (s, m) = .error .fuelSpent (s, m) := by
  simp [loop, hrun]

theorem loop_succ (h : Hooks σ) (hrun : m.halted = false) (fuel : Nat) :
    (h.loop (fuel + 1)).run (s, m) = (h.turn >>= fun _ => h.loop fuel).run (s, m) := by
  simp [loop, hrun]

/-! ## The bound and the trace -/

structure Record where
  begun : Nat
  places : List Int
  deriving DecidableEq, Repr

/-- Refuses to begin more steps than the bound, and writes down the program pointer
before each step and after it. -/
def recording (bound : Nat) : Hooks Record where
  before := do
    let (r, m) ← get
    if r.begun = bound then throw .refusal
    set (Record.mk (r.begun + 1) (r.places ++ [m.pc]), m)
  after := modify fun (r, m) => ({ r with places := r.places ++ [m.pc] }, m)

variable {r : Record} {bound : Nat}

theorem before_recording (h : r.begun ≠ bound) :
    (recording bound).before.run (r, m) = .ok () (⟨r.begun + 1, r.places ++ [m.pc]⟩, m) := by
  simp [recording, h]

theorem recording_refuses (r : Record) (m : Machine) :
    (recording r.begun).turn.run (r, m) = .error .refusal (r, m) := by
  simp [turn, recording]

theorem recording_next (h : r.begun ≠ bound) (hstep : m.step = .next m') :
    (recording bound).turn.run (r, m) =
      .ok () (⟨r.begun + 1, r.places ++ [m.pc, m'.pc]⟩, m') := by
  rw [turn, EStateM.run_bind, before_recording h]
  simp [run_doing_next hstep, recording]

theorem recording_fail (h : r.begun ≠ bound) (hstep : m.step = .fail fault m') :
    (recording bound).turn.run (r, m) =
      .error (.fault fault) (⟨r.begun + 1, r.places ++ [m.pc]⟩, m') := by
  rw [turn, EStateM.run_bind, before_recording h]
  simp [run_doing_fail hstep]

theorem recording_halted (hrun : m.halted = true) (r : Record) (bound n fuel : Nat) :
    seenLoop (((recording bound).loop fuel).run (r, m)) =
      some (⟨r.begun, r.places ++ m.trace n⟩, m.run n) := by
  rw [loop_halted _ hrun, Machine.trace_halted hrun, Machine.run, Machine.runBy_halted hrun,
    List.append_nil]
  rfl

theorem recording_loop (r : Record) (m : Machine) {n fuel : Nat} (hfuel : n < fuel) :
    ∃ begun, begun ≤ r.begun + n ∧
      seenLoop (((recording (r.begun + n)).loop fuel).run (r, m)) =
        some (⟨begun, r.places ++ m.trace n⟩, m.run n) := by
  induction n generalizing r m fuel with
  | zero =>
    refine ⟨r.begun, Nat.le_refl _, ?_⟩
    cases hrun : m.halted with
    | true => exact recording_halted hrun r _ 0 fuel
    | false =>
      obtain ⟨fuel, rfl⟩ := Nat.exists_eq_succ_of_ne_zero (Nat.ne_zero_of_lt hfuel)
      rw [Nat.add_zero, loop_succ _ hrun, EStateM.run_bind, recording_refuses, Machine.run,
        Machine.runBy_zero hrun, Machine.trace, List.append_nil]
      rfl
  | succ n ih =>
    cases hrun : m.halted with
    | true => exact ⟨r.begun, Nat.le_add_right _ _, recording_halted hrun r _ (n + 1) fuel⟩
    | false =>
      obtain ⟨fuel, rfl⟩ := Nat.exists_eq_succ_of_ne_zero (Nat.ne_zero_of_lt hfuel)
      have hleft : r.begun ≠ r.begun + (n + 1) := by omega
      rw [loop_succ _ hrun, EStateM.run_bind, Machine.run]
      cases hstep : m.step with
      | fail fault m' =>
        refine ⟨r.begun + 1, by omega, ?_⟩
        rw [recording_fail hleft hstep, Machine.trace_fail hrun hstep,
          Machine.runBy_fail hrun hstep]
        rfl
      | next m' =>
        obtain ⟨begun, hbegun, hloop⟩ :=
          ih ⟨r.begun + 1, r.places ++ [m.pc, m'.pc]⟩ m' (Nat.lt_of_succ_lt_succ hfuel)
        dsimp only at hbegun hloop
        rw [Nat.add_right_comm, Nat.add_assoc] at hbegun hloop
        rw [List.append_assoc] at hloop
        refine ⟨begun, hbegun, ?_⟩
        rw [recording_next hleft hstep, Machine.trace_next hrun hstep,
          Machine.runBy_next hrun hstep]
        exact hloop

end Hooks

open Hooks in
/-- A run with a bound and its trace are what the loop gives with a hook that counts
and records, whatever fuel beyond the bound it has. -/
theorem Machine.run_and_trace_of_hooks (m : Machine) {bound fuel : Nat} (h : bound < fuel) :
    ∃ begun, begun ≤ bound ∧
      seen (((recording bound).run fuel).run (⟨0, []⟩, m)) =
        some (⟨begun, m.trace bound⟩, m.run bound) := by
  obtain ⟨begun, hbegun, hloop⟩ := recording_loop ⟨0, []⟩ m h
  rw [Nat.zero_add] at hbegun hloop
  exact ⟨begun, hbegun, (seen_run _ fuel _).trans hloop⟩

namespace Mode

open Hooks

def hooks : Mode → Hooks Unit
  | .plain => ⟨pure (), pure ()⟩
  | .traced => ⟨doing Machine.announce, doing Machine.displayState⟩
  | .stepped => ⟨doing Machine.prompt, doing Machine.displayState⟩

theorem doing_andThen (f g : Machine → Outcome) :
    (doing fun m => (f m).andThen g : Hooked Unit Unit) = doing f >>= fun _ => doing g := by
  funext w
  change _ = EStateM.bind (doing f) (fun _ => doing g) w
  rw [EStateM.bind, doing, doing]
  cases f w.2 <;> rfl

theorem turn_hooks (mode : Mode) : mode.hooks.turn = doing mode.cycle := by
  cases mode with
  | plain =>
    simp only [hooks, turn, pure_bind, bind_pure_unit]
    rfl
  | traced =>
    change _ = doing fun m => (m.announce.andThen Machine.step).andThen Machine.displayState
    rw [doing_andThen, doing_andThen, bind_assoc]
    rfl
  | stepped =>
    change _ = doing fun m => (m.prompt.andThen Machine.step).andThen Machine.displayState
    rw [doing_andThen, doing_andThen, bind_assoc]
    rfl

theorem loop_hooks_halted (mode : Mode) {m : Machine} (hrun : m.halted = true) (bound : Nat) :
    seenLoop ((mode.hooks.loop bound).run ((), m)) =
      if (m.runBy mode.cycle bound).ending = .unfinished then none
      else some ((), m.runBy mode.cycle bound) := by
  have hended : m.finish.ending ≠ .unfinished := Ending.noConfusion
  rw [loop_halted _ hrun, Machine.runBy_halted hrun, if_neg hended]
  rfl

/-- A session is the loop with the hooks of its mode; a session that is cut off has
spent its fuel. -/
theorem run_eq_hooked (mode : Mode) (bound : Nat) (m : Machine) :
    seen ((mode.hooks.run bound).run ((), m)) =
      if (mode.run bound m).ending = .unfinished then none else some ((), mode.run bound m) := by
  rw [seen_run, Mode.run]
  induction bound generalizing m with
  | zero =>
    cases hrun : m.halted with
    | true => exact mode.loop_hooks_halted hrun 0
    | false =>
      rw [loop_zero _ hrun, Machine.runBy_zero hrun, if_pos rfl]
      rfl
  | succ bound ih =>
    cases hrun : m.halted with
    | true => exact mode.loop_hooks_halted hrun (bound + 1)
    | false =>
      rw [loop_succ _ hrun, EStateM.run_bind, turn_hooks]
      cases hcycle : mode.cycle m with
      | next m' =>
        rw [run_doing_next hcycle, Machine.runBy_next hrun hcycle]
        exact ih m'
      | fail fault m' =>
        rw [run_doing_fail hcycle, Machine.runBy_fail hrun hcycle,
          if_neg (m'.breakOff_ends fault).1]
        rfl

end Mode

end CowMachine
