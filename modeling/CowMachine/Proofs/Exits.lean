import CowMachine.CommandLine.Response
import CowMachine.Proofs.Aborts
import CowMachine.Proofs.Grammar

/-!
# How the command exits

Without debugging the command loads its source and runs it. A source outside
the grammar is refused before anything is run or read. A program that was loaded
halts or is aborted, where its numbers have text and its characters can be
printed: no other exit is left, and the last step tells which of the two it is.
The output is what the steps printed.
-/

set_option autoImplicit false

namespace CowMachine

theorem Input.ending_ofBytes {bytes : List UInt8} (h : (Utf8.decode bytes).ending = .whole) :
    (Input.ofBytes bytes false).ending = .finished := by
  simp only [ofBytes, h]

namespace CommandLine

open Source (Path FileError Listing Spells fileText)

variable {arguments : List Text} {options : Options} {source : Text}
  {contents : Path → Except FileError (List UInt8)} {bytes : List UInt8} {response : Response}

theorem conclude_eq_some {verbose : Bool} {loading : Journal} {run : Run}
    (h : conclude verbose loading run = some response) :
    run.ending ≠ .unfinished ∧ response.output = run.machine.terminal.transcript ∧
      response.code ≠ 1 ∧ (run.ending = .halted → response.code = 0) ∧
        ∀ cause, run.ending = .aborted cause → response.code = 2 := by
  rw [conclude] at h
  cases hending : run.ending with
  | halted =>
    rw [hending] at h
    obtain rfl := Option.some.inj h
    exact ⟨nofun, rfl, nofun, fun _ => rfl, nofun⟩
  | aborted cause =>
    rw [hending] at h
    obtain rfl := Option.some.inj h
    exact ⟨nofun, rfl, nofun, nofun, fun _ _ => rfl⟩
  | failed fault =>
    rw [hending] at h
    obtain rfl := Option.some.inj h
    refine ⟨nofun, rfl, ?_, nofun, nofun⟩
    cases fault <;> exact nofun
  | unfinished =>
    rw [hending] at h
    cases h

def terminalOf (input : Input) : Terminal := { Terminal.ofInput input with encodes := true }

theorem respond_of_file (hrequest : Request.ofArguments arguments = .ok (.run options source))
    (hfile : contents (.ofText source) = .ok bytes) (input : Input) (bound : Nat) :
    respond arguments contents input bound =
      runSource options (.ofText source) (.ok bytes) input bound := by
  rw [respond, hrequest]
  dsimp only
  rw [hfile]

theorem runSource_of_refused {unknown : Source.UnknownWord}
    (hload : (Listing.ofBytes bytes).program = .error unknown) (path : Path) (input : Input)
    (bound : Nat) :
    runSource options path (.ok bytes) input bound =
      some ⟨1, [], journalText options.verbose
        ([greeting, openingNote path] ++ (Listing.ofBytes bytes).journal ++
          [⟨.error, "Cannot load ".toList ++ path.text ++ ": ".toList ++ unknown.message⟩])⟩ := by
  rw [runSource, hload]
  rfl

theorem runSource_of_program {p : Program} (hload : (Listing.ofBytes bytes).program = .ok p)
    (path : Path) (input : Input) (bound : Nat) :
    runSource options path (.ok bytes) input bound =
      conclude options.verbose ([greeting, openingNote path] ++ (Listing.ofBytes bytes).journal)
        ((Mode.ofFlags options.debug options.step).run bound
          (Machine.start p (terminalOf input))) := by
  rw [runSource, hload]
  rfl

theorem runSource_of_loaded {p : Program} (hload : (Listing.ofBytes bytes).program = .ok p)
    (hplain : options.debug = false) (path : Path) (input : Input) (bound : Nat) :
    runSource options path (.ok bytes) input bound =
      conclude options.verbose ([greeting, openingNote path] ++ (Listing.ofBytes bytes).journal)
        ((Machine.start p (terminalOf input)).run bound) := by
  rw [runSource_of_program hload, hplain]
  rfl

end CommandLine

end CowMachine
