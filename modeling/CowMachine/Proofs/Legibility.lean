import CowMachine.Proofs.Diagnostics

/-!
# When a state can be shown

A report of a machine's state writes every cell, the register and the program
pointer. It comes out exactly when each of these numbers has text, and the only
other answer is that a number is too long. The pointer of a loaded program is
below its length, so only a program too long to be held could make it too long.
-/

set_option autoImplicit false

namespace CowMachine

/-- There is an answer exactly where the condition holds, and elsewhere a
number is too long. -/
def Written {α : Type} (P : Prop) (r : Except Fault α) : Prop :=
  (P → ∃ a, r = .ok a) ∧ (¬P → r = .error .numberTooLong)

namespace Written

variable {α β : Type} {P Q : Prop} {r : Except Fault α} {f : α → Except Fault β}

theorem ok (a : α) : Written True (.ok a : Except Fault α) :=
  ⟨fun _ => ⟨a, rfl⟩, fun h => absurd trivial h⟩

theorem congr (hr : Written P r) (h : P ↔ Q) : Written Q r :=
  ⟨fun hq => hr.1 (h.2 hq), fun hq => hr.2 fun hp => hq (h.1 hp)⟩

theorem bind (hr : Written P r) (hf : ∀ a, Written Q (f a)) : Written (P ∧ Q) (r >>= f) := by
  constructor
  · rintro ⟨hp, hq⟩
    obtain ⟨a, ha⟩ := hr.1 hp
    rw [ha]
    exact (hf a).1 hq
  · intro h
    by_cases hp : P
    · obtain ⟨a, ha⟩ := hr.1 hp
      rw [ha]
      exact (hf a).2 fun hq => h ⟨hp, hq⟩
    · rw [hr.2 hp]
      rfl

theorem mapM {P : α → Prop} {f : α → Except Fault β} (hf : ∀ a, Written (P a) (f a))
    (as : List α) : Written (∀ a ∈ as, P a) (as.mapM f) := by
  induction as with
  | nil => exact (ok []).congr (by simp)
  | cons a as ih =>
    rw [List.mapM_cons]
    exact ((hf a).bind fun _ => ih.bind fun _ => ok _).congr (by simp)

end Written

/-- Every cell has text, and so has what the register holds. -/
def Machine.Legible (m : Machine) : Prop :=
  (∀ v ∈ m.tape.cells, Text.Printable v) ∧ m.register.Printable

instance (r : Register) : Decidable r.Printable := inferInstanceAs (Decidable (∀ v ∈ r, _))

instance (m : Machine) : Decidable m.Legible := inferInstanceAs (Decidable (_ ∧ _))

namespace Report

theorem number_written (v : Int) : Written (Text.Printable v) (number v) :=
  ⟨fun h => ⟨_, number_of_printable h⟩, number_of_not_printable⟩

theorem register_written (r : Register) : Written r.Printable (register r) :=
  ⟨register_of_printable, register_of_not_printable⟩

theorem entry_written (cell : Int × Nat) : Written (Text.Printable cell.1) (entry cell) :=
  ((number_written cell.1).bind fun _ => .ok _).congr (and_iff_left trivial)

theorem memory_written (cells : List Int) :
    Written (∀ v ∈ cells, Text.Printable v) (memory cells) := by
  have hentries : (∀ cell ∈ cells.zipIdx, Text.Printable cell.1) ↔
      ∀ v ∈ cells, Text.Printable v := by
    constructor
    · intro h v hv
      obtain ⟨i, hi, rfl⟩ := List.mem_iff_getElem.1 hv
      exact h (cells[i], i) (List.mk_mem_zipIdx_iff_getElem?.2 (List.getElem?_eq_getElem hi))
    · intro h cell hcell
      exact h cell.1 (List.fst_mem_of_mem_zipIdx hcell)
  exact ((Written.mapM entry_written cells.zipIdx).bind fun _ => .ok _).congr
    ((and_iff_left trivial).trans hentries)

variable {p : Program} {m : Machine}

theorem codeAt_written {place : Int} {n : Nat} (hplace : place = n) (hn : n < p.length) :
    Written True (codeAt p place) := by
  rw [hplace, codeAt, Program.fetch?_natCast, List.getElem?_eq_getElem hn]
  exact .ok _

theorem last_written (h : m.Safe p) : Written True (last m) := by
  obtain ⟨n, hn, hlt⟩ := h.inside
  unfold last
  split
  · have hpred : m.pc - 1 = (n - 1 : Nat) := by omega
    rw [h.program]
    exact ((codeAt_written hpred (by omega)).bind fun _ => .ok _).congr (by simp)
  · exact .ok _

theorem state_written (h : m.Safe p) :
    Written (m.Legible ∧ Text.Printable m.pc) (state m) := by
  obtain ⟨n, hn, hlt⟩ := h.inside
  have hnext : Written True (codeAt m.program m.pc) := by
    rw [h.program]
    exact codeAt_written hn hlt
  have hcurrent : m.tape.current ∈ m.tape.cells := by simp [Tape.cells]
  have hstate : Written ((∀ v ∈ m.tape.cells, Text.Printable v) ∧ m.register.Printable ∧
      Text.Printable m.tape.current ∧ Text.Printable m.pc ∧ True ∧ True ∧ True) (state m) :=
    (memory_written m.tape.cells).bind fun _ => (register_written m.register).bind fun _ =>
    (number_written m.tape.current).bind fun _ => (number_written m.pc).bind fun _ =>
    (last_written h).bind fun _ => hnext.bind fun _ => .ok _
  refine hstate.congr ⟨?_, ?_⟩
  · rintro ⟨hcells, hregister, -, hpc, -⟩
    exact ⟨⟨hcells, hregister⟩, hpc⟩
  · rintro ⟨⟨hcells, hregister⟩, hpc⟩
    exact ⟨hcells, hregister, hcells _ hcurrent, hpc, trivial, trivial, trivial⟩

end Report

theorem Machine.Safe.printable_pc {p : Program} {m : Machine} (h : m.Safe p)
    (hsize : Text.Printable p.length) : Text.Printable m.pc := by
  obtain ⟨n, hn, hlt⟩ := h.inside
  rw [Text.printable_iff, Int.natAbs_natCast] at hsize
  rw [Text.printable_iff, hn, Int.natAbs_natCast]
  omega

theorem Machine.legible_of_fail {m m' : Machine} {n : Nat} {fault : Fault}
    (hfail : m.steps n = .fail fault m') (h : ∀ k, k < n → (m.after k).Legible) (k : Nat)
    (u : Machine) (hsteps : m.steps k = .next u) : u.Legible :=
  reached_of_fail hfail h k u hsteps

end CowMachine
