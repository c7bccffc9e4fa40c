import CowMachine.Proofs.LoopMarks
import Mathlib.Order.Bounds.Defs

/-!
# The search forward by places

A place below zero counts from the end of the program, and the search forward
goes through such places on its way up like through any other. A search that
starts below zero therefore reads the last codes first, then the whole program
with these codes once more, and what it finds may be a place below zero. It is
refused only where its first place is outside, and that can only be below: a
first place behind the program leaves nothing to read.
-/

set_option autoImplicit false

namespace CowMachine.Program

variable {p : Program} {place i : Int}

theorem fetch?_from_end (hi : i < 0) (hinside : -(p.length : Int) ≤ i) :
    p.fetch? i = p[(i + p.length).toNat]? := by
  rw [fetch?, if_neg (by omega), if_pos (by omega)]

/-- A loop end at a place that the search forward comes to. -/
structure EndAhead (p : Program) (place i : Int) : Prop where
  le : place + 2 ≤ i
  lt : i < p.length
  mark : p.fetch? i = some Instruction.loopEnd.code

theorem loopExit_found_iff_isLeast (h : -(p.length : Int) ≤ place + 2) :
    p.loopExit place = .found i ↔ IsLeast {k | p.EndAhead place k} i := by
  rw [loopExit_found_iff]
  constructor
  · rintro ⟨-, hle, hmark, hbefore⟩
    refine ⟨⟨hle, (inside_of_fetch? hmark).2, hmark⟩, fun k hk => ?_⟩
    by_cases hlt : k < i
    · exact absurd hk.mark (hbefore k hk.le hlt)
    · omega
  · rintro ⟨hi, hleast⟩
    refine ⟨h, hi.le, hi.mark, fun k hk hki hmark => ?_⟩
    have hle : i ≤ k := hleast ⟨hk, (inside_of_fetch? hmark).2, hmark⟩
    omega

theorem loopExit_absent_iff (h : -(p.length : Int) ≤ place + 2) :
    p.loopExit place = .absent ↔ ¬∃ k, p.EndAhead place k := by
  have hstops := loopExit_stops p place
  constructor
  · rintro hanswer ⟨k, hk⟩
    rw [hanswer] at hstops
    cases hstops with
    | absent hpassed => exact hpassed.ne_end hk.le hk.lt hk.mark
  · intro hnone
    cases hanswer : p.loopExit place with
    | absent => rfl
    | found k => exact absurd ⟨k, ((loopExit_found_iff_isLeast h).1 hanswer).1⟩ hnone
    | outside q =>
      have hout := loopExit_outside_iff.1 hanswer
      omega

theorem EndAhead.natCast (hplace : -2 ≤ place) (h : p.EndAhead place i) :
    ∃ n : Nat, i = n ∧ p[n]? = some Instruction.loopEnd.code := by
  have hle := h.le
  obtain ⟨n, rfl⟩ := Int.eq_ofNat_of_zero_le (show 0 ≤ i by omega)
  refine ⟨n, rfl, ?_⟩
  rw [← fetch?_natCast]
  exact h.mark

/-- The search forward is refused exactly where its first place, the second behind
the one it starts from, is too far below zero to be counted from the end. Otherwise
it finds the least place from there on that holds a loop end, and nothing if there
is none. Such a place may be below zero, unless the search starts at the second
place before the program or later: then it is the nearest loop end that is not
right behind the start. -/
theorem loopExit_is_first_end (p : Program) (place : Int) :
    (∀ i, i < 0 → -(p.length : Int) ≤ i → p.fetch? i = p[(i + p.length).toNat]?) ∧
    (∀ q, p.loopExit place = .outside q ↔ place + 2 < -(p.length : Int) ∧ q = place + 2) ∧
    (-(p.length : Int) ≤ place + 2 →
      (∀ i, p.loopExit place = .found i ↔ IsLeast {k | p.EndAhead place k} i) ∧
      (p.loopExit place = .absent ↔ ¬∃ i, p.EndAhead place i)) ∧
    (-2 ≤ place → ∀ i, p.loopExit place = .found i →
      ∃ n : Nat, i = n ∧ IsLeast {k : Nat | place + 2 ≤ (k : Int) ∧
        p[k]? = some Instruction.loopEnd.code} n) := by
  refine ⟨fun i => fetch?_from_end, fun q => loopExit_outside_iff, fun h => ?_, ?_⟩
  · exact ⟨fun i => loopExit_found_iff_isLeast h, loopExit_absent_iff h⟩
  · intro hplace i hfound
    obtain ⟨hi, hleast⟩ := (loopExit_found_iff_isLeast (by omega)).1 hfound
    obtain ⟨n, rfl, hn⟩ := hi.natCast hplace
    refine ⟨n, rfl, ⟨hi.le, hn⟩, ?_⟩
    rintro k ⟨hk, hmark⟩
    rw [← fetch?_natCast] at hmark
    have hle : (n : Int) ≤ k := hleast ⟨hk, (inside_of_fetch? hmark).2, hmark⟩
    omega

theorem loopExit_is_first_end_around_program :
    let p : Program := [7, 2, 0, 6, 255]
    IsLeast {k | p.EndAhead (-5) k} (-3) ∧ IsLeast {k | p.EndAhead (-4) k} 2 ∧
      (¬∃ i, p.EndAhead 1 i) ∧ p.loopExit (-8) = .outside (-6) ∧
        ∃ n : Nat, p.loopExit (-2) = .found n ∧
          IsLeast {k : Nat | -2 + 2 ≤ (k : Int) ∧ p[k]? = some Instruction.loopEnd.code} n := by
  intro p
  have hfirst : p.loopExit (-2) = .found 2 := by decide
  obtain ⟨-, -, hbelow, -⟩ := loopExit_is_first_end p (-5)
  obtain ⟨-, -, haround, -⟩ := loopExit_is_first_end p (-4)
  obtain ⟨-, -, hnone, -⟩ := loopExit_is_first_end p 1
  obtain ⟨-, houtside, -, -⟩ := loopExit_is_first_end p (-8)
  obtain ⟨-, -, -, hnearest⟩ := loopExit_is_first_end p (-2)
  obtain ⟨n, hn, hleast⟩ := hnearest (by decide) 2 hfirst
  refine ⟨((hbelow (by decide)).1 _).1 (by decide), ((haround (by decide)).1 _).1 (by decide),
    (hnone (by decide)).2.1 (by decide), (houtside _).2 (by decide), n, ?_, hleast⟩
  rw [hfirst, hn]

end CowMachine.Program
