import CowMachine.Proofs.LoopMarks

/-!
# The search back by counting

Along a row of codes that is read from its end, each loop test counts for one
and each loop end against one. The search back stops where the tests first get
ahead of the ends by one more than it has to make up for. Up to there they never
were, so it finds the last place from which they are ahead by exactly that.
-/

set_option autoImplicit false

namespace CowMachine.Program

/-- How far the loop tests of a row are ahead of its loop ends. -/
def surplus (codes : List Int) : Int :=
  codes.count Instruction.loopTest.code - codes.count Instruction.loopEnd.code

theorem surplus_append (front back : List Int) :
    surplus (front ++ back) = surplus front + surplus back := by
  simp only [surplus, List.count_append]
  omega

theorem surplus_test : surplus [Instruction.loopTest.code] = 1 := by decide

theorem surplus_end : surplus [Instruction.loopEnd.code] = -1 := by decide

theorem surplus_of_no_marks {codes : List Int} (ht : Instruction.loopTest.code ∉ codes)
    (he : Instruction.loopEnd.code ∉ codes) : surplus codes = 0 := by
  rw [surplus, List.count_eq_zero_of_not_mem ht, List.count_eq_zero_of_not_mem he]
  rfl

theorem surplus_drop_concat {front : List Int} {k : Nat} (h : k ≤ front.length) (code : Int) :
    surplus ((front ++ [code]).drop k) = surplus (front.drop k) + surplus [code] := by
  rw [List.drop_append_of_le_length h, surplus_append]

theorem surplus_drop_end {codes : List Int} {k : Nat} (h : codes.length ≤ k) :
    surplus (codes.drop k) = 0 := by
  rw [List.drop_eq_nil_of_le h]
  rfl

def Within (level : Int) (codes : List Int) (first : Nat) : Prop :=
  ∀ k, first ≤ k → surplus (codes.drop k) ≤ level

structure Opens (level : Int) (codes : List Int) (j : Nat) : Prop where
  mark : codes[j]? = some Instruction.loopTest.code
  ahead : surplus (codes.drop j) = level + 1
  within : Within level codes (j + 1)

def Answers (level : Int) (codes : List Int) : Option Nat → Prop
  | some j => Opens level codes j
  | none => Within level codes 0

section

variable {level bound : Int} {front codes : List Int} {code : Int} {i j : Nat}

theorem Within.concat {first : Nat} (h : Within level front first)
    (hlevel : level + surplus [code] = bound) (hbound : 0 ≤ bound) :
    Within bound (front ++ [code]) first := by
  intro k hk
  by_cases hlength : k ≤ front.length
  · have hfront := h k hk
    rw [surplus_drop_concat hlength]
    omega
  · rw [surplus_drop_end (by rw [List.length_append, List.length_singleton]; omega)]
    exact hbound

theorem Opens.lt_length (h : Opens level codes j) : j < codes.length :=
  (List.getElem?_eq_some_iff.1 h.mark).1

theorem Opens.concat (h : Opens level front j) (hlevel : level + surplus [code] = bound)
    (hbound : 0 ≤ bound) : Opens bound (front ++ [code]) j := by
  have hlt := h.lt_length
  refine ⟨?_, ?_, h.within.concat hlevel hbound⟩
  · rw [List.getElem?_append_left hlt]
    exact h.mark
  · rw [surplus_drop_concat (Nat.le_of_lt hlt), h.ahead]
    omega

theorem opens_last (front : List Int) :
    Opens 0 (front ++ [Instruction.loopTest.code]) front.length := by
  refine ⟨List.getElem?_concat_length, ?_, ?_⟩
  · rw [List.drop_left, surplus_test]
    rfl
  · intro k hk
    exact Int.le_of_eq
      (surplus_drop_end (by rw [List.length_append, List.length_singleton]; omega))

theorem Answers.concat {answer : Option Nat} (h : Answers level front answer)
    (hlevel : level + surplus [code] = bound) (hbound : 0 ≤ bound) :
    Answers bound (front ++ [code]) answer := by
  cases answer with
  | none => exact Within.concat h hlevel hbound
  | some j => exact Opens.concat h hlevel hbound

theorem Opens.last (h : Opens level codes i) (hj : surplus (codes.drop j) = level + 1) :
    j ≤ i := by
  by_cases hlt : i < j
  · have hbehind := h.within j hlt
    omega
  · omega

end

/-- The pending loop ends are the level, and it never falls below zero. -/
theorem openingTest_answers (pending : Nat) (codes : List Int) :
    Answers pending codes.reverse (openingTest pending codes) := by
  fun_induction openingTest pending codes with
  | case1 pending =>
    intro k _
    rw [List.reverse_nil, surplus_drop_end (Nat.zero_le k)]
    exact Int.natCast_nonneg pending
  | case2 pending earlier ih =>
    rw [List.reverse_cons]
    exact ih.concat (by rw [surplus_end]; omega) (by omega)
  | case3 earlier =>
    rw [List.reverse_cons, ← List.length_reverse]
    exact opens_last earlier.reverse
  | case4 earlier pending _ ih =>
    rw [List.reverse_cons]
    exact ih.concat (by rw [surplus_test]; omega) (by omega)
  | case5 pending code earlier he ht ih =>
    have hcode : surplus [code] = 0 :=
      surplus_of_no_marks (by simpa using Ne.symm ht) (by simpa using Ne.symm he)
    rw [List.reverse_cons]
    exact ih.concat (by rw [hcode]; omega) (by omega)

theorem openingTest_reverse (pending : Nat) (codes : List Int) :
    Answers pending codes (openingTest pending codes.reverse) := by
  have h := openingTest_answers pending codes.reverse
  rwa [List.reverse_reverse] at h

theorem openingTest_eq_some_iff {pending j : Nat} {codes : List Int} :
    openingTest pending codes.reverse = some j ↔ Opens pending codes j := by
  have hanswer := openingTest_reverse pending codes
  constructor
  · intro h
    rwa [h] at hanswer
  · intro hj
    cases h : openingTest pending codes.reverse with
    | none =>
      rw [h] at hanswer
      have hwithin := hanswer j (Nat.zero_le j)
      have hahead := hj.ahead
      omega
    | some i =>
      rw [h] at hanswer
      exact congrArg some (Nat.le_antisymm (hj.last hanswer.ahead) (hanswer.last hj.ahead))

def between (p : Program) (first last : Int) : List Int :=
  (p.take (last + 1).toNat).drop first.toNat

/-- From this place to the second before the search, there is one loop test more
than there are loop ends. -/
structure Outnumbers (p : Program) (place j : Int) : Prop where
  nonneg : 0 ≤ j
  le : j ≤ place - 2
  count : (p.between j (place - 2)).count Instruction.loopTest.code =
    (p.between j (place - 2)).count Instruction.loopEnd.code + 1

inductive Sought (p : Program) (place : Int) : Search → Prop
  | outside (h : (p.length : Int) + 2 ≤ place) : Sought p place (.outside (place - 2))
  | absent (h : place < p.length + 2) (hnone : ∀ j, ¬p.Outnumbers place j) :
      Sought p place .absent
  | found {j : Int} (h : place < p.length + 2) (hj : p.Outnumbers place j)
      (hlast : ∀ k, p.Outnumbers place k → k ≤ j)
      (hmark : p.fetch? j = some Instruction.loopTest.code) : Sought p place (.found j)

section

variable {p : Program} {place : Int}

theorem between_natCast (p : Program) (k : Nat) (place : Int) :
    p.between k (place - 2) = (p.take (place - 1).toNat).drop k := by
  have hlast : place - 2 + 1 = place - 1 := by omega
  rw [between, hlast, Int.toNat_natCast]

theorem outnumbers_natCast_iff {k : Nat} :
    p.Outnumbers place k ↔ surplus ((p.take (place - 1).toNat).drop k) = 1 := by
  constructor
  · intro h
    have hcount := h.count
    rw [between_natCast] at hcount
    rw [surplus]
    omega
  · intro h
    have hlt : k < (p.take (place - 1).toNat).length := by
      by_cases hk : k < (p.take (place - 1).toNat).length
      · exact hk
      · rw [surplus_drop_end (by omega)] at h
        omega
    rw [List.length_take] at hlt
    refine ⟨Int.natCast_nonneg k, by omega, ?_⟩
    rw [between_natCast]
    rw [surplus] at h
    omega

theorem surplus_of_outnumbers {j : Int} (h : p.Outnumbers place j) :
    ∃ k : Nat, j = k ∧ surplus ((p.take (place - 1).toNat).drop k) = 1 := by
  obtain ⟨k, rfl⟩ := Int.eq_ofNat_of_zero_le h.nonneg
  exact ⟨k, rfl, outnumbers_natCast_iff.1 h⟩

theorem loopStart_sought (p : Program) (place : Int) : Sought p place (p.loopStart place) := by
  by_cases h : place < p.length + 2
  · have hanswer := openingTest_reverse 0 (p.take (place - 1).toNat)
    rw [loopStart_inside p h]
    cases hk : openingTest 0 (p.take (place - 1).toNat).reverse with
    | none =>
      rw [hk] at hanswer
      refine .absent h fun j hj => ?_
      obtain ⟨k, -, hk⟩ := surplus_of_outnumbers hj
      have hwithin := hanswer k (Nat.zero_le k)
      omega
    | some k =>
      rw [hk] at hanswer
      refine .found h (outnumbers_natCast_iff.2 hanswer.ahead) ?_ ?_
      · intro j hj
        obtain ⟨n, rfl, hn⟩ := surplus_of_outnumbers hj
        exact Int.ofNat_le.2 (hanswer.last hn)
      · have hlt := hanswer.lt_length
        rw [List.length_take] at hlt
        rw [fetch?_natCast, ← hanswer.mark, List.getElem?_take_of_lt (by omega)]
  · rw [loopStart_outside (by omega)]
    exact .outside (by omega)

end

/-- The search back refuses to start from two places behind the program on. From
any other place it finds the last place from which one loop test more than loop
ends stands before it, and nothing if there is no such place. What it finds is a
loop test. -/
theorem loopStart_is_last_ahead (p : Program) (place : Int) :
    (∀ q, p.loopStart place = .outside q ↔ (p.length : Int) + 2 ≤ place ∧ q = place - 2) ∧
    (place < p.length + 2 →
      (∀ j, p.loopStart place = .found j ↔
        p.Outnumbers place j ∧ ∀ k, p.Outnumbers place k → k ≤ j) ∧
      (p.loopStart place = .absent ↔ ¬∃ j, p.Outnumbers place j)) ∧
    ∀ j, p.loopStart place = .found j → p.fetch? j = some Instruction.loopTest.code := by
  have hsought := loopStart_sought p place
  generalize p.loopStart place = answer at hsought ⊢
  cases hsought with
  | outside h =>
    refine ⟨fun q => ?_, fun hplace => by omega, nofun⟩
    rw [Search.outside.injEq, and_iff_right h, eq_comm]
  | absent h hnone =>
    refine ⟨fun q => iff_of_false nofun (by omega), fun _ => ⟨fun j => ?_, ?_⟩, nofun⟩
    · exact iff_of_false nofun fun hj => hnone j hj.1
    · exact iff_of_true rfl fun ⟨j, hj⟩ => hnone j hj
  | found h hj hlast hmark =>
    refine ⟨fun q => iff_of_false nofun (by omega), fun _ => ⟨fun k => ?_, ?_⟩, ?_⟩
    · rw [Search.found.injEq]
      constructor
      · rintro rfl
        exact ⟨hj, hlast⟩
      · rintro ⟨hk, hmax⟩
        exact Int.le_antisymm (hmax _ hj) (hlast k hk)
    · exact iff_of_false nofun fun hnone => hnone ⟨_, hj⟩
    · rintro k ⟨⟩
      exact hmark

theorem loopStart_is_last_ahead_of_inner_loop :
    let p : Program := [7, 2, 7, 6, 0, 1, 5, 0, 255]
    (p.Outnumbers 7 0 ∧ ∀ k, p.Outnumbers 7 k → k ≤ 0) ∧ p.fetch? 0 = some 7 ∧
      (¬∃ j, p.Outnumbers 1 j) ∧ p.loopStart 11 = .outside 9 := by
  intro p
  have hfound : p.loopStart 7 = .found 0 := by decide
  obtain ⟨-, hinside, hmark⟩ := loopStart_is_last_ahead p 7
  obtain ⟨-, hfirst, -⟩ := loopStart_is_last_ahead p 1
  obtain ⟨houtside, -, -⟩ := loopStart_is_last_ahead p 11
  exact ⟨((hinside (by decide)).1 0).1 hfound, hmark 0 hfound,
    (hfirst (by decide)).2.1 (by decide), (houtside 9).2 (by decide)⟩

end CowMachine.Program
