import CowMachine.Proofs.LoopPairs

/-!
# Loops inside a loop

In a body whose marks pair up like brackets, the search back from the loop end
passes one inner loop after the other. It passes over the last code of the body
unseen, and if that is a loop end, the search stays inside the body: it stops at
the loop test of the last inner loop. The search forward does not count, and
comes to the end of the loop only if there is no inner loop.
-/

set_option autoImplicit false

namespace CowMachine.Program

/-- Loop tests and loop ends pair up like brackets. -/
inductive Balanced : List Int → Prop
  | nil : Balanced []
  | other {code : Int} {rest : List Int} (ht : code ≠ Instruction.loopTest.code)
      (he : code ≠ Instruction.loopEnd.code) (h : Balanced rest) : Balanced (code :: rest)
  | loop {inner rest : List Int} (hinner : Balanced inner) (hrest : Balanced rest) :
      Balanced (Instruction.loopTest.code :: (inner ++ Instruction.loopEnd.code :: rest))

namespace Balanced

variable {codes : List Int}

theorem openingTest_append (h : Balanced codes) (pending : Nat) (earlier : List Int) :
    openingTest pending (codes.reverse ++ earlier) = openingTest pending earlier := by
  induction h generalizing pending earlier with
  | nil => rfl
  | @other code rest ht he _ ih =>
    rw [List.reverse_cons, List.append_assoc, ih, List.singleton_append, openingTest_other he ht]
  | @loop inner rest _ _ ihinner ihrest =>
    have hsplit : (Instruction.loopTest.code ::
        (inner ++ Instruction.loopEnd.code :: rest)).reverse ++ earlier =
        rest.reverse ++ (Instruction.loopEnd.code ::
          (inner.reverse ++ (Instruction.loopTest.code :: earlier))) := by
      simp
    rw [hsplit, ihrest, openingTest_loopEnd, ihinner, openingTest_loopTest_pending]

theorem surplus_eq_zero (h : Balanced codes) : surplus codes = 0 := by
  induction h with
  | nil => rfl
  | @other code rest ht he _ ih =>
    rw [surplus, List.count_cons_of_ne ht, List.count_cons_of_ne he]
    exact ih
  | @loop inner rest _ _ ihinner ihrest =>
    have hsplit : Instruction.loopTest.code :: (inner ++ Instruction.loopEnd.code :: rest) =
        [Instruction.loopTest.code] ++ (inner ++ ([Instruction.loopEnd.code] ++ rest)) := rfl
    rw [hsplit, surplus_append, surplus_append, surplus_append, ihinner, ihrest, surplus_test,
      surplus_end]
    rfl

theorem mem_test_iff (h : Balanced codes) :
    Instruction.loopTest.code ∈ codes ↔ Instruction.loopEnd.code ∈ codes := by
  have hzero := h.surplus_eq_zero
  rw [surplus] at hzero
  rw [← List.count_pos_iff, ← List.count_pos_iff]
  omega

theorem head_ne_end {code : Int} (h : Balanced (code :: codes)) :
    code ≠ Instruction.loopEnd.code := by
  cases h with
  | other ht he _ => exact he
  | loop => decide

theorem last_cases (h : Balanced codes) :
    codes = [] ∨
    (∃ front code, codes = front ++ [code] ∧ Balanced front ∧
      code ≠ Instruction.loopEnd.code) ∨
    ∃ front inner, Balanced inner ∧
      codes = front ++ Instruction.loopTest.code :: inner ++ [Instruction.loopEnd.code] := by
  induction h with
  | nil => exact .inl rfl
  | @other code rest ht he h ih =>
    rcases ih with rfl | ⟨front, last, rfl, hfront, hlast⟩ | ⟨front, inner, hinner, rfl⟩
    · exact .inr (.inl ⟨[], code, rfl, .nil, he⟩)
    · exact .inr (.inl ⟨code :: front, last, rfl, .other ht he hfront, hlast⟩)
    · exact .inr (.inr ⟨code :: front, inner, hinner, rfl⟩)
  | @loop inner rest hinner _ _ ih =>
    rcases ih with rfl | ⟨front, last, rfl, hfront, hlast⟩ | ⟨front, inner', hinner', rfl⟩
    · exact .inr (.inr ⟨[], inner, hinner, rfl⟩)
    · refine .inr (.inl ⟨_, last, ?_, .loop hinner hfront, hlast⟩)
      simp
    · refine .inr (.inr ⟨Instruction.loopTest.code ::
        (inner ++ Instruction.loopEnd.code :: front), inner', hinner', ?_⟩)
      simp

end Balanced

section

variable (pre : List Int) (post : List Int)

theorem loopStart_empty_loop :
    (loop pre [] post).loopStart (pre.length + 1 : Nat) ≠ .found pre.length := by
  intro h
  have hlt : pre.length + 1 < (loop pre [] post).length := by
    simp only [loop, List.length_append, List.length_cons]
    omega
  obtain ⟨k, hk, hbefore⟩ := loopStart_found hlt h
  omega

theorem loopStart_balanced_loop {front : List Int} (hfront : Balanced front) (last : Int) :
    (loop pre (front ++ [last]) post).loopStart
      (pre.length + (front ++ [last]).length + 1 : Nat) = .found pre.length := by
  rw [loopStart_loop_concat, hfront.openingTest_append, openingTest_loopTest,
    List.length_reverse]
  rfl

theorem loopStart_loop_in_loop {inner : List Int} (hinner : Balanced inner)
    (front : List Int) (last : Int) :
    (loop pre (front ++ Instruction.loopTest.code :: inner ++ [last]) post).loopStart
        (pre.length + (front ++ Instruction.loopTest.code :: inner ++ [last]).length + 1 : Nat) =
      .found (pre.length + 1 + front.length : Nat) := by
  have hsplit : (front ++ Instruction.loopTest.code :: inner).reverse ++
      Instruction.loopTest.code :: pre.reverse = inner.reverse ++ (Instruction.loopTest.code ::
        (front.reverse ++ Instruction.loopTest.code :: pre.reverse)) := by
    simp
  have hlength : (front.reverse ++ Instruction.loopTest.code :: pre.reverse).length =
      pre.length + 1 + front.length := by
    simp only [List.length_append, List.length_cons, List.length_reverse]
    omega
  rw [loopStart_loop_concat, hsplit, hinner.openingTest_append, openingTest_loopTest, hlength]
  rfl

theorem tail_of_loopExit {body : List Int}
    (h : (loop pre body post).loopExit pre.length = .found (pre.length + body.length + 1 : Nat)) :
    ∃ first rest, body = first :: rest ∧ Instruction.loopEnd.code ∉ rest := by
  obtain ⟨-, hle, -, hbefore⟩ := loopExit_found_iff.1 h
  cases body with
  | nil =>
    rw [List.length_nil] at hle
    omega
  | cons first rest =>
    refine ⟨first, rest, rfl, fun hm => ?_⟩
    obtain ⟨j, hj⟩ := List.mem_iff_getElem?.1 hm
    have hlt : j < rest.length := (List.getElem?_eq_some_iff.1 hj).1
    have hplace : (loop pre (first :: rest) post)[pre.length + 2 + j]? =
        some Instruction.loopEnd.code := by
      rw [loop_eq_test, List.getElem?_append_right (by omega),
        show pre.length + 2 + j - pre.length = j + 2 by omega]
      simp only [List.cons_append, List.getElem?_cons_succ]
      rw [List.getElem?_append_left hlt]
      exact hj
    rw [List.length_cons] at hbefore
    refine hbefore (pre.length + 2 + j : Nat) (by omega) (by omega) ?_
    rw [fetch?_natCast]
    exact hplace

end

/-- A loop around a balanced body. Its loop end leads back to its loop test
exactly if the body is not empty and does not end with a loop end; if it does,
the search stays inside. Its loop test leads to its loop end exactly if the body
is not empty and has no marks. -/
theorem nested_loop_searches {body : List Int} (hb : Balanced body) (pre post : List Int) :
    let p := loop pre body post
    let s := pre.length
    let r := s + body.length + 1
    (p.loopStart r = .found s ↔ body ≠ [] ∧ body.getLast? ≠ some Instruction.loopEnd.code) ∧
    (body.getLast? = some Instruction.loopEnd.code →
      ∃ k : Nat, p.loopStart r = .found k ∧ s < k ∧ k < r) ∧
    (p.loopExit s = .found r ↔
      body ≠ [] ∧ Instruction.loopTest.code ∉ body ∧ Instruction.loopEnd.code ∉ body) := by
  intro p s r
  have hback : (p.loopStart r = .found s ↔
      body ≠ [] ∧ body.getLast? ≠ some Instruction.loopEnd.code) ∧
      (body.getLast? = some Instruction.loopEnd.code →
        ∃ k : Nat, p.loopStart r = .found k ∧ s < k ∧ k < r) := by
    rcases hb.last_cases with rfl | ⟨front, last, rfl, hfront, hlast⟩ | ⟨front, inner, hinner, rfl⟩
    · exact ⟨iff_of_false (loopStart_empty_loop pre post) fun h => h.1 rfl, nofun⟩
    · have hother : (front ++ [last]).getLast? ≠ some Instruction.loopEnd.code := by
        rw [List.getLast?_concat]
        exact fun h => hlast (Option.some.inj h)
      have hfound : p.loopStart r = .found s := loopStart_balanced_loop pre post hfront last
      exact ⟨iff_of_true hfound ⟨by simp, hother⟩, fun h => absurd h hother⟩
    · have hfound : p.loopStart r = .found (s + 1 + front.length : Nat) :=
        loopStart_loop_in_loop pre post hinner front _
      have hinside : s + 1 + front.length < r := by
        simp only [r, List.length_append, List.length_cons]
        omega
      refine ⟨iff_of_false (fun h => ?_) fun h => h.2 List.getLast?_concat,
        fun _ => ⟨_, hfound, by omega, hinside⟩⟩
      have hplace := Search.found.inj (hfound.symm.trans h)
      omega
  refine ⟨hback.1, hback.2, ?_, ?_⟩
  · intro h
    obtain ⟨first, rest, rfl, hrest⟩ := tail_of_loopExit pre post h
    have hnone : Instruction.loopEnd.code ∉ first :: rest := by
      rw [List.mem_cons, not_or]
      exact ⟨hb.head_ne_end.symm, hrest⟩
    exact ⟨by simp, mt hb.mem_test_iff.1 hnone, hnone⟩
  · rintro ⟨hne, -, hnone⟩
    exact loopExit_loop pre post hne fun code hm hcode => hnone (hcode ▸ hm)

theorem nested_loop_searches_at_inner_loop :
    (∃ k : Nat, (loop [6] [7, 5, 0] [255]).loopStart 5 = .found k ∧ 1 < k ∧ k < 5) ∧
    (loop [6] [7, 5, 0] [255]).loopStart 5 ≠ .found 1 ∧
    (loop [6] [7, 5, 0, 2] [255]).loopStart 6 = .found 1 ∧
    (loop [6] [7, 5, 0, 2] [255]).loopExit 1 ≠ .found 6 := by
  have hloop (rest : List Int) (hrest : Balanced rest) : Balanced (7 :: ([5] ++ 0 :: rest)) :=
    .loop (.other (by decide) (by decide) .nil) hrest
  have hends := nested_loop_searches (hloop [] .nil) [6] [255]
  have hgoes := nested_loop_searches (hloop [2] (.other (by decide) (by decide) .nil)) [6] [255]
  refine ⟨hends.2.1 rfl, fun h => (hends.1.1 h).2 rfl, hgoes.1.2 (by decide), fun h => ?_⟩
  exact (hgoes.2.2.1 h).2.2 (by decide)

end CowMachine.Program
