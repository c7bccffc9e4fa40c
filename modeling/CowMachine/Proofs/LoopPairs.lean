import CowMachine.Proofs.LoopCounts

/-!
# Loop marks that find each other

The search forward takes the first loop end from the second place on, whatever
stands between. The search back makes up for the loop ends that it passes. So
one undoes the other only where there is nothing to make up for and nothing
nearer: a place of the loop that one search sees and the other does not is
enough to lead them apart.
-/

set_option autoImplicit false

namespace CowMachine.Program

theorem mem_between_iff {p : Program} {first last code : Int} (h : 0 ≤ first) :
    code ∈ p.between first last ↔ ∃ k, first ≤ k ∧ k ≤ last ∧ p.fetch? k = some code := by
  rw [between, List.mem_iff_getElem?]
  constructor
  · rintro ⟨j, hj⟩
    rw [List.getElem?_drop, List.getElem?_take] at hj
    by_cases hlast : first.toNat + j < (last + 1).toNat
    · rw [if_pos hlast] at hj
      refine ⟨(first.toNat + j : Nat), by omega, by omega, ?_⟩
      rw [fetch?_natCast]
      exact hj
    · rw [if_neg hlast] at hj
      cases hj
  · rintro ⟨k, hfirst, hlast, hk⟩
    obtain ⟨n, rfl⟩ := Int.eq_ofNat_of_zero_le (Int.le_trans h hfirst)
    rw [fetch?_natCast] at hk
    refine ⟨n - first.toNat, ?_⟩
    have hplace : first.toNat + (n - first.toNat) = n := by omega
    rw [List.getElem?_drop, hplace, List.getElem?_take_of_lt (by omega)]
    exact hk

theorem opens_iff_no_marks {codes : List Int} {i : Nat}
    (hmark : codes[i]? = some Instruction.loopTest.code)
    (hends : Instruction.loopEnd.code ∉ codes.drop (i + 2)) :
    Opens 0 codes i ↔ Instruction.loopTest.code ∉ codes.drop (i + 1) ∧
      Instruction.loopEnd.code ∉ codes.drop (i + 1) := by
  have hsurplus : surplus (codes.drop i) = 1 + surplus (codes.drop (i + 1)) := by
    rw [List.drop_eq_getElem?_toList_append, hmark, surplus_append]
    exact congrArg (· + _) surplus_test
  constructor
  · intro h
    have hnext : codes.drop (i + 1) = codes[i + 1]?.toList ++ codes.drop (i + 2) :=
      List.drop_eq_getElem?_toList_append
    have htests : Instruction.loopTest.code ∉ codes.drop (i + 2) := by
      have hwithin := h.within (i + 2) (by omega)
      rw [surplus, List.count_eq_zero_of_not_mem hends] at hwithin
      exact List.count_eq_zero.1 (by omega)
    have hcode : surplus codes[i + 1]?.toList = 0 := by
      have hahead := h.ahead
      rw [hsurplus, hnext, surplus_append, surplus_of_no_marks htests hends] at hahead
      omega
    rw [hnext, List.mem_append, List.mem_append, not_or, not_or]
    refine ⟨⟨fun hm => ?_, htests⟩, fun hm => ?_, hends⟩
    · rw [Option.mem_toList.1 hm] at hcode
      exact absurd hcode (by decide)
    · rw [Option.mem_toList.1 hm] at hcode
      exact absurd hcode (by decide)
  · rintro ⟨ht, he⟩
    refine ⟨hmark, ?_, fun k hk => ?_⟩
    · rw [hsurplus, surplus_of_no_marks ht he]
      rfl
    · have hsuffix : codes.drop k <:+ codes.drop (i + 1) := List.drop_suffix_drop_left codes hk
      exact Int.le_of_eq (surplus_of_no_marks (mt (hsuffix.subset ·) ht) (mt (hsuffix.subset ·) he))

theorem loopStart_found_natCast_iff {p : Program} {place : Int} {j : Nat}
    (h : place < p.length + 2) :
    p.loopStart place = .found j ↔ Opens 0 (p.take (place - 1).toNat) j := by
  rw [← Int.natCast_zero, ← openingTest_eq_some_iff, loopStart_inside p h]
  cases openingTest 0 (p.take (place - 1).toNat).reverse with
  | none => exact iff_of_false nofun nofun
  | some k => rw [Option.elim_some, Search.found.injEq, Option.some.injEq, Int.ofNat_inj]

theorem loopStart_loopExit_iff {p : Program} {i f : Int} (hi : 0 ≤ i)
    (hmark : p.fetch? i = some Instruction.loopTest.code) (hexit : p.loopExit i = .found f) :
    p.loopStart f = .found i ↔ Instruction.loopTest.code ∉ p.between (i + 1) (f - 2) ∧
      Instruction.loopEnd.code ∉ p.between (i + 1) (f - 2) := by
  obtain ⟨-, hle, hend, hbefore⟩ := loopExit_found_iff.1 hexit
  obtain ⟨n, rfl⟩ := Int.eq_ofNat_of_zero_le hi
  have hlt := (inside_of_fetch? hend).2
  have hcodes : (p.take (f - 1).toNat)[n]? = some Instruction.loopTest.code := by
    rw [List.getElem?_take_of_lt (by omega), ← fetch?_natCast]
    exact hmark
  have hends : Instruction.loopEnd.code ∉ (p.take (f - 1).toNat).drop (n + 2) := by
    rw [← between_natCast, mem_between_iff (by omega)]
    rintro ⟨k, hk, hkf, hcode⟩
    exact hbefore k (by omega) (by omega) hcode
  have hnext : p.between (n + 1) (f - 2) = (p.take (f - 1).toNat).drop (n + 1) :=
    between_natCast p (n + 1) f
  rw [loopStart_found_natCast_iff (by omega), opens_iff_no_marks hcodes hends, hnext]

/-- A loop test that leads to a loop end is found back from it exactly if no
loop test stands between the place behind it and the second before the loop end,
and no loop end right behind it unless that is passed over on the way back too. A
loop end that leads back to a loop test is found from it exactly if no other loop
end stands from the second place behind the test on. -/
theorem searches_are_inverse_on_flat_loops (p : Program) :
    (∀ i f, 0 ≤ i → p.fetch? i = some Instruction.loopTest.code → p.loopExit i = .found f →
      (p.loopStart f = .found i ↔
        (∀ k, i + 1 ≤ k → k ≤ f - 2 → p.fetch? k ≠ some Instruction.loopTest.code) ∧
          (f = i + 2 ∨ p.fetch? (i + 1) ≠ some Instruction.loopEnd.code))) ∧
    ∀ r s, r < p.length → p.fetch? r = some Instruction.loopEnd.code →
      p.loopStart r = .found s →
      (p.loopExit s = .found r ↔
        ∀ k, s + 2 ≤ k → k ≤ r - 1 → p.fetch? k ≠ some Instruction.loopEnd.code) := by
  constructor
  · intro i f hi hmark hexit
    obtain ⟨-, hle, -, hbefore⟩ := loopExit_found_iff.1 hexit
    rw [loopStart_loopExit_iff hi hmark hexit, mem_between_iff (by omega),
      mem_between_iff (by omega)]
    refine and_congr ?_ ?_
    · constructor
      · intro hnone k hk hkf hcode
        exact hnone ⟨k, hk, hkf, hcode⟩
      · rintro hnone ⟨k, hk, hkf, hcode⟩
        exact hnone k hk hkf hcode
    · constructor
      · intro hnone
        by_cases hnear : f = i + 2
        · exact .inl hnear
        · exact .inr fun hcode => hnone ⟨i + 1, by omega, by omega, hcode⟩
      · rintro hnext ⟨k, hk, hkf, hcode⟩
        have hfirst : k = i + 1 := by
          by_cases hlater : i + 2 ≤ k
          · exact absurd hcode (hbefore k hlater (by omega))
          · omega
        subst hfirst
        rcases hnext with hnear | hnext
        · omega
        · exact hnext hcode
  · intro r s hr hend hstart
    have hsought := loopStart_sought p r
    rw [hstart] at hsought
    cases hsought with
    | found h hs hlast hmark =>
      have hnonneg := hs.nonneg
      have hle := hs.le
      rw [loopExit_found_iff]
      constructor
      · rintro ⟨-, -, -, hbefore⟩ k hk hkr
        exact hbefore k hk (by omega)
      · intro hbefore
        refine ⟨by omega, by omega, hend, fun k hk hkr => ?_⟩
        exact hbefore k hk (by omega)

theorem searches_are_inverse_on_flat_loops_beside_marks :
    let near : Program := [7, 7, 0, 255]
    let apart : Program := [7, 0, 6, 0, 255]
    let nested : Program := [7, 2, 7, 6, 0, 1, 5, 0, 255]
    (near.loopExit 0 = .found 2 ∧ near.loopStart 2 = .found 0) ∧
      (apart.loopExit 0 = .found 3 ∧ apart.loopStart 3 ≠ .found 0) ∧
        nested.loopStart 7 = .found 0 ∧ nested.loopExit 0 ≠ .found 7 := by
  intro near apart nested
  have hnear : near.loopExit 0 = .found 2 := by decide
  have hapart : apart.loopExit 0 = .found 3 := by decide
  have hnested : nested.loopStart 7 = .found 0 := by decide
  refine ⟨⟨hnear, ?_⟩, ⟨hapart, ?_⟩, hnested, ?_⟩
  · have hback := (searches_are_inverse_on_flat_loops near).1 0 2 (by decide) (by decide) hnear
    exact hback.2 ⟨fun k hk hle => by omega, .inl rfl⟩
  · have hback := (searches_are_inverse_on_flat_loops apart).1 0 3 (by decide) (by decide) hapart
    intro hfound
    exact absurd (hback.1 hfound).2 (by decide)
  · have hforward :=
      (searches_are_inverse_on_flat_loops nested).2 7 0 (by decide) (by decide) hnested
    intro hfound
    exact hforward.1 hfound 4 (by decide) (by decide) (by decide)

end CowMachine.Program
