import CowMachine.Source

/-!
# Lines and columns

The line of an offset in a text counts the newlines before it, and the column
its distance from the last of them. Reading on from the beginning of a text
keeps to both, and no two offsets have the same line and column.
-/

set_option autoImplicit false

namespace CowMachine.Source

def LastNewline (t : Text) (j : Nat) : Prop :=
  t[j]? = some '\n' ∧ ∀ i, j < i → t[i]? ≠ some '\n'

namespace LastNewline

variable {t front back : Text} {i j : Nat}

theorem unique (hi : LastNewline t i) (hj : LastNewline t j) : i = j := by
  rcases Nat.lt_trichotomy i j with h | h | h
  · exact absurd hj.1 (hi.2 j h)
  · exact h
  · exact absurd hi.1 (hj.2 i h)

theorem lt_length (h : LastNewline t j) : j < t.length := (List.getElem?_eq_some_iff.1 h.1).1

theorem mem (h : LastNewline t j) : '\n' ∈ t := List.mem_of_getElem? h.1

theorem append (h : LastNewline front j) (hback : '\n' ∉ back) :
    LastNewline (front ++ back) j := by
  refine ⟨?_, ?_⟩
  · rw [List.getElem?_append_left h.lt_length]
    exact h.1
  · intro i hi hnewline
    by_cases hlt : i < front.length
    · rw [List.getElem?_append_left hlt] at hnewline
      exact h.2 i hi hnewline
    · rw [List.getElem?_append_right (by omega)] at hnewline
      exact hback (List.mem_of_getElem? hnewline)

theorem concat (t : Text) : LastNewline (t ++ ['\n']) t.length := by
  refine ⟨List.getElem?_concat_length, ?_⟩
  intro i hi hnewline
  have hlt := (List.getElem?_eq_some_iff.1 hnewline).1
  rw [List.length_append, List.length_singleton] at hlt
  omega

end LastNewline

theorem exists_last_newline {t : Text} (h : '\n' ∈ t) :
    ∃ front back, t = front ++ ['\n'] ++ back ∧ '\n' ∉ back := by
  obtain ⟨back, front, hsplit, hback⟩ := List.eq_append_cons_of_mem (List.mem_reverse.2 h)
  refine ⟨front.reverse, back.reverse, ?_, by simpa using hback⟩
  rw [← List.reverse_reverse t, hsplit]
  simp

namespace Position

theorem past_append (p : Position) (front back : Text) :
    p.past (front ++ back) = (p.past front).past back :=
  List.foldl_append

theorem line_past (p : Position) (t : Text) : (p.past t).line = p.line + t.count '\n' := by
  induction t generalizing p with
  | nil => rfl
  | cons c t ih =>
    have hpast : p.past (c :: t) = (p.next c).past t := rfl
    rw [hpast, ih, next]
    by_cases hc : c = '\n'
    · rw [if_pos hc, hc, List.count_cons_self, Nat.add_right_comm, Nat.add_assoc]
    · rw [if_neg hc, List.count_cons_of_ne hc]

theorem past_newline (p : Position) (t : Text) :
    p.past (t ++ ['\n']) = ⟨p.line + t.count '\n' + 1, 1⟩ := by
  rw [← line_past, past_append]
  rfl

theorem past_same_line {t : Text} (h : '\n' ∉ t) (p : Position) :
    p.past t = ⟨p.line, p.column + t.length⟩ := by
  induction t generalizing p with
  | nil => rfl
  | cons c t ih =>
    obtain ⟨hc, ht⟩ := not_or.1 (mt List.mem_cons.2 h)
    have hpast : p.past (c :: t) = (p.next c).past t := rfl
    rw [hpast, ih ht, next, if_neg (Ne.symm hc), List.length_cons, Nat.add_assoc,
      Nat.add_comm 1]

/-- The line and the column of an offset in a text. -/
structure At (p : Position) (t : Text) (k : Nat) : Prop where
  line : p.line = 1 + (t.take k).count '\n'
  column : (∃ j, LastNewline (t.take k) j ∧ p.column = k - j) ∨
    '\n' ∉ t.take k ∧ p.column = k + 1

theorem at_past (front back : Text) : (start.past front).At (front ++ back) front.length := by
  refine ⟨?_, ?_⟩ <;> rw [List.take_left]
  · exact line_past start front
  · by_cases h : '\n' ∈ front
    · obtain ⟨before, behind, rfl, hbehind⟩ := exists_last_newline h
      refine .inl ⟨before.length, (LastNewline.concat before).append hbehind, ?_⟩
      rw [past_append, past_newline, past_same_line hbehind]
      simp only [List.length_append, List.length_singleton]
      omega
    · refine .inr ⟨h, ?_⟩
      rw [past_same_line h, Nat.add_comm]
      rfl

theorem At.offset_eq_of_le {p : Position} {t : Text} {k l : Nat} (hk : p.At t k)
    (hl : p.At t l) (hle : k ≤ l) : k = l := by
  obtain ⟨d, rfl⟩ := Nat.exists_eq_add_of_le hle
  have hline := hk.line.symm.trans hl.line
  have hcolumn := hl.column
  rw [List.take_add] at hline hcolumn
  rw [List.count_append] at hline
  have hbetween : '\n' ∉ (t.drop k).take d := List.count_eq_zero.1 (by omega)
  rcases hk.column with ⟨i, hi, hki⟩ | ⟨hnone, hki⟩
  · rcases hcolumn with ⟨j, hj, hlj⟩ | ⟨hnone, -⟩
    · obtain rfl := (hi.append hbetween).unique hj
      have hlt := hi.lt_length
      rw [List.length_take] at hlt
      omega
    · exact absurd (List.mem_append_left _ hi.mem) hnone
  · rcases hcolumn with ⟨j, hj, -⟩ | ⟨-, hlj⟩
    · rcases List.mem_append.1 hj.mem with h | h
      · exact absurd h hnone
      · exact absurd h hbetween
    · omega

/-- Different offsets differ in their line or in their column. -/
theorem At.unique {p : Position} {t : Text} {k l : Nat} (hk : p.At t k) (hl : p.At t l) :
    k = l := by
  rcases Nat.le_total k l with h | h
  · exact hk.offset_eq_of_le hl h
  · exact (hl.offset_eq_of_le hk h).symm

end Position

end CowMachine.Source
