import CowMachine.Proofs.Grammar
import CowMachine.Proofs.Positions

/-!
# Sources joined by a newline

A line end closes whatever comment or word stands before it and opens nothing
itself, so a text is cut before it and behind it as the two parts would be cut
alone. Joined by a newline, two sources load as their instructions one after
the other. The first unknown word is that of the first part, or that of the
second as many lines further down as the first part takes.
-/

set_option autoImplicit false

namespace CowMachine.Source

theorem isBlank_of_isLineEnd {c : Char} (h : Text.isLineEnd c = true) :
    Text.isBlank c = true := by
  rcases (isLineEnd_iff c).1 h with rfl | rfl <;> decide

theorem takeWhile_append_stop {p : Char → Bool} {c : Char} (hc : p c = false)
    (front back : Text) : (front ++ c :: back).takeWhile p = front.takeWhile p := by
  induction front with
  | nil => simp [hc]
  | cons d front ih =>
    rw [List.cons_append, List.takeWhile_cons, List.takeWhile_cons, ih]

section

variable {c : Char} (hc : Text.isLineEnd c = true)

include hc

theorem commentBody_append_lineEnd (front back : Text) :
    commentBody (front ++ c :: back) = commentBody front :=
  takeWhile_append_stop (by simp [hc]) front back

theorem wordRest_append_lineEnd (front back : Text) :
    wordRest (front ++ c :: back) = wordRest front := by
  rw [wordRest, wordRest, List.take_append]
  cases wordSize - 1 - front.length with
  | zero => rw [List.take_zero, List.append_nil]
  | succ n =>
    rw [List.take_succ_cons]
    exact takeWhile_append_stop (by simp [isBlank_of_isLineEnd hc]) _ _

theorem items_append_lineEnd (front back : Text) :
    items (front ++ c :: back) = items front ++ .blank c :: items back := by
  fun_induction items front with
  | case1 => exact items_blank (isBlank_of_isLineEnd hc) back
  | case2 d rest hd ih =>
    rw [List.cons_append, items_blank hd, ih]
    rfl
  | case3 d rest hd hm ih =>
    have hlength : (commentBody rest).length ≤ rest.length :=
      (List.takeWhile_prefix _).length_le
    rw [List.cons_append, items, if_neg hd, if_pos hm, commentBody_append_lineEnd hc,
      List.drop_append_of_le_length hlength, ih]
    rfl
  | case4 d rest hd hm ih =>
    have hlength : (wordRest rest).length ≤ rest.length :=
      ((List.takeWhile_prefix _).trans (List.take_prefix _ _)).length_le
    rw [List.cons_append, items, if_neg hd, if_neg hm, wordRest_append_lineEnd hc,
      List.drop_append_of_le_length hlength, ih]
    rfl

end

def Position.below (n : Nat) (p : Position) : Position := ⟨p.line + n, p.column⟩

def UnknownWord.below (n : Nat) (u : UnknownWord) : UnknownWord :=
  { u with position := u.position.below n }

namespace Position

theorem next_below (n : Nat) (p : Position) (c : Char) :
    (p.below n).next c = (p.next c).below n := by
  by_cases hc : c = '\n'
  · simp only [next, if_pos hc, below, Nat.add_right_comm]
  · simp only [next, if_neg hc, below]

theorem past_below (n : Nat) (p : Position) (t : Text) :
    (p.below n).past t = (p.past t).below n := by
  induction t generalizing p with
  | nil => rfl
  | cons c t ih =>
    have hpast (q : Position) : q.past (c :: t) = (q.next c).past t := rfl
    rw [hpast, hpast, next_below, ih]

end Position

namespace Listing

def below (n : Nat) (l : Listing) : Listing := { l with unknown := l.unknown.map (·.below n) }

/-- Nothing is issued behind an unknown word. -/
def followedBy (l next : Listing) : Listing :=
  match l.unknown with
  | none => ⟨l.issued ++ next.issued, next.unknown⟩
  | some u => ⟨l.issued, some u⟩

theorem followedBy_of_known {l : Listing} (h : l.unknown = none) (next : Listing) :
    l.followedBy next = ⟨l.issued ++ next.issued, next.unknown⟩ := by
  rw [followedBy, h]

theorem followedBy_of_unknown {l : Listing} {u : UnknownWord} (h : l.unknown = some u)
    (next : Listing) : l.followedBy next = l := by
  obtain ⟨issued, unknown⟩ := l
  obtain rfl : unknown = some u := h
  rfl

theorem followedBy_cons (i : Instruction) (issued : List Instruction)
    (unknown : Option UnknownWord) (next : Listing) :
    followedBy ⟨i :: issued, unknown⟩ next =
      ⟨i :: (followedBy ⟨issued, unknown⟩ next).issued,
        (followedBy ⟨issued, unknown⟩ next).unknown⟩ := by
  cases unknown <;> rfl

theorem ofItems_below (n : Nat) (p : Position) (xs : List Item) :
    ofItems (p.below n) xs = (ofItems p xs).below n := by
  induction xs generalizing p with
  | nil => rfl
  | cons x xs ih =>
    cases x with
    | blank | comment => exact (congrArg (ofItems · xs) (p.past_below n _)).trans (ih _)
    | word w =>
      rw [ofItems, ofItems, Position.past_below, ih]
      cases Instruction.ofMnemonic? w <;> rfl

theorem ofItems_append (p : Position) (xs ys : List Item) :
    ofItems p (xs ++ ys) =
      (ofItems p xs).followedBy (ofItems (p.past (xs.flatMap Item.text)) ys) := by
  induction xs generalizing p with
  | nil => rfl
  | cons x xs ih =>
    rw [List.flatMap_cons, Position.past_append, List.cons_append]
    cases x with
    | blank | comment => exact ih _
    | word w =>
      rw [ofItems, ofItems, ih]
      cases Instruction.ofMnemonic? w with
      | none => rfl
      | some i => exact (followedBy_cons i _ _ _).symm

theorem ofItems_lineEnd {c : Char} (hc : Text.isLineEnd c = true) (p : Position)
    (front back : Text) : ofItems p (items (front ++ c :: back)) =
      (ofItems p (items front)).followedBy (ofItems ((p.past front).past [c]) (items back)) := by
  rw [items_append_lineEnd hc, ofItems_append, flatMap_text_items]
  rfl

theorem ofText_join (front back : Text) : ofText (front ++ '\n' :: back) =
    (ofText front).followedBy ((ofText back).below (1 + front.count '\n')) := by
  have hstart : ((Position.start.past front).past ['\n']) =
      Position.start.below (1 + front.count '\n') := by
    rw [← Position.past_append, Position.past_newline]
    simp only [Position.below, Position.start, Nat.add_comm, Nat.add_left_comm]
  rw [ofText, ofItems_lineEnd rfl, hstart, ofItems_below]
  rfl

end Listing

/-- Joined by a newline, two texts that load do so as one program after the
other without the stop code between. A first part that does not load fails as it
does alone. A second part that does not load fails at the same word and column,
below the lines of the first. -/
theorem joined_texts_load_in_turn (a b : Text) :
    (∀ p q, (Listing.ofText a).program = .ok p → (Listing.ofText b).program = .ok q →
      (Listing.ofText (a ++ '\n' :: b)).program = .ok (p.dropLast ++ q)) ∧
    (∀ u, (Listing.ofText a).program = .error u →
      (Listing.ofText (a ++ '\n' :: b)).program = .error u) ∧
    ∀ p u, (Listing.ofText a).program = .ok p → (Listing.ofText b).program = .error u →
      (Listing.ofText (a ++ '\n' :: b)).program =
        .error ⟨u.word, ⟨u.position.line + 1 + a.count '\n', u.position.column⟩⟩ := by
  rw [Listing.ofText_join]
  refine ⟨?_, ?_, ?_⟩
  · intro p q ha hb
    obtain ⟨hknown, rfl⟩ := Listing.program_eq_ok_iff.1 ha
    obtain ⟨hknown', rfl⟩ := Listing.program_eq_ok_iff.1 hb
    rw [Listing.followedBy_of_known hknown, Listing.program_eq_ok_iff]
    constructor
    · rw [Listing.below, hknown']
      rfl
    · simp [Listing.codes, Listing.below]
  · intro u ha
    have hunknown := Listing.program_eq_error_iff.1 ha
    rw [Listing.followedBy_of_unknown hunknown, ha]
  · intro p u ha hb
    obtain ⟨hknown, -⟩ := Listing.program_eq_ok_iff.1 ha
    have hunknown := Listing.program_eq_error_iff.1 hb
    rw [Listing.followedBy_of_known hknown, Listing.program_eq_error_iff, Listing.below,
      hunknown, Nat.add_assoc]
    rfl

theorem joined_texts_load_in_turn_at_open_comment :
    (Listing.ofText "MoO ;\n/x\nOOM".toList).program = .ok [6, 10, 255] ∧
    (Listing.ofText "Mo\noOOM".toList).program = .error ⟨['M', 'o'], ⟨1, 1⟩⟩ ∧
    (Listing.ofText "MoO ;\n/x\n OO\nM".toList).program = .error ⟨['O', 'O'], ⟨3, 2⟩⟩ := by
  have hopen : (Listing.ofText "MoO ;\n/x".toList).program = .ok [6, 255] := by cbv
  have hprint : (Listing.ofText "OOM".toList).program = .ok [10, 255] := by cbv
  have hshort : (Listing.ofText "Mo".toList).program = .error ⟨['M', 'o'], ⟨1, 1⟩⟩ := by cbv
  have hlater : (Listing.ofText " OO\nM".toList).program = .error ⟨['O', 'O'], ⟨1, 2⟩⟩ := by cbv
  exact ⟨(joined_texts_load_in_turn _ _).1 _ _ hopen hprint,
    (joined_texts_load_in_turn _ "oOOM".toList).2.1 _ hshort,
    (joined_texts_load_in_turn _ _).2.2 _ _ hopen hlater⟩

end CowMachine.Source
