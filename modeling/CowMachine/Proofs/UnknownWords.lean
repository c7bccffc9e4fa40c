import CowMachine.Proofs.Grammar
import CowMachine.Proofs.Positions

/-!
# Where loading fails

The loader reports the first word that is no mnemonic. The text before that
word is a source in its own right, of the instructions issued so far, and the
word is as long as a word can be at its place. The reported line and column are
those of the word, and of no other offset in the text.
-/

set_option autoImplicit false

namespace CowMachine.Source

def Runs (t w : Text) : Prop := w <+: t ∧ w.length ≤ 3 ∧ ∀ c ∈ w, c ∉ Text.blanks

structure LongestRun (t w : Text) : Prop where
  runs : Runs t w
  longest : ∀ v, Runs t v → v.length ≤ w.length

theorem isBlank_eq_false_iff (c : Char) : Text.isBlank c = false ↔ c ∉ Text.blanks := by
  rw [← Bool.not_eq_true]
  exact not_congr (isBlank_iff c)

theorem prefix_takeWhile_iff {p : Char → Bool} {w t : Text} :
    w <+: t.takeWhile p ↔ w <+: t ∧ ∀ c ∈ w, p c = true := by
  constructor
  · intro h
    refine ⟨h.trans (List.takeWhile_prefix p), fun c hc => ?_⟩
    exact List.all_eq_true.1 List.all_takeWhile c (h.subset hc)
  · rintro ⟨⟨rest, rfl⟩, hw⟩
    rw [List.takeWhile_append_of_pos hw]
    exact List.prefix_append _ _

theorem prefix_wordRest_iff {w t : Text} :
    w <+: wordRest t ↔ w <+: t ∧ w.length ≤ 2 ∧ ∀ c ∈ w, c ∉ Text.blanks := by
  have hblank : (∀ c ∈ w, (!Text.isBlank c) = true) ↔ ∀ c ∈ w, c ∉ Text.blanks := by
    simp only [Bool.not_eq_true', isBlank_eq_false_iff]
  rw [wordRest, prefix_takeWhile_iff, List.prefix_take_iff, hblank, and_assoc]
  rfl

theorem runs_cons_iff {c : Char} {t w : Text} (hc : c ∉ Text.blanks) :
    Runs (c :: t) (c :: w) ↔ w <+: wordRest t := by
  rw [prefix_wordRest_iff, Runs, List.cons_prefix_cons, List.length_cons, List.forall_mem_cons]
  constructor
  · rintro ⟨⟨-, hw⟩, hlength, -, hblank⟩
    exact ⟨hw, by omega, hblank⟩
  · rintro ⟨hw, hlength, hblank⟩
    exact ⟨⟨rfl, hw⟩, by omega, hc, hblank⟩

theorem longestRun_word {c : Char} (hc : c ∉ Text.blanks) (t : Text) :
    LongestRun (c :: t) (c :: wordRest t) := by
  refine ⟨(runs_cons_iff hc).2 List.prefix_rfl, ?_⟩
  intro v hv
  rcases List.prefix_cons_iff.1 hv.1 with rfl | ⟨w, rfl, -⟩
  · exact Nat.zero_le _
  · exact Nat.succ_le_succ ((runs_cons_iff hc).1 hv).length_le

/-- The text before the word that the loader reports, and the word itself. -/
structure Stops (p : Position) (t front : Text) (issued : List Instruction) (u : UnknownWord) :
    Prop where
  split : ∃ c rest, t = front ++ c :: rest ∧ c ∉ Text.blanks ∧ c ≠ ';' ∧ c ≠ '/' ∧
    u.word = c :: wordRest rest
  spells : Spells front issued
  position : u.position = p.past front
  unknown : Instruction.ofMnemonic? u.word = none

namespace Stops

variable {p : Position} {t front : Text} {issued : List Instruction} {u : UnknownWord}

theorem blank {c : Char} (hc : Text.isBlank c = true)
    (h : Stops (p.past [c]) t front issued u) : Stops p (c :: t) (c :: front) issued u := by
  obtain ⟨d, rest, rfl, hd⟩ := h.split
  exact ⟨⟨d, rest, rfl, hd⟩, .blank ((isBlank_iff c).1 hc) h.spells, h.position, h.unknown⟩

theorem comment {mark : Char} {body : Text} (hm : mark = ';' ∨ mark = '/')
    (hb : ∀ c ∈ body, c ≠ '\r' ∧ c ≠ '\n') (hr : ∀ c ∈ t.head?, c = '\r' ∨ c = '\n')
    (h : Stops (p.past (mark :: body)) t front issued u) :
    Stops p (mark :: body ++ t) (mark :: body ++ front) issued u := by
  obtain ⟨d, rest, rfl, hd⟩ := h.split
  refine ⟨⟨d, rest, by simp, hd⟩, .comment hm hb ?_ h.spells, ?_, h.unknown⟩
  · intro c hc
    apply hr c
    rw [List.head?_append, Option.mem_def.1 hc]
    rfl
  · rw [h.position, Position.past_append]

theorem mnemonic {i : Instruction} (h : Stops (p.past i.mnemonic) t front issued u) :
    Stops p (i.mnemonic ++ t) (i.mnemonic ++ front) (i :: issued) u := by
  obtain ⟨d, rest, rfl, hd⟩ := h.split
  refine ⟨⟨d, rest, by simp, hd⟩, .mnemonic i h.spells, ?_, h.unknown⟩
  rw [h.position, Position.past_append]

end Stops

theorem stops_of_unknown {t : Text} {p : Position} {u : UnknownWord}
    (h : (Listing.ofItems p (items t)).unknown = some u) :
    ∃ front, Stops p t front (Listing.ofItems p (items t)).issued u := by
  fun_induction items t generalizing p with
  | case1 => cases h
  | case2 c rest hc ih =>
    obtain ⟨front, hstops⟩ := ih h
    exact ⟨c :: front, hstops.blank hc⟩
  | case3 c rest hc hm ih =>
    obtain ⟨front, hstops⟩ := ih h
    obtain ⟨hb, hr⟩ := commentBody_ends rest
    have hcomment := hstops.comment ((isCommentMark_iff c).1 hm) hb hr
    rw [List.cons_append, commentBody_append] at hcomment
    exact ⟨_, hcomment⟩
  | case4 c rest hc hm ih =>
    simp only [Listing.ofItems] at h ⊢
    cases hi : Instruction.ofMnemonic? (c :: wordRest rest) with
    | none =>
      simp only [hi, Option.some.injEq] at h
      obtain rfl := h
      obtain ⟨hsemicolon, hslash⟩ := not_or.1 (mt (isCommentMark_iff c).2 hm)
      have hblank := (isBlank_eq_false_iff c).1 (by simpa using hc)
      exact ⟨[], ⟨c, rest, rfl, hblank, hsemicolon, hslash, rfl⟩, .nil, rfl, hi⟩
    | some i =>
      simp only [hi] at h ⊢
      obtain ⟨front, hstops⟩ := ih h
      have hword := Instruction.ofMnemonic?_eq_some_iff.1 hi
      rw [← hword] at hstops
      have hmnemonic := hstops.mnemonic
      rw [hword, List.cons_append, wordRest_append] at hmnemonic
      exact ⟨_, hmnemonic⟩

/-- Where a text does not load, the reported line and column belong to a single
offset with the reported word. The word there begins where neither a blank nor a
comment does, is as long as it can be and no mnemonic, and the text before it
loads as the instructions that were issued. -/
theorem unknown_word_is_first {t : Text} {u : UnknownWord}
    (h : (Listing.ofText t).program = .error u) :
    ∃ k, (∀ l, u.position.At t l ∧ (t.drop l).take u.word.length = u.word ↔ l = k) ∧
      (∃ c, t[k]? = some c ∧ c ∉ Text.blanks ∧ c ≠ ';' ∧ c ≠ '/') ∧
      LongestRun (t.drop k) u.word ∧ (∀ i : Instruction, i.mnemonic ≠ u.word) ∧
      (Listing.ofText (t.take k)).program =
        .ok ((Listing.ofText t).issued.map Instruction.code ++ [stopCode]) := by
  obtain ⟨front, hstops⟩ := stops_of_unknown (Listing.program_eq_error_iff.1 h)
  obtain ⟨c, rest, rfl, hblank, hsemicolon, hslash, hword⟩ := hstops.split
  have hrun := longestRun_word hblank rest
  rw [← hword] at hrun
  have hat : u.position.At (front ++ c :: rest) front.length := by
    rw [hstops.position]
    exact Position.at_past front _
  refine ⟨front.length, ?_, ⟨c, ?_, hblank, hsemicolon, hslash⟩, ?_, ?_, ?_⟩
  · intro l
    constructor
    · rintro ⟨hl, -⟩
      exact hl.unique hat
    · rintro rfl
      refine ⟨hat, ?_⟩
      rw [List.drop_left]
      exact (List.prefix_iff_eq_take.1 hrun.runs.1).symm
  · simp
  · rw [List.drop_left]
    exact hrun
  · intro i hi
    have hnone := hstops.unknown
    rw [← hi, Instruction.ofMnemonic?_mnemonic] at hnone
    cases hnone
  · rw [List.take_left]
    exact (loaded_iff _ _).2 ⟨_, hstops.spells, rfl⟩

theorem unknown_word_is_first_behind_comment :
    let t := "MoO ;x\r\n\tMo;OOM".toList
    let u : UnknownWord := ⟨['M', 'o', ';'], ⟨2, 2⟩⟩
    (Listing.ofText t).program = .error u ∧
    ∃ k, (∀ l, u.position.At t l ∧ (t.drop l).take u.word.length = u.word ↔ l = k) ∧
      (∃ c, t[k]? = some c ∧ c ∉ Text.blanks ∧ c ≠ ';' ∧ c ≠ '/') ∧
      LongestRun (t.drop k) u.word ∧ (∀ i : Instruction, i.mnemonic ≠ u.word) ∧
      (Listing.ofText (t.take k)).program = .ok [6, 255] := by
  have hlisting : Listing.ofText "MoO ;x\r\n\tMo;OOM".toList =
      ⟨[.increment], some ⟨['M', 'o', ';'], ⟨2, 2⟩⟩⟩ := by cbv
  have hload : (Listing.ofText "MoO ;x\r\n\tMo;OOM".toList).program =
      .error ⟨['M', 'o', ';'], ⟨2, 2⟩⟩ := by
    rw [hlisting]
    rfl
  have hfirst := unknown_word_is_first hload
  rw [hlisting] at hfirst
  exact ⟨hload, hfirst⟩

end CowMachine.Source
