import CowMachine.Source

/-!
# The grammar of sources

A source is any row of blanks, comments and mnemonics. The grammar says so
without saying where to cut: a comment only has to reach the end of its line,
and a mnemonic needs no blank on either side. The loader cuts greedily, and a
word of three characters is all it can take where a mnemonic begins, so both
agree on every text.
-/

set_option autoImplicit false

namespace CowMachine.Source

/-- The text is a row of items, and its mnemonics name the instructions. -/
inductive Spells : Text → List Instruction → Prop
  | nil : Spells [] []
  | blank {c : Char} {rest : Text} {issued : List Instruction}
      (hc : c ∈ [' ', '\t', '\r', '\n', '\x0c', '\x0b']) (h : Spells rest issued) :
      Spells (c :: rest) issued
  | comment {mark : Char} {body rest : Text} {issued : List Instruction}
      (hm : mark = ';' ∨ mark = '/') (hb : ∀ c ∈ body, c ≠ '\r' ∧ c ≠ '\n')
      (hr : ∀ c ∈ rest.head?, c = '\r' ∨ c = '\n') (h : Spells rest issued) :
      Spells (mark :: body ++ rest) issued
  | mnemonic (i : Instruction) {rest : Text} {issued : List Instruction}
      (h : Spells rest issued) : Spells (i.mnemonic ++ rest) (i :: issued)

theorem isBlank_iff (c : Char) :
    Text.isBlank c = true ↔ c ∈ [' ', '\t', '\r', '\n', '\x0c', '\x0b'] :=
  List.contains_iff_mem

theorem isCommentMark_iff (c : Char) : isCommentMark c = true ↔ c = ';' ∨ c = '/' := by
  simp [isCommentMark, commentMarks]

theorem isLineEnd_iff (c : Char) : Text.isLineEnd c = true ↔ c = '\r' ∨ c = '\n' := by
  simp [Text.isLineEnd]

theorem items_blank {c : Char} (hc : Text.isBlank c = true) (rest : Text) :
    items (c :: rest) = .blank c :: items rest := by
  rw [items, if_pos hc]

theorem commentBody_eq {body rest : Text} (hb : ∀ c ∈ body, c ≠ '\r' ∧ c ≠ '\n')
    (hr : ∀ c ∈ rest.head?, c = '\r' ∨ c = '\n') : commentBody (body ++ rest) = body := by
  induction body with
  | nil =>
    cases rest with
    | nil => rfl
    | cons c rest =>
      have hc := (isLineEnd_iff c).2 (hr c rfl)
      simp [commentBody, hc]
  | cons c body ih =>
    have hc : Text.isLineEnd c = false := by
      simpa [Text.isLineEnd] using hb c (by simp)
    have ih := ih fun d hd => hb d (by simp [hd])
    rw [List.cons_append, commentBody, List.takeWhile_cons_of_pos (by simp [hc])]
    exact congrArg (c :: ·) ih

theorem items_comment {mark : Char} {body rest : Text} (hm : mark = ';' ∨ mark = '/')
    (hb : ∀ c ∈ body, c ≠ '\r' ∧ c ≠ '\n') (hr : ∀ c ∈ rest.head?, c = '\r' ∨ c = '\n') :
    items (mark :: body ++ rest) = .comment mark body :: items rest := by
  have hblank : ¬Text.isBlank mark = true := by
    rcases hm with rfl | rfl <;> decide
  rw [List.cons_append, items, if_neg hblank, if_pos ((isCommentMark_iff mark).2 hm),
    commentBody_eq hb hr, List.drop_left]

theorem mnemonic_chars (i : Instruction) : ∃ a b c, i.mnemonic = [a, b, c] ∧
    isCommentMark a = false ∧ Text.isBlank a = false ∧ Text.isBlank b = false ∧
      Text.isBlank c = false := by
  cases i <;> exact ⟨_, _, _, rfl, by decide⟩

theorem items_mnemonic (i : Instruction) (rest : Text) :
    items (i.mnemonic ++ rest) = .word i.mnemonic :: items rest := by
  obtain ⟨a, b, c, hi, hm, ha, hb, hc⟩ := mnemonic_chars i
  have hw : wordRest (b :: c :: rest) = [b, c] := by
    simp [wordRest, wordSize, hb, hc]
  rw [hi, List.cons_append, items, if_neg (by simp [ha]), if_neg (by simp [hm])]
  simp only [List.cons_append, List.nil_append, hw]
  rfl

theorem Spells.ofItems {t : Text} {issued : List Instruction} (h : Spells t issued)
    (p : Position) : Listing.ofItems p (items t) = ⟨issued, none⟩ := by
  induction h generalizing p with
  | nil =>
    rw [items]
    rfl
  | blank hc h ih =>
    rw [items_blank ((isBlank_iff _).2 hc)]
    exact ih _
  | comment hm hb hr h ih =>
    rw [items_comment hm hb hr]
    exact ih _
  | mnemonic i h ih =>
    rw [items_mnemonic, Listing.ofItems, Instruction.ofMnemonic?_mnemonic, ih]

theorem commentBody_ends (t : Text) : (∀ c ∈ commentBody t, c ≠ '\r' ∧ c ≠ '\n') ∧
    ∀ c ∈ (t.drop (commentBody t).length).head?, c = '\r' ∨ c = '\n' := by
  induction t with
  | nil => simp [commentBody]
  | cons c t ih =>
    by_cases hc : Text.isLineEnd c = true
    · have hb : commentBody (c :: t) = [] := by simp [commentBody, hc]
      simpa [hb] using (isLineEnd_iff c).1 hc
    · have hb : commentBody (c :: t) = c :: commentBody t := by simp [commentBody, hc]
      rw [isLineEnd_iff, not_or] at hc
      rw [hb]
      exact ⟨List.forall_mem_cons.2 ⟨hc, ih.1⟩, ih.2⟩

theorem spells_issued (t : Text) (p : Position)
    (h : (Listing.ofItems p (items t)).unknown = none) :
    Spells t (Listing.ofItems p (items t)).issued := by
  fun_induction items t generalizing p with
  | case1 => exact .nil
  | case2 c rest hc ih => exact .blank ((isBlank_iff c).1 hc) (ih _ h)
  | case3 c rest hc hm ih =>
    obtain ⟨hb, hr⟩ := commentBody_ends rest
    have hs := Spells.comment ((isCommentMark_iff c).1 hm) hb hr (ih _ h)
    rw [List.cons_append, commentBody_append] at hs
    exact hs
  | case4 c rest hc hm ih =>
    simp only [Listing.ofItems] at h ⊢
    cases hi : Instruction.ofMnemonic? (c :: wordRest rest) with
    | none => simp [hi] at h
    | some i =>
      simp only [hi] at h ⊢
      have hs := Spells.mnemonic i (ih _ h)
      rw [Instruction.ofMnemonic?_eq_some_iff.1 hi, List.cons_append, wordRest_append] at hs
      exact hs

theorem ofText_eq_iff (t : Text) (issued : List Instruction) :
    Listing.ofText t = ⟨issued, none⟩ ↔ Spells t issued := by
  constructor
  · intro h
    have hs := spells_issued t .start (congrArg Listing.unknown h)
    rwa [show Listing.ofItems .start (items t) = ⟨issued, none⟩ from h] at hs
  · intro h
    exact h.ofItems .start

theorem loaded_iff (t : Text) (p : Program) : (Listing.ofText t).program = .ok p ↔
    ∃ issued, Spells t issued ∧ p = issued.map Instruction.code ++ [stopCode] := by
  simp only [← ofText_eq_iff, Listing.program_eq_ok_iff]
  constructor
  · rintro ⟨hu, rfl⟩
    exact ⟨(Listing.ofText t).issued, by rw [← hu], rfl⟩
  · rintro ⟨issued, h, rfl⟩
    rw [h]
    exact ⟨rfl, rfl⟩

theorem codes_shape (issued : List Instruction) :
    let p : Program := issued.map Instruction.code ++ [stopCode]
    p.count stopCode = 1 ∧ p.getLast? = some stopCode ∧
      ∀ code ∈ p.dropLast, 0 ≤ code ∧ code ≤ 11 := by
  have hstop : stopCode ∉ issued.map Instruction.code := by
    intro hm
    obtain ⟨i, -, hi⟩ := List.mem_map.1 hm
    exact i.code_ne_stopCode hi
  refine ⟨?_, List.getLast?_concat, ?_⟩
  · rw [List.count_append, List.count_eq_zero_of_not_mem hstop]
    rfl
  · intro code hm
    rw [List.dropLast_concat] at hm
    obtain ⟨i, -, rfl⟩ := List.mem_map.1 hm
    cases i <;> decide

/-- The loader accepts the grammar and nothing else, with the codes of the
mnemonics in order and the stop code behind them. -/
theorem load_accepts_grammar (t : Text) :
    (∀ codes : List Int, (Listing.ofText t).program = .ok (codes ++ [stopCode]) ↔
      ∃ issued, Spells t issued ∧ codes = issued.map Instruction.code) ∧
    ((∃ issued, Spells t issued ∧ (Listing.ofText t).program =
        .ok (issued.map Instruction.code ++ [stopCode])) ∨
      (∃ unknown, (Listing.ofText t).program = .error unknown) ∧ ¬∃ issued, Spells t issued) ∧
    ∀ p, (Listing.ofText t).program = .ok p →
      p.count stopCode = 1 ∧ p.getLast? = some stopCode ∧
        ∀ code ∈ p.dropLast, 0 ≤ code ∧ code ≤ 11 := by
  refine ⟨?_, ?_, ?_⟩
  · intro codes
    rw [loaded_iff]
    simp only [List.append_cancel_right_eq]
  · cases h : (Listing.ofText t).program with
    | ok p =>
      obtain ⟨issued, hs, rfl⟩ := (loaded_iff t p).1 h
      exact .inl ⟨issued, hs, rfl⟩
    | error unknown =>
      refine .inr ⟨⟨unknown, rfl⟩, ?_⟩
      rintro ⟨issued, hs⟩
      have hok := (loaded_iff t _).2 ⟨issued, hs, rfl⟩
      simp [h] at hok
  · intro p h
    obtain ⟨issued, -, rfl⟩ := (loaded_iff t p).1 h
    exact codes_shape issued

end CowMachine.Source
