import CowMachine.Proofs.Grammar

/-!
# Codes written out and loaded again

A list of codes is written by their names, with separators in front of each and
behind the last. A separator is any row of blanks and closed comments, and may
be empty: names are told apart by their size alone. Whatever the separators,
the loader finds the same codes again.
-/

set_option autoImplicit false

namespace CowMachine.Source

inductive Separates : Text → Prop
  | nil : Separates []
  | blank {c : Char} {rest : Text} (hc : c ∈ [' ', '\t', '\r', '\n', '\x0c', '\x0b'])
      (h : Separates rest) : Separates (c :: rest)
  | comment {mark lineEnd : Char} {body rest : Text} (hm : mark = ';' ∨ mark = '/')
      (hb : ∀ c ∈ body, c ≠ '\r' ∧ c ≠ '\n') (he : lineEnd = '\r' ∨ lineEnd = '\n')
      (h : Separates rest) : Separates (mark :: body ++ lineEnd :: rest)

/-- What may stand behind the last name: a comment there need not be closed. -/
inductive Trails : Text → Prop
  | closed {t : Text} (h : Separates t) : Trails t
  | comment {t body : Text} {mark : Char} (h : Separates t) (hm : mark = ';' ∨ mark = '/')
      (hb : ∀ c ∈ body, c ≠ '\r' ∧ c ≠ '\n') : Trails (t ++ mark :: body)

def written (row : List (Text × Int)) (trail : Text) : Text :=
  row.flatMap (fun entry => entry.1 ++ codeName entry.2) ++ trail

theorem codeName_code (i : Instruction) : codeName i.code = i.mnemonic := by
  rw [codeName, Instruction.ofCode?_code]

theorem written_cons (s : Text) (code : Int) (row : List (Text × Int)) (trail : Text) :
    written ((s, code) :: row) trail = s ++ (codeName code ++ written row trail) := by
  simp only [written, List.flatMap_cons, List.append_assoc]

variable {s t : Text} {issued : List Instruction}

theorem Separates.spells (hs : Separates s) (ht : Spells t issued) : Spells (s ++ t) issued := by
  induction hs with
  | nil => exact ht
  | blank hc _ ih => exact .blank hc ih
  | @comment mark lineEnd body rest hm hb he _ ih =>
    have hblank : lineEnd ∈ [' ', '\t', '\r', '\n', '\x0c', '\x0b'] := by
      rcases he with rfl | rfl <;> decide
    have hhead : ∀ c ∈ (lineEnd :: (rest ++ t)).head?, c = '\r' ∨ c = '\n' := by
      rintro c ⟨⟩
      exact he
    rw [List.append_assoc]
    exact .comment hm hb hhead (.blank hblank ih)

theorem Trails.spells (h : Trails t) : Spells t [] := by
  cases h with
  | closed h => simpa using h.spells .nil
  | comment h hm hb =>
    apply h.spells
    simpa using Spells.comment hm hb (by simp) .nil

theorem spells_written {row : List (Text × Int)} {trail : Text}
    (hrow : ∀ entry ∈ row, Separates entry.1 ∧ 0 ≤ entry.2 ∧ entry.2 ≤ 11)
    (htrail : Trails trail) :
    ∃ issued, Spells (written row trail) issued ∧
      issued.map Instruction.code = row.map Prod.snd := by
  induction row with
  | nil => exact ⟨[], htrail.spells, rfl⟩
  | cons entry row ih =>
    obtain ⟨s, code⟩ := entry
    obtain ⟨hs, hlow, hhigh⟩ := hrow (s, code) (by simp)
    obtain ⟨i, rfl⟩ := Instruction.exists_code_eq hlow hhigh
    obtain ⟨issued, hspells, hcodes⟩ := ih fun e he => hrow e (by simp [he])
    refine ⟨i :: issued, ?_, by simp [hcodes]⟩
    rw [written_cons, codeName_code]
    exact hs.spells (.mnemonic i hspells)

theorem loaded_written {row : List (Text × Int)} {trail : Text}
    (hrow : ∀ entry ∈ row, Separates entry.1 ∧ 0 ≤ entry.2 ∧ entry.2 ≤ 11)
    (htrail : Trails trail) :
    (Listing.ofText (written row trail)).program = .ok (row.map Prod.snd ++ [stopCode]) := by
  obtain ⟨issued, hspells, hcodes⟩ := spells_written hrow htrail
  exact (loaded_iff _ _).2 ⟨issued, hspells, by rw [hcodes]⟩

theorem written_side_by_side (codes : List Int) :
    written (codes.map fun code => ([], code)) [] = codes.flatMap codeName := by
  simp [written, List.flatMap_map]

theorem loaded_names {codes : List Int} (h : ∀ code ∈ codes, 0 ≤ code ∧ code ≤ 11) :
    (Listing.ofText (codes.flatMap codeName)).program = .ok (codes ++ [stopCode]) := by
  have hrow : ∀ entry ∈ codes.map fun code => (([] : Text), code),
      Separates entry.1 ∧ 0 ≤ entry.2 ∧ entry.2 ≤ 11 := by
    intro entry hentry
    obtain ⟨code, hcode, rfl⟩ := List.mem_map.1 hentry
    exact ⟨.nil, h code hcode⟩
  have hload := loaded_written hrow (.closed .nil)
  rw [written_side_by_side] at hload
  simpa only [List.map_map, Function.comp_def, List.map_id'] using hload

/-- Codes of instructions, written by their names with any separators, load as
these codes and the stop code. So the codes of a text that loads, written side
by side, load as the same program. -/
theorem written_codes_load_again :
    (∀ (row : List (Text × Int)) (trail : Text),
      (∀ entry ∈ row, Separates entry.1 ∧ 0 ≤ entry.2 ∧ entry.2 ≤ 11) → Trails trail →
        (Listing.ofText (written row trail)).program = .ok (row.map Prod.snd ++ [stopCode])) ∧
    ∀ (t : Text) (p : Program), (Listing.ofText t).program = .ok p →
      (Listing.ofText (p.dropLast.flatMap codeName)).program = .ok p := by
  constructor
  · intro row trail hrow htrail
    exact loaded_written hrow htrail
  · intro t p hload
    obtain ⟨issued, -, rfl⟩ := (loaded_iff t p).1 hload
    obtain ⟨-, -, hrange⟩ := codes_shape issued
    rw [List.dropLast_concat] at hrange ⊢
    exact loaded_names hrange

theorem written_codes_load_again_with_comments :
    let row : List (Text × Int) := [(";moo\r".toList, 6), ([], 10), ("/x\n ".toList, 3)]
    written row "\t;oom".toList = ";moo\rMoOOOM/x\n mOO\t;oom".toList ∧
    (Listing.ofText (written row "\t;oom".toList)).program = .ok [6, 10, 3, 255] ∧
    (Listing.ofText "MoO ; up\nOOM".toList).program = .ok [6, 10, 255] ∧
    (Listing.ofText "MoOOOM".toList).program = .ok [6, 10, 255] := by
  intro row
  have hrow : ∀ entry ∈ row, Separates entry.1 ∧ 0 ≤ entry.2 ∧ entry.2 ≤ 11 := by
    have hfirst : Separates ([';', 'm', 'o', 'o'] ++ '\r' :: []) :=
      .comment (.inl rfl) (commentBody_ends ['m', 'o', 'o']).1 (.inl rfl) .nil
    have hthird : Separates (['/', 'x'] ++ '\n' :: [' ']) :=
      .comment (.inr rfl) (commentBody_ends ['x']).1 (.inr rfl) (.blank (by decide) .nil)
    simp only [row, List.forall_mem_cons]
    exact ⟨⟨hfirst, by decide⟩, ⟨.nil, by decide⟩, ⟨hthird, by decide⟩, nofun⟩
  have htrail : Trails (['\t'] ++ ';' :: ['o', 'o', 'm']) :=
    .comment (.blank (by decide) .nil) (.inl rfl) (commentBody_ends ['o', 'o', 'm']).1
  have hload : (Listing.ofText "MoO ; up\nOOM".toList).program = .ok [6, 10, 255] := by cbv
  exact ⟨by decide, written_codes_load_again.1 row _ hrow htrail, hload,
    written_codes_load_again.2 _ _ hload⟩

end CowMachine.Source
