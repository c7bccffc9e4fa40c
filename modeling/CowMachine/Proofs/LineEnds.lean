import CowMachine.Proofs.Joining
import CowMachine.Source

/-!
# Files and their line ends

A file is read with every line end as a newline. A carriage return is a blank
and closes a comment as a newline does, so the words of a source are the same
with and without that. Only their places can differ: a carriage return that no
newline follows begins a line where it is read as a newline, and else does not.
What is no ASCII can stand in a comment alone, and it makes no difference there.
-/

set_option autoImplicit false

namespace CowMachine.Source

inductive Folded : Text → Text → Prop
  | plain {t : Text} (h : '\r' ∉ t) : Folded t t
  | pair {front back folded : Text} (h : '\r' ∉ front) (hback : Folded back folded) :
      Folded (front ++ '\r' :: '\n' :: back) (front ++ '\n' :: folded)
  | alone {front back folded : Text} (h : '\r' ∉ front) (hnext : back.head? ≠ some '\n')
      (hback : Folded back folded) : Folded (front ++ '\r' :: back) (front ++ '\n' :: folded)

theorem Folded.cons {c : Char} (hc : c ≠ '\r') {t u : Text} (h : Folded t u) :
    Folded (c :: t) (c :: u) := by
  have hmem {front : Text} (hfront : '\r' ∉ front) : '\r' ∉ c :: front := by
    rw [List.mem_cons, not_or]
    exact ⟨hc.symm, hfront⟩
  cases h with
  | plain h => exact .plain (hmem h)
  | pair h hback => exact .pair (hmem h) hback
  | alone h hnext hback => exact .alone (hmem h) hnext hback

theorem folded_foldNewlines (t : Text) : Folded t (Text.foldNewlines t) := by
  have hnil : '\r' ∉ ([] : Text) := List.not_mem_nil
  fun_induction Text.foldNewlines t with
  | case1 => exact .plain hnil
  | case2 rest ih => exact Folded.pair hnil ih
  | case3 rest hnext ih =>
    refine Folded.alone hnil (fun hhead => ?_) ih
    obtain ⟨back, rfl⟩ := List.head?_eq_some_iff.1 hhead
    exact hnext back rfl
  | case4 c rest _ hc ih => exact ih.cons hc

namespace Listing

/-- A listing without the place of its unknown word. -/
def unplaced (l : Listing) : List Instruction × Option Text :=
  (l.issued, l.unknown.map UnknownWord.word)

theorem unplaced_followedBy {l l' next next' : Listing} (hl : l.unplaced = l'.unplaced)
    (hnext : next.unplaced = next'.unplaced) :
    (l.followedBy next).unplaced = (l'.followedBy next').unplaced := by
  obtain ⟨issued, unknown⟩ := l
  obtain ⟨issued', unknown'⟩ := l'
  obtain ⟨hissued, hunknown⟩ := Prod.mk.inj hl
  obtain ⟨hissued', hunknown'⟩ := Prod.mk.inj hnext
  dsimp only at hissued hunknown
  subst hissued
  cases unknown with
  | none =>
    cases unknown' with
    | none => exact Prod.ext (congrArg (issued ++ ·) hissued') hunknown'
    | some u => cases hunknown
  | some u =>
    cases unknown' with
    | none => cases hunknown
    | some v => exact congrArg (Prod.mk issued) hunknown

theorem unplaced_ofItems (p q : Position) (xs : List Item) :
    (ofItems p xs).unplaced = (ofItems q xs).unplaced := by
  induction xs generalizing p q with
  | nil => rfl
  | cons x xs ih =>
    cases x with
    | blank | comment => exact ih _ _
    | word w =>
      rw [ofItems, ofItems]
      cases Instruction.ofMnemonic? w with
      | none => rfl
      | some i =>
        obtain ⟨hissued, hunknown⟩ := Prod.mk.inj (ih (p.past w) (q.past w))
        exact Prod.ext (congrArg (i :: ·) hissued) hunknown

theorem program_ok_of_unplaced {l l' : Listing} (h : l.unplaced = l'.unplaced) (p : Program) :
    l.program = .ok p ↔ l'.program = .ok p := by
  obtain ⟨hissued, hunknown⟩ := Prod.mk.inj h
  rw [program_eq_ok_iff, program_eq_ok_iff, codes, codes, hissued,
    ← Option.map_eq_none_iff, hunknown, Option.map_eq_none_iff]

theorem word_of_unplaced {l l' : Listing} (h : l.unplaced = l'.unplaced) {u v : UnknownWord}
    (hu : l.program = .error u) (hv : l'.program = .error v) : u.word = v.word := by
  have hunknown := (Prod.mk.inj h).2
  rw [program_eq_error_iff.1 hu, program_eq_error_iff.1 hv] at hunknown
  exact Option.some.inj hunknown

end Listing

def PairedReturns (t : Text) : Prop := ∀ k, t[k]? = some '\r' → t[k + 1]? = some '\n'

theorem PairedReturns.behind {front back : Text} (h : PairedReturns (front ++ back)) :
    PairedReturns back := by
  intro k hk
  have hfront := h (front.length + k)
  rw [Nat.add_assoc, List.getElem?_append_right (by omega),
    List.getElem?_append_right (by omega), Nat.add_sub_cancel_left,
    Nat.add_sub_cancel_left] at hfront
  exact hfront hk

namespace Folded

variable {t u : Text}

theorem unplaced_eq (h : Folded t u) (p q : Position) :
    (Listing.ofItems p (items t)).unplaced = (Listing.ofItems q (items u)).unplaced := by
  induction h generalizing p q with
  | plain => exact Listing.unplaced_ofItems p q _
  | pair _ _ ih =>
    rw [Listing.ofItems_lineEnd rfl, Listing.ofItems_lineEnd rfl, items_blank rfl]
    exact Listing.unplaced_followedBy (Listing.unplaced_ofItems p q _) (ih _ _)
  | alone _ _ _ ih =>
    rw [Listing.ofItems_lineEnd rfl, Listing.ofItems_lineEnd rfl]
    exact Listing.unplaced_followedBy (Listing.unplaced_ofItems p q _) (ih _ _)

theorem ofItems_eq (h : Folded t u) (hpaired : PairedReturns t) (p : Position) :
    Listing.ofItems p (items t) = Listing.ofItems p (items u) := by
  induction h generalizing p with
  | plain => rfl
  | @pair front back folded _ _ ih =>
    have hback : PairedReturns back := by
      have hpaired : PairedReturns ((front ++ ['\r', '\n']) ++ back) := by simpa using hpaired
      exact hpaired.behind
    rw [Listing.ofItems_lineEnd rfl, Listing.ofItems_lineEnd rfl, items_blank rfl]
    exact congrArg _ (ih hback _)
  | @alone front back _ _ hnext _ _ =>
    have hnewline := hpaired.behind 0 rfl
    rw [List.getElem?_cons_succ, ← List.head?_eq_getElem?] at hnewline
    exact absurd hnewline hnext

end Folded

structure IsComment (front : Text) (mark : Char) (body back : Text) : Prop where
  cut : items (front ++ (mark :: body ++ back)) =
    items front ++ .comment mark body :: items back
  mark : mark = ';' ∨ mark = '/'
  body : ∀ c ∈ body, c ≠ '\r' ∧ c ≠ '\n'
  ends : ∀ c ∈ back.head?, c = '\r' ∨ c = '\n'

/-- The character at this offset stands in a comment, behind the mark. -/
def InComment (t : Text) (k : Nat) : Prop :=
  ∃ front mark body back, t = front ++ (mark :: body ++ back) ∧
    IsComment front mark body back ∧ front.length < k ∧ k ≤ front.length + body.length

theorem InComment.behind {t : Text} {k : Nat} (h : InComment t k) (piece : Text) {item : Item}
    (hpiece : ∀ front, front <+: t → items (piece ++ front) = item :: items front) :
    InComment (piece ++ t) (k + piece.length) := by
  obtain ⟨front, mark, body, back, rfl, hcomment, hlow, hhigh⟩ := h
  have hcut : items ((piece ++ front) ++ (mark :: body ++ back)) =
      items (piece ++ front) ++ .comment mark body :: items back := by
    rw [List.append_assoc, hpiece _ List.prefix_rfl, hcomment.cut,
      hpiece front (List.prefix_append _ _)]
    rfl
  refine ⟨piece ++ front, mark, body, back, (List.append_assoc ..).symm,
    ⟨hcut, hcomment.mark, hcomment.body, hcomment.ends⟩, ?_, ?_⟩
  · rw [List.length_append]
    omega
  · rw [List.length_append]
    omega

theorem getElem?_append_cases {front back : Text} {k : Nat} {c : Char}
    (h : (front ++ back)[k]? = some c) :
    front[k]? = some c ∨ ∃ j, k = j + front.length ∧ back[j]? = some c := by
  by_cases hk : k < front.length
  · rw [List.getElem?_append_left hk] at h
    exact .inl h
  · rw [List.getElem?_append_right (by omega)] at h
    exact .inr ⟨k - front.length, by omega, h⟩

theorem inComment_of_replacement {t : Text} {issued : List Instruction} (h : Spells t issued)
    {k : Nat} (hk : t[k]? = some replacement) : InComment t k := by
  induction h generalizing k with
  | nil => cases hk
  | @blank c rest _ hc _ ih =>
    have hk : ([c] ++ rest)[k]? = some replacement := hk
    rcases getElem?_append_cases hk with hk | ⟨j, rfl, hj⟩
    · obtain rfl := List.mem_singleton.1 (List.mem_of_getElem? hk)
      exact absurd hc (by decide)
    · exact (ih hj).behind [c] fun front _ => items_blank ((isBlank_iff c).2 hc) front
  | @comment mark body rest _ hm hb hr _ ih =>
    rcases getElem?_append_cases hk with hj | ⟨j, rfl, hj⟩
    · cases k with
      | zero =>
        obtain rfl := Option.some.inj hj
        exact absurd hm (by decide)
      | succ j =>
        have hlt := (List.getElem?_eq_some_iff.1 hj).1
        rw [List.length_cons] at hlt
        have hcut : items (mark :: body ++ rest) =
            items [] ++ .comment mark body :: items rest := by
          rw [items_comment hm hb hr, items]
          rfl
        refine ⟨[], mark, body, rest, rfl, ⟨hcut, hm, hb, hr⟩, Nat.succ_pos j, ?_⟩
        rw [List.length_nil]
        omega
    · refine (ih hj).behind (mark :: body) fun front hprefix =>
        items_comment hm hb fun c hc => hr c ?_
      obtain ⟨behind, rfl⟩ := hprefix
      rw [List.head?_append, Option.mem_def.1 hc]
      rfl
  | @mnemonic i rest _ _ ih =>
    rcases getElem?_append_cases hk with hk | ⟨j, rfl, hj⟩
    · exact absurd (List.mem_of_getElem? hk) (by cases i <;> decide)
    · exact (ih hj).behind i.mnemonic fun front _ => items_mnemonic i front

def rawText (bytes : List UInt8) : Text := bytes.map decodeByte

theorem folded_fileText (bytes : List UInt8) : Folded (rawText bytes) (fileText bytes) :=
  folded_foldNewlines (rawText bytes)

theorem decodeByte_of_high {b : UInt8} (h : 0x80 ≤ b.toNat) : decodeByte b = replacement := by
  rw [decodeByte, if_neg (by omega)]

theorem eq_return_of_decodeByte {b : UInt8} (h : decodeByte b = '\r') : b = 0x0D := by
  have hascii : ∀ n, n < 0x80 → Char.ofNat n = '\r' → n = 0x0D := by decide
  rw [decodeByte] at h
  by_cases hb : b.toNat < 0x80
  · rw [if_pos hb] at h
    exact UInt8.toNat_inj.1 (hascii _ hb h)
  · rw [if_neg hb] at h
    exact absurd h (by decide)

theorem pairedReturns_rawText {bytes : List UInt8}
    (h : ∀ k : Nat, bytes[k]? = some (0x0D : UInt8) → bytes[k + 1]? = some (0x0A : UInt8)) :
    PairedReturns (rawText bytes) := by
  intro k hk
  rw [rawText, List.getElem?_map] at hk ⊢
  obtain ⟨b, hb, hreturn⟩ := Option.map_eq_some_iff.1 hk
  obtain rfl := eq_return_of_decodeByte hreturn
  rw [h k hb]
  rfl

/-- Two files that differ only in bytes that are no ASCII in either. -/
inductive SameAscii : List UInt8 → List UInt8 → Prop
  | nil : SameAscii [] []
  | same (b : UInt8) {bytes bytes' : List UInt8} (h : SameAscii bytes bytes') :
      SameAscii (b :: bytes) (b :: bytes')
  | other {b b' : UInt8} {bytes bytes' : List UInt8} (hb : 0x80 ≤ b.toNat)
      (hb' : 0x80 ≤ b'.toNat) (h : SameAscii bytes bytes') :
      SameAscii (b :: bytes) (b' :: bytes')

theorem SameAscii.rawText_eq {bytes bytes' : List UInt8} (h : SameAscii bytes bytes') :
    rawText bytes = rawText bytes' := by
  induction h with
  | nil => rfl
  | same b _ ih => exact congrArg (decodeByte b :: ·) ih
  | @other b b' _ _ hb hb' _ ih =>
    rw [rawText, List.map_cons, decodeByte_of_high hb, ← decodeByte_of_high hb']
    exact congrArg (decodeByte b' :: ·) ih

/-- A file loads as its bytes do without a change of line ends, and fails at the
same word, in the same place too where a newline follows every carriage return.
If it loads, what is no ASCII stands in comments, and other bytes that are no
ASCII can replace it in any file without a difference. -/
theorem file_loads_as_raw_text (bytes : List UInt8) :
    (∀ p, (Listing.ofBytes bytes).program = .ok p ↔
      (Listing.ofText (rawText bytes)).program = .ok p) ∧
    (∀ u v, (Listing.ofBytes bytes).program = .error u →
      (Listing.ofText (rawText bytes)).program = .error v → u.word = v.word) ∧
    ((∀ k : Nat, bytes[k]? = some (0x0D : UInt8) → bytes[k + 1]? = some (0x0A : UInt8)) →
      (Listing.ofBytes bytes).program = (Listing.ofText (rawText bytes)).program) ∧
    (∀ p, (Listing.ofBytes bytes).program = .ok p → ∀ (k : Nat) (b : UInt8),
      bytes[k]? = some b → 0x80 ≤ b.toNat → InComment (rawText bytes) k) ∧
    ∀ bytes', SameAscii bytes bytes' → Listing.ofBytes bytes = Listing.ofBytes bytes' := by
  have hfolded := folded_fileText bytes
  have hunplaced : (Listing.ofBytes bytes).unplaced = (Listing.ofText (rawText bytes)).unplaced :=
    (hfolded.unplaced_eq .start .start).symm
  refine ⟨Listing.program_ok_of_unplaced hunplaced, ?_, ?_, ?_, ?_⟩
  · intro u v hu hv
    exact Listing.word_of_unplaced hunplaced hu hv
  · intro hpaired
    have hlisting : Listing.ofText (rawText bytes) = Listing.ofBytes bytes :=
      hfolded.ofItems_eq (pairedReturns_rawText hpaired) .start
    rw [hlisting]
  · intro p hload k b hb hhigh
    rw [Listing.program_ok_of_unplaced hunplaced, loaded_iff] at hload
    obtain ⟨issued, hspells, -⟩ := hload
    apply inComment_of_replacement hspells
    rw [rawText, List.getElem?_map, hb, Option.map_some, decodeByte_of_high hhigh]
  · intro bytes' hsame
    have htexts : fileText bytes = fileText bytes' := congrArg Text.foldNewlines hsame.rawText_eq
    exact congrArg Listing.ofText htexts

theorem file_loads_as_raw_text_with_returns :
    let commented : List UInt8 := [0x3B, 0xC3, 0xA9, 0x0D, 0x4D, 0x6F, 0x4F]
    let alone : List UInt8 := [0x0D, 0x4D, 0x6F]
    let paired : List UInt8 := [0x0D, 0x0A, 0x4D, 0x6F]
    (Listing.ofText (rawText commented)).program = .ok [6, 255] ∧
    InComment (rawText commented) 2 ∧
    Listing.ofBytes commented = Listing.ofBytes [0x3B, 0xFF, 0x80, 0x0D, 0x4D, 0x6F, 0x4F] ∧
    (Listing.ofBytes alone).program = .error ⟨['M', 'o'], ⟨2, 1⟩⟩ ∧
    (Listing.ofText (rawText alone)).program = .error ⟨['M', 'o'], ⟨1, 2⟩⟩ ∧
    (Listing.ofText (rawText paired)).program = .error ⟨['M', 'o'], ⟨2, 1⟩⟩ := by
  intro commented alone paired
  have hcomment : (Listing.ofText ";��\nMoO".toList).program = .ok [6, 255] := by cbv
  have hsecond : (Listing.ofText "\nMo".toList).program = .error ⟨['M', 'o'], ⟨2, 1⟩⟩ := by cbv
  have hfirst : (Listing.ofText "\rMo".toList).program = .error ⟨['M', 'o'], ⟨1, 2⟩⟩ := by cbv
  rw [show ";��\nMoO".toList = fileText commented by decide] at hcomment
  rw [show "\rMo".toList = rawText alone by decide] at hfirst
  have halone : (Listing.ofBytes alone).program = .error ⟨['M', 'o'], ⟨2, 1⟩⟩ := by
    rw [Listing.ofBytes, show fileText alone = "\nMo".toList by decide, hsecond]
  have hpaired : (Listing.ofBytes paired).program = .error ⟨['M', 'o'], ⟨2, 1⟩⟩ := by
    rw [Listing.ofBytes, show fileText paired = "\nMo".toList by decide, hsecond]
  have hnewline : ∀ k : Nat, paired[k]? = some (0x0D : UInt8) →
      paired[k + 1]? = some (0x0A : UInt8) := by
    intro k hk
    rcases k with _ | _ | _ | _ | k
    · rfl
    · exact absurd hk (by decide)
    · exact absurd hk (by decide)
    · exact absurd hk (by decide)
    · cases hk
  have hascii : SameAscii commented [0x3B, 0xFF, 0x80, 0x0D, 0x4D, 0x6F, 0x4F] :=
    .same _ (.other (by decide) (by decide) (.other (by decide) (by decide)
      (.same _ (.same _ (.same _ (.same _ .nil))))))
  obtain ⟨hraw, -, -, hhigh, hsame⟩ := file_loads_as_raw_text commented
  refine ⟨(hraw _).1 hcomment, hhigh _ hcomment 2 0xA9 rfl (by decide), hsame _ hascii, halone,
    hfirst, ?_⟩
  rw [← (file_loads_as_raw_text paired).2.2.1 hnewline]
  exact hpaired

end CowMachine.Source
