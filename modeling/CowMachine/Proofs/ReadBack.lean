import CowMachine.Proofs.WordReading

/-!
# Printed numbers read again

A number is printed on a line of its own, and a line end is a blank. So the lines
of some numbers, given as an input, are read as these numbers, one word each, and
nothing is left. Any other blanks do as well: of those behind a number the first is
taken with it and the others are passed over by the next read. What can be read is
within the limit on digits and can be printed again.
-/

set_option autoImplicit false

namespace CowMachine

namespace Text

abbrev Spaced := Int × Text

/-- The number can be printed, and there is a blank behind it. -/
def Spaced.Apart (item : Spaced) : Prop :=
  Printable item.1 ∧ item.2 ≠ [] ∧ ∀ c ∈ item.2, isBlank c = true

def Spaced.text (items : List Spaced) : Text := items.flatMap fun item => decimal item.1 ++ item.2

def Spaced.trail : Text → List Spaced → Text
  | front, [] => front
  | _, item :: items => trail item.2.tail items

theorem Spaced.trail_blank {front : Text} {items : List Spaced}
    (hfront : ∀ c ∈ front, isBlank c = true) (hitems : ∀ item ∈ items, item.Apart) :
    ∀ c ∈ trail front items, isBlank c = true := by
  induction items generalizing front with
  | nil => exact hfront
  | cons item items ih =>
    have hitem := hitems item (by simp)
    exact ih (fun c hc => hitem.2.2 c (List.mem_of_mem_tail hc)) fun i hi => hitems i (by simp [hi])

def Spaced.lines (vs : List Int) : List Spaced := vs.map fun v => (v, ['\n'])

theorem Spaced.trail_lines (vs : List Int) : trail [] (lines vs) = [] := by
  induction vs with
  | nil => rfl
  | cons v vs ih => exact ih

theorem Spaced.numbers_lines (vs : List Int) : (lines vs).map Prod.fst = vs := by
  rw [lines, List.map_map]
  exact List.map_id vs

theorem Spaced.apart_lines {vs : List Int} (h : ∀ v ∈ vs, Printable v) :
    ∀ item ∈ lines vs, item.Apart := by
  intro item hitem
  obtain ⟨v, hv, rfl⟩ := List.mem_map.1 hitem
  exact ⟨h v hv, List.cons_ne_nil _ _, fun c hc => List.mem_singleton.1 hc ▸ rfl⟩

theorem longest_front {p : Char → Bool} {front rest : Text} (hfront : ∀ c ∈ front, p c = true)
    (hrest : ∀ c ∈ rest.head?, p c = false) : Longest p (front ++ rest) front := by
  have h := longest_takeWhile p (front ++ rest)
  rwa [takeWhile_front hfront hrest] at h

theorem mem_of_head? {front rest : Text} {c : Char} (hne : front ≠ [])
    (hc : c ∈ (front ++ rest).head?) : c ∈ front := by
  cases front with
  | nil => exact absurd rfl hne
  | cons d front => exact Option.some.inj hc ▸ List.mem_cons_self

theorem cut_word {front word behind : Text} (hfront : ∀ c ∈ front, isBlank c = true)
    (hword : word ≠ []) (hsolid : ∀ c ∈ word, isBlank c = false)
    (hbehind : ∀ c ∈ behind.head?, isBlank c = true) :
    Cut (front ++ (word ++ behind)) front word behind := by
  refine ⟨rfl, longest_front hfront fun c hc => ?_, longest_front (by simpa using hsolid) ?_⟩
  · exact hsolid c (mem_of_head? hword hc)
  · intro c hc
    simp [hbehind c hc]

theorem cut_decimal {front : Text} {item : Spaced} (hfront : ∀ c ∈ front, isBlank c = true)
    (hitem : item.Apart) (rest : Text) :
    Cut (front ++ (decimal item.1 ++ (item.2 ++ rest))) front (decimal item.1)
      (item.2 ++ rest) := by
  obtain ⟨-, hne, hblank⟩ := hitem
  obtain ⟨hword, hsolid⟩ := decimal_solid item.1
  exact cut_word hfront hword hsolid fun c hc => hblank c (mem_of_head? hne hc)

theorem cut_blank {s : Text} (h : ∀ c ∈ s, isBlank c = true) : Cut s s [] [] := by
  have hlongest : Longest isBlank (s ++ []) s := longest_front h (by simp)
  rw [List.append_nil] at hlongest
  exact ⟨(List.append_nil s).symm, hlongest, longest_takeWhile _ []⟩

end Text

namespace Terminal

variable {t u : Terminal} {v : Int} {vs : List Int}

def readNumbers : Nat → Terminal → Except Fault (List Int) × Terminal
  | 0, t => (.ok [], t)
  | n + 1, t =>
    match t.readNumber with
    | (.error fault, t) => (.error fault, t)
    | (.ok v, t) =>
      let (answer, t) := readNumbers n t
      (answer.map (v :: ·), t)

def writeNumbers (t : Terminal) (vs : List Int) : Except Fault Terminal := vs.foldlM writeNumber t

theorem readNumber_of_cut {s blanks word behind : Text} (t : Terminal)
    (h : Text.Cut s blanks word behind) (hword : word ≠ []) (hv : Text.Denotes word v) :
    (t.withText s).readNumber = (.ok v, t.withText behind.tail) := by
  have hread : (⟨s, .finished⟩ : Input).readNumber = (.ok v, ⟨behind.tail, .finished⟩) :=
    Prod.ext ((Input.readNumber_ok_iff h hword).2 hv) (Input.readNumber_snd_of_cut h)
  rw [readNumber, withText, hread]
  rfl

theorem readNumber_blank {s : Text} (t : Terminal) (h : ∀ c ∈ s, Text.isBlank c = true) :
    (t.withText s).readNumber.1 = .error (.abort .numberMissing) :=
  (Input.readNumber_error_iff rfl).2 (.inl ⟨Input.token_of_cut (Text.cut_blank h), rfl⟩)

theorem readNumbers_spaced {front : Text} {items : List Text.Spaced} (t : Terminal)
    (hfront : ∀ c ∈ front, Text.isBlank c = true) (hitems : ∀ item ∈ items, item.Apart) :
    (t.withText (front ++ Text.Spaced.text items)).readNumbers items.length =
      (.ok (items.map Prod.fst), t.withText (Text.Spaced.trail front items)) := by
  induction items generalizing front with
  | nil =>
    rw [Text.Spaced.text, List.flatMap_nil, List.append_nil]
    rfl
  | cons item items ih =>
    have hitem := hitems item (by simp)
    have htext : Text.Spaced.text (item :: items) =
        Text.decimal item.1 ++ (item.2 ++ Text.Spaced.text items) := List.append_assoc _ _ _
    have hread := readNumber_of_cut t
      (Text.cut_decimal hfront hitem (Text.Spaced.text items)) (Text.decimal_solid item.1).1
      (Text.denotes_decimal hitem.1)
    rw [List.tail_append_of_ne_nil hitem.2.1] at hread
    have hblank : ∀ c ∈ item.2.tail, Text.isBlank c = true :=
      fun c hc => hitem.2.2 c (List.mem_of_mem_tail hc)
    rw [htext, List.length_cons, readNumbers, hread]
    dsimp only
    rw [ih hblank fun i hi => hitems i (by simp [hi])]
    rfl

theorem writeNumber_of_printable (t : Terminal) (h : Text.Printable v) :
    t.writeNumber v = .ok (t.print (.line (.text (Text.decimal v)))) := by
  rw [writeNumber, Text.decimal?, if_pos h]
  rfl

theorem output_print (t : Terminal) (content : Text) :
    (t.print (.line (.text content))).output = t.output ++ (content ++ ['\n']) := by
  simp [output, lines, Printed.line?, Line.render]

theorem writeNumbers_of_printable (t : Terminal) (h : ∀ v ∈ vs, Text.Printable v) :
    ∃ u, t.writeNumbers vs = .ok u ∧
      u.output = t.output ++ Text.Spaced.text (Text.Spaced.lines vs) := by
  induction vs generalizing t with
  | nil => exact ⟨t, rfl, (List.append_nil _).symm⟩
  | cons v vs ih =>
    obtain ⟨u, hwrite, houtput⟩ := ih (t.print (.line (.text (Text.decimal v))))
      fun w hw => h w (by simp [hw])
    refine ⟨u, ?_, ?_⟩
    · rw [writeNumbers, List.foldlM_cons, writeNumber_of_printable t (h v (by simp))]
      exact hwrite
    · rw [houtput, output_print, List.append_assoc]
      rfl

theorem printable_of_writeNumbers (h : t.writeNumbers vs = .ok u) :
    ∀ v ∈ vs, Text.Printable v := by
  induction vs generalizing t with
  | nil => simp
  | cons v vs ih =>
    rw [writeNumbers, List.foldlM_cons] at h
    by_cases hv : Text.Printable v
    · rw [writeNumber_of_printable t hv] at h
      exact List.forall_mem_cons.2 ⟨hv, ih h⟩
    · rw [writeNumber_error_iff.2 ⟨hv, rfl⟩] at h
      cases h

theorem denotes_of_readNumber (h : t.readNumber = (.ok v, u)) : ∃ word, Text.Denotes word v := by
  have hread : t.input.readNumber.1 = .ok v := congrArg Prod.fst h
  rw [Input.readNumber] at hread
  split at hread
  · cases hread
  · cases hread
  · rename_i word _ _ _
    cases hvalue : Text.numeral? word with
    | none =>
      rw [hvalue] at hread
      cases hread
    | some w =>
      rw [hvalue] at hread
      obtain rfl := Except.ok.inj hread
      exact ⟨word, Text.numeral?_eq_some_iff.1 hvalue⟩

end Terminal

/-- The numbers that can be printed are those within the limit on digits. The text
printed, given as an input, is read as the same numbers, after which the input is
empty and no number is found. With any blanks in front and between, only blanks are
left. Every number that can be read can be printed. -/
theorem printed_numbers_are_read_back (terminal : Terminal) :
    (∀ vs, (∃ u, terminal.writeNumbers vs = .ok u) ↔ ∀ v ∈ vs, Text.Printable v) ∧
    (∀ vs u, terminal.writeNumbers vs = .ok u →
      let text := Text.Spaced.text (Text.Spaced.lines vs)
      u.output = terminal.output ++ text ∧
      (terminal.withText text).readNumbers vs.length = (.ok vs, terminal.withText []) ∧
      (terminal.withText []).readNumber.1 = .error (.abort .numberMissing)) ∧
    (∀ front items, (∀ c ∈ front, Text.isBlank c = true) →
      (∀ item ∈ items, Text.Spaced.Apart item) →
      ∃ trail, (∀ c ∈ trail, Text.isBlank c = true) ∧
        (terminal.withText (front ++ Text.Spaced.text items)).readNumbers items.length =
          (.ok (items.map Prod.fst), terminal.withText trail) ∧
        (terminal.withText trail).readNumber.1 = .error (.abort .numberMissing)) ∧
    ∀ (t u : Terminal) v, t.readNumber = (.ok v, u) → ∃ w, terminal.writeNumber v = .ok w := by
  refine ⟨fun vs => ⟨?_, fun h => ?_⟩, ?_, ?_, ?_⟩
  · rintro ⟨u, h⟩
    exact Terminal.printable_of_writeNumbers h
  · obtain ⟨u, hu, -⟩ := terminal.writeNumbers_of_printable h
    exact ⟨u, hu⟩
  · intro vs u h
    have hprintable := Terminal.printable_of_writeNumbers h
    obtain ⟨u', hu', houtput⟩ := terminal.writeNumbers_of_printable hprintable
    obtain rfl := Except.ok.inj (h.symm.trans hu')
    have hlength : (Text.Spaced.lines vs).length = vs.length := List.length_map _
    have hempty : ∀ c ∈ ([] : Text), Text.isBlank c = true := by simp
    have hread := terminal.readNumbers_spaced hempty (Text.Spaced.apart_lines hprintable)
    rw [Text.Spaced.trail_lines, Text.Spaced.numbers_lines, hlength] at hread
    exact ⟨houtput, hread, terminal.readNumber_blank hempty⟩
  · intro front items hfront hitems
    have hblank := Text.Spaced.trail_blank hfront hitems
    exact ⟨_, hblank, Terminal.readNumbers_spaced terminal hfront hitems,
      terminal.readNumber_blank hblank⟩
  · intro t u v h
    obtain ⟨word, hv⟩ := Terminal.denotes_of_readNumber h
    exact ⟨_, terminal.writeNumber_of_printable hv.printable⟩

theorem printed_numbers_are_read_back_across_blanks :
    let t := Terminal.ofInput (.ofText [] false)
    let vs : List Int := [-12, 0, 7]
    (∃ u, t.writeNumbers vs = .ok u ∧ u.output = "-12\n0\n7\n".toList) ∧
    (t.withText "-12\n0\n7\n".toList).readNumbers 3 = (.ok vs, t.withText []) ∧
    ∃ trail, (t.withText "\t -12\r\n0 7  ".toList).readNumbers 3 = (.ok vs, t.withText trail) ∧
      (t.withText trail).readNumber.1 = .error (.abort .numberMissing) := by
  intro t vs
  obtain ⟨haccepts, hlines, hspaced, -⟩ := printed_numbers_are_read_back t
  obtain ⟨u, hu⟩ := (haccepts vs).2 (by decide)
  obtain ⟨houtput, hread, -⟩ := hlines vs u hu
  have htext : Text.Spaced.text (Text.Spaced.lines vs) = "-12\n0\n7\n".toList := by decide
  rw [htext] at houtput hread
  have hitems : ∀ item ∈ [(-12, ['\r', '\n']), (0, [' ']), (7, [' ', ' '])],
      Text.Spaced.Apart item := by
    intro item hitem
    simp only [List.mem_cons, List.not_mem_nil, or_false] at hitem
    rcases hitem with rfl | rfl | rfl <;>
      exact ⟨by decide, by decide, List.all_eq_true.1 rfl⟩
  obtain ⟨trail, -, hread', hmissing⟩ :=
    hspaced ['\t', ' '] _ (List.all_eq_true.1 rfl) hitems
  exact ⟨⟨u, hu, houtput⟩, hread, trail, hread', hmissing⟩

end CowMachine
