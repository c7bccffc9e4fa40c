import CowMachine.Proofs.Legibility

/-!
# What a report tells

Memory is listed two cells to a line, a tab between them. No entry holds a tab,
so the lines fall apart again into the entries, one for each cell in order. In a
report of the whole state the memory ends at a line that is no line of memory, and
the lines behind it have words of their own before their numbers. No two numbers
have the same text, and none has the text of an empty register. So a report shows
which cells there are, where both pointers stand and what the register holds.
-/

set_option autoImplicit false

namespace CowMachine

namespace Text

theorem natural_inj {m n : Nat} (h : natural m = natural n) : m = n := by
  have hvalue := congrArg (Nat.ofDigitChars 10 · 0) h
  simpa only [natural, Nat.ofDigitChars_toDigits (by decide : 1 < 10) (by decide)] using hvalue

theorem notMem_natural {c : Char} (h : c.isDigit = false) (n : Nat) : c ∉ natural n := by
  intro hc
  have hdigit := Nat.isDigit_of_mem_toDigits (by decide : 0 < 10) (by decide) hc
  rw [h] at hdigit
  cases hdigit

theorem notMem_decimal {c : Char} (h : c.isDigit = false) (hsign : c ≠ '-') (v : Int) :
    c ∉ decimal v := by
  rw [decimal]
  split
  · rw [List.mem_cons, not_or]
    exact ⟨hsign, notMem_natural h _⟩
  · exact notMem_natural h _

theorem decimal_inj {v w : Int} (h : decimal v = decimal w) : v = w := by
  have hsign (n : Nat) : '-' ∉ natural n := notMem_natural (by decide) n
  rw [decimal, decimal] at h
  by_cases hv : v < 0
  · by_cases hw : w < 0
    · rw [if_pos hv, if_pos hw] at h
      have habs := natural_inj (List.cons.inj h).2
      omega
    · rw [if_pos hv, if_neg hw] at h
      exact absurd (h ▸ List.mem_cons_self) (hsign w.natAbs)
  · by_cases hw : w < 0
    · rw [if_neg hv, if_pos hw] at h
      exact absurd (h ▸ List.mem_cons_self) (hsign v.natAbs)
    · rw [if_neg hv, if_neg hw] at h
      have habs := natural_inj h
      omega

end Text

/-- Two spellings of one row, each cut where an element first stands, agree on both
sides of it. -/
theorem eq_of_cut {α : Type} {a : α} {xs ys front back : List α} (hx : a ∉ xs) (hy : a ∉ ys)
    (h : xs ++ a :: front = ys ++ a :: back) : xs = ys ∧ front = back := by
  have hempty {more zs ws : List α} (hcut : a :: zs = more ++ a :: ws) (hmore : a ∉ more) :
      more = [] := by
    cases more with
    | nil => rfl
    | cons b more =>
      rw [(List.cons.inj hcut).1] at hmore
      exact absurd List.mem_cons_self hmore
  rcases List.append_eq_append_iff.1 h with ⟨more, rfl, hcut⟩ | ⟨more, rfl, hcut⟩
  · obtain rfl := hempty hcut fun hm => hy (List.mem_append_right _ hm)
    exact ⟨(List.append_nil xs).symm, (List.cons.inj hcut).2⟩
  · obtain rfl := hempty hcut fun hm => hx (List.mem_append_right _ hm)
    exact ⟨List.append_nil ys, (List.cons.inj hcut).2.symm⟩

namespace Report

def entryText (index : Nat) (v : Int) : Text :=
  Text.natural index ++ ":  ".toList ++ Text.decimal v

def entries (cells : List Int) : List Text :=
  cells.zipIdx.map fun cell => entryText cell.2 cell.1

theorem entryText_inj {index : Nat} {v w : Int} (h : entryText index v = entryText index w) :
    v = w := by
  rw [entryText, entryText, List.append_cancel_left_eq] at h
  exact Text.decimal_inj h

theorem notMem_entryText {c : Char} (hdigit : c.isDigit = false) (hsign : c ≠ '-')
    (hcolon : c ∉ ":  ".toList) (index : Nat) (v : Int) : c ∉ entryText index v := by
  rw [entryText, List.mem_append, List.mem_append]
  rintro ((hc | hc) | hc)
  · exact Text.notMem_natural hdigit index hc
  · exact hcolon hc
  · exact Text.notMem_decimal hdigit hsign v hc

section

variable {cells others : List Int} {lines : List Text}

theorem length_entries (cells : List Int) : (entries cells).length = cells.length := by
  rw [entries, List.length_map, List.length_zipIdx]

theorem getElem?_entries (cells : List Int) (i : Nat) :
    (entries cells)[i]? = cells[i]?.map (entryText i) := by
  rw [entries, List.getElem?_map, List.getElem?_zipIdx, Option.map_map, Nat.zero_add]
  rfl

theorem notMem_of_mem_entries {c : Char} (hdigit : c.isDigit = false) (hsign : c ≠ '-')
    (hcolon : c ∉ ":  ".toList) : ∀ e ∈ entries cells, c ∉ e := by
  intro e he
  obtain ⟨cell, -, rfl⟩ := List.mem_map.1 he
  exact notMem_entryText hdigit hsign hcolon cell.2 cell.1

theorem entries_inj (h : entries cells = entries others) : cells = others := by
  apply List.ext_getElem?
  intro i
  have hi : (entries cells)[i]? = (entries others)[i]? := by rw [h]
  rw [getElem?_entries, getElem?_entries] at hi
  exact Option.map_injective (fun _ _ => entryText_inj) hi

theorem length_inPairs : ∀ es : List Text, (inPairs es).length = (es.length + 1) / 2
  | [] => rfl
  | [_] => by simp [inPairs]
  | a :: b :: rest => by
    rw [inPairs, List.length_cons, length_inPairs rest, List.length_cons, List.length_cons]
    omega

/-- The lines of memory, cut at their tabs, are the entries again. -/
theorem split_inPairs : ∀ {es : List Text}, (∀ e ∈ es, '\t' ∉ e) →
    (inPairs es).flatMap (List.splitOn '\t') = es
  | [], _ => rfl
  | [a], h => by
    have hline : inPairs [a] = [a] := rfl
    rw [hline, List.flatMap_singleton, List.splitOn_eq_singleton (h a (by simp))]
  | a :: b :: rest, h => by
    have hrest := split_inPairs fun e he => h e (List.mem_cons_of_mem a (List.mem_cons_of_mem b he))
    rw [inPairs, List.flatMap_cons, List.splitOn_append_cons_self,
      List.splitOn_eq_singleton (h a (by simp)), List.splitOn_eq_singleton (h b (by simp)), hrest]
    rfl

theorem split_inPairs_entries (cells : List Int) :
    (inPairs (entries cells)).flatMap (List.splitOn '\t') = entries cells :=
  split_inPairs (notMem_of_mem_entries (by decide) (by decide) (by decide))

theorem mapM_entry {rows : List (Int × Nat)} (h : ∀ cell ∈ rows, Text.Printable cell.1) :
    rows.mapM entry = .ok (rows.map fun cell => entryText cell.2 cell.1) := by
  induction rows with
  | nil => rfl
  | cons cell rows ih =>
    have hentry : entry cell = .ok (entryText cell.2 cell.1) := by
      rw [entry, number_of_printable (h cell (by simp))]
      rfl
    rw [List.mapM_cons, hentry, ih fun c hc => h c (by simp [hc])]
    rfl

theorem memory_eq (h : ∀ v ∈ cells, Text.Printable v) :
    memory cells = .ok (inPairs (entries cells)) := by
  rw [memory, mapM_entry fun cell hcell => h cell.1 (List.fst_mem_of_mem_zipIdx hcell)]
  rfl

theorem memory_eq_ok (h : memory cells = .ok lines) : lines = inPairs (entries cells) := by
  by_cases hcells : ∀ v ∈ cells, Text.Printable v
  · rw [memory_eq hcells] at h
    exact (Except.ok.inj h).symm
  · rw [(memory_written cells).2 hcells] at h
    cases h

theorem memory_error_iff :
    memory cells = .error .numberTooLong ↔ ∃ v ∈ cells, ¬Text.Printable v := by
  constructor
  · intro h
    by_contra hshort
    have hcells : ∀ v ∈ cells, Text.Printable v := by
      intro v hv
      by_contra hlong
      exact hshort ⟨v, hv, hlong⟩
    rw [memory_eq hcells] at h
    cases h
  · rintro ⟨v, hv, hlong⟩
    exact (memory_written cells).2 fun hcells => hlong (hcells v hv)

end

theorem number_eq_ok {v : Int} {digits : Text} (h : number v = .ok digits) :
    digits = Text.decimal v := by
  by_cases hv : Text.Printable v
  · rw [number_of_printable hv] at h
    exact (Except.ok.inj h).symm
  · rw [number_of_not_printable hv] at h
    cases h

theorem register_inj {r s : Register} {digits : Text} (hr : register r = .ok digits)
    (hs : register s = .ok digits) : r = s := by
  have hheld {v : Int} (h : register (some v) = .ok digits) : digits = Text.decimal v :=
    number_eq_ok h
  cases r with
  | none =>
    cases s with
    | none => rfl
    | some w =>
      obtain rfl := Except.ok.inj hr
      exact absurd (hheld hs).symm (Text.decimal_solid w).1
  | some v =>
    cases s with
    | none =>
      obtain rfl := Except.ok.inj hs
      exact absurd (hheld hr).symm (Text.decimal_solid v).1
    | some w => exact congrArg some (Text.decimal_inj ((hheld hr).symm.trans (hheld hs)))

def closingLine : Text := "==================".toList

theorem closingLine_notMem (cells : List Int) : closingLine ∉ inPairs (entries cells) := by
  intro hline
  have hentry : closingLine ∈ entries cells := by
    rw [← split_inPairs_entries, List.mem_flatMap]
    refine ⟨closingLine, hline, ?_⟩
    rw [List.splitOn_eq_singleton (by decide)]
    exact List.mem_singleton_self closingLine
  exact notMem_of_mem_entries (by decide) (by decide) (by decide) closingLine hentry
    (show '=' ∈ closingLine by decide)

theorem bind_eq_ok {α β : Type} {r : Except Fault α} {f : α → Except Fault β} {b : β}
    (h : r >>= f = .ok b) : ∃ a, r = .ok a ∧ f a = .ok b := by
  cases r with
  | error fault => cases h
  | ok a => exact ⟨a, rfl, h⟩

theorem state_eq_ok {m : Machine} {lines : List Text} (h : state m = .ok lines) :
    ∃ digits behind, register m.register = .ok digits ∧
      lines = "MEM===============".toList :: (inPairs (entries m.tape.cells) ++
        closingLine :: ("Register: ".toList ++ digits) ::
          ("Current memory value: ".toList ++ Text.decimal m.tape.current) ::
          ("Program pointer: ".toList ++ Text.decimal m.pc) ::
          ("Memory pointer: ".toList ++ Text.natural m.tape.cursor) :: behind) := by
  rw [state] at h
  obtain ⟨memory, hmemory, h⟩ := bind_eq_ok h
  obtain ⟨digits, hdigits, h⟩ := bind_eq_ok h
  obtain ⟨cell, hcell, h⟩ := bind_eq_ok h
  obtain ⟨pointer, hpointer, h⟩ := bind_eq_ok h
  obtain ⟨last, -, h⟩ := bind_eq_ok h
  obtain ⟨next, -, h⟩ := bind_eq_ok h
  refine ⟨digits, last ++ ["Next instruction: ".toList ++ next, [], []], hdigits, ?_⟩
  rw [← memory_eq_ok hmemory, ← number_eq_ok hcell, ← number_eq_ok hpointer]
  -- With the texts as they are, simplification would spell them out.
  have hshape (head a b c d e f : Text) (front : List Text) :
      [head] ++ front ++ [a, b, c, d, e] ++ last ++ [f, [], []] =
        head :: (front ++ a :: b :: c :: d :: e :: (last ++ [f, [], []])) := by simp
  exact (Except.ok.inj h).symm.trans (hshape _ _ _ _ _ _ _ _)

end Report

theorem Machine.eq_of_state_eq {m u : Machine} {lines : List Text}
    (hm : Report.state m = .ok lines) (hu : Report.state u = .ok lines) :
    m.tape.cells = u.tape.cells ∧ m.tape.cursor = u.tape.cursor ∧ m.register = u.register ∧
      m.pc = u.pc := by
  obtain ⟨digits, behind, hregister, hlines⟩ := Report.state_eq_ok hm
  obtain ⟨digits', behind', hregister', hlines'⟩ := Report.state_eq_ok hu
  obtain ⟨hmemory, hrest⟩ := eq_of_cut (Report.closingLine_notMem _) (Report.closingLine_notMem _)
    (List.cons.inj (hlines.symm.trans hlines')).2
  have hentries : Report.entries m.tape.cells = Report.entries u.tape.cells := by
    rw [← Report.split_inPairs_entries, hmemory, Report.split_inPairs_entries]
  obtain ⟨hheld, hrest⟩ := List.cons.inj hrest
  obtain ⟨-, hrest⟩ := List.cons.inj hrest
  obtain ⟨hpointer, hrest⟩ := List.cons.inj hrest
  obtain ⟨hcursor, -⟩ := List.cons.inj hrest
  have hdigits : digits = digits' := List.append_cancel_left hheld
  subst hdigits
  exact ⟨Report.entries_inj hentries, Text.natural_inj (List.append_cancel_left hcursor),
    Report.register_inj hregister hregister', Text.decimal_inj (List.append_cancel_left hpointer)⟩

/-- Cells whose numbers have text are listed on half as many lines, rounded up, and
these lines cut at their tabs are an entry for each cell, with its index and its
number. Without text for some cell there is no listing. Two machines with the same
report, whatever their programs and however they were reached, have the same cells,
the same pointers and the same register, empty or holding the same value. -/
theorem report_shows_state :
    (∀ cells : List Int,
      ((∀ v ∈ cells, Text.Printable v) →
        ∃ lines, Report.memory cells = .ok lines ∧ lines.length = (cells.length + 1) / 2 ∧
          (lines.flatMap (List.splitOn '\t')).length = cells.length ∧
          ∀ i v, cells[i]? = some v → (lines.flatMap (List.splitOn '\t'))[i]? =
            some (Text.natural i ++ ":  ".toList ++ Text.decimal v)) ∧
      (Report.memory cells = .error .numberTooLong ↔ ∃ v ∈ cells, ¬Text.Printable v)) ∧
    ∀ (m u : Machine) (lines : List Text),
      Report.state m = .ok lines → Report.state u = .ok lines →
        m.tape.cells = u.tape.cells ∧ m.tape.cursor = u.tape.cursor ∧
          m.register = u.register ∧ m.pc = u.pc := by
  refine ⟨fun cells => ⟨fun hcells => ?_, Report.memory_error_iff⟩, ?_⟩
  · refine ⟨_, Report.memory_eq hcells, ?_, ?_, ?_⟩
    · rw [Report.length_inPairs, Report.length_entries]
    · rw [Report.split_inPairs_entries, Report.length_entries]
    · intro i v hv
      rw [Report.split_inPairs_entries, Report.getElem?_entries, hv]
      rfl
  · intro m u lines hm hu
    exact Machine.eq_of_state_eq hm hu

theorem report_shows_state_after_two_inputs :
    let m (input : String) := (Machine.start [11, 8, 2, 6, 9, 255]
      (.ofInput (.ofText input.toList false))).after 5
    (∃ lines, Report.memory [1, -20, 300] = .ok lines ∧ lines.length = 2 ∧
      (lines.flatMap (List.splitOn '\t'))[1]? = some "1:  -20".toList) ∧
    Report.memory [0, (10 ^ Text.digitLimit : Nat)] = .error .numberTooLong ∧
    (Source.Listing.ofText "oom OOO moO MoO MMM".toList).program = .ok [11, 8, 2, 6, 9, 255] ∧
    ∃ lines, Report.state (m "5") = .ok lines ∧ Report.state (m "70 x") = .ok lines ∧
      (m "5").tape.cells = (m "70 x").tape.cells ∧ (m "5").register = (m "70 x").register := by
  intro m
  have hload : (Source.Listing.ofText "oom OOO moO MoO MMM".toList).program =
      .ok [11, 8, 2, 6, 9, 255] := by cbv
  have hterminal (u : Machine) (terminal : Terminal) :
      Report.state { u with terminal } = Report.state u := rfl
  have hother : m "70 x" = { m "5" with terminal := .ofInput (.ofText ['x'] false) } := by decide
  have hsame : Report.state (m "70 x") = Report.state (m "5") := by rw [hother, hterminal]
  have hlegible : (m "5").Legible ∧ Text.Printable (m "5").pc := by decide
  have hsafe : (m "5").Safe [11, 8, 2, 6, 9, 255] :=
    .after_start (Source.Listing.closed_of_program hload) _ 5
  obtain ⟨hlisting, hstates⟩ := report_shows_state
  obtain ⟨lines, hlines, hlength, -, hentry⟩ := (hlisting [1, -20, 300]).1 (by decide)
  obtain ⟨report, hreport⟩ := (Report.state_written hsafe).1 hlegible
  obtain ⟨hcells, -, hregister, -⟩ := hstates _ _ report hreport (hsame.trans hreport)
  refine ⟨⟨lines, hlines, hlength, hentry 1 (-20) rfl⟩, ?_, hload, report, hreport,
    hsame.trans hreport, hcells, hregister⟩
  exact (hlisting _).2.2 ⟨_, .tail _ (.head _), Text.not_printable_pow⟩

end CowMachine
