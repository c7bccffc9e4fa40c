import CowMachine.Proofs.Composition
import CowMachine.Proofs.FlatLoop
import CowMachine.Proofs.Printing
import CowMachine.Proofs.ReadBack
import CowMachine.Source

/-!
# A program that adds

The adder reads two numbers and carries the second over to the first, one at a time.
Each round of its loop adds one to the first cell and takes one from the second, so
their sum stays as it is. A second number that is not negative comes to zero, and
then the sum is printed. A negative one never does: the loop goes round for ever and
nothing is printed.
-/

set_option autoImplicit false

namespace CowMachine

namespace Text

variable {a b v : Int} {w s : Text}

theorem Denotes.ne_nil (h : Denotes w v) : w ≠ [] := by
  obtain ⟨rfl, -, -, -, hrow, -, -⟩ := h
  obtain ⟨c, d, rest, rfl, -⟩ := hrow.head
  simp

structure Word (w : Text) (v : Int) : Prop where
  solid : ∀ c ∈ w, isBlank c = false
  denotes : Denotes w v

theorem word_decimal (h : Printable v) : Word (decimal v) v :=
  ⟨(decimal_solid v).2, denotes_decimal h⟩

/-- Two numbers with blanks between them and perhaps around them. -/
inductive Pair (a b : Int) : Text → Prop
  | intro {front left gap right back : Text} (hfront : ∀ c ∈ front, isBlank c = true)
      (hleft : Word left a) (hne : gap ≠ []) (hgap : ∀ c ∈ gap, isBlank c = true)
      (hright : Word right b) (hback : ∀ c ∈ back, isBlank c = true) :
      Pair a b (front ++ (left ++ (gap ++ (right ++ back))))

end Text

theorem Terminal.readNumber_pair {a b : Int} {s : Text} (h : Text.Pair a b s) (t : Terminal) :
    ∃ rest rest', (t.withText s).readNumber = (.ok a, t.withText rest) ∧
      (t.withText rest).readNumber = (.ok b, t.withText rest') := by
  obtain ⟨hfront, hleft, hne, hgap, hright, hback⟩ := h
  rename_i gap right back
  have hcut := Text.cut_word hfront hleft.denotes.ne_nil hleft.solid
    fun c (hc : c ∈ (gap ++ (right ++ back)).head?) => hgap c (Text.mem_of_head? hne hc)
  have hcut' := Text.cut_word (fun c hc => hgap c (List.mem_of_mem_tail hc))
    hright.denotes.ne_nil hright.solid
    fun c (hc : c ∈ back.head?) => hback c (List.mem_of_mem_head? hc)
  have hfirst := readNumber_of_cut t hcut hleft.denotes.ne_nil hleft.denotes
  rw [List.tail_append_of_ne_nil hne] at hfirst
  exact ⟨_, _, hfirst, readNumber_of_cut t hcut' hright.denotes.ne_nil hright.denotes⟩

namespace Store

variable {s : Store} {t : Terminal} {v : Int}

theorem perform_readNumber (h : s.terminal.readNumber = (.ok v, t)) :
    s.perform Instruction.readNumber.code = .ok ⟨s.tape.write v, s.register, t⟩ := by
  have hread : s.alone.terminal.readNumber = (.ok v, t) := h
  rw [perform, Machine.dispatch, Control.react_effective _ ⟨by decide, .inl rfl⟩, Control.obey,
    Control.readNumber, hread]
  rfl

theorem perform_printNumber (h : s.terminal.writeNumber s.tape.current = .ok t) :
    s.perform Instruction.printNumber.code = .ok ⟨s.tape, s.register, t⟩ := by
  have hwrite : s.alone.terminal.writeNumber s.alone.tape.current = .ok t := h
  rw [perform, Machine.dispatch, Control.react_effective _ ⟨by decide, .inl rfl⟩, Control.obey,
    hwrite]
  rfl

end Store

namespace Adder

def source : Text :=
  ("; Adds two numbers: M[0] += M[1]\n" ++
    "oom moO oom\n" ++
    "MOO\n" ++
    "    mOo MoO moO MOo\n" ++
    "moo\n" ++
    "mOo OOM\n").toList

def file : List UInt8 := source.map (.ofNat ·.toNat)

def reading : List Int := [Instruction.readNumber, .right, .readNumber].map Instruction.code

def carrying : List Int :=
  [Instruction.left, .increment, .right, .decrement].map Instruction.code

def printing : List Int := [Instruction.left, .printNumber].map Instruction.code

def program : Program := Program.loop reading carrying (printing ++ [stopCode])

theorem program_of_file : (Source.Listing.ofBytes file).program = .ok program := by
  have htext : Source.fileText file = source := by decide
  rw [Source.Listing.ofBytes, htext]
  cbv

def holding (t : Terminal) (a b : Int) : Store := ⟨⟨[a], b, []⟩, none, t⟩

theorem performAll_reading {t t' t'' : Terminal} {a b : Int} (ha : t.readNumber = (.ok a, t'))
    (hb : t'.readNumber = (.ok b, t'')) :
    Store.performAll ⟨.blank, none, t⟩ reading = .ok (holding t'' a b) := by
  have hfirst := Store.perform_readNumber (s := ⟨.blank, none, t⟩) ha
  have hmove : Store.perform ⟨Tape.blank.write a, none, t'⟩ Instruction.right.code =
      .ok ⟨⟨[a], 0, []⟩, none, t'⟩ := rfl
  have hsecond := Store.perform_readNumber (s := ⟨⟨[a], 0, []⟩, none, t'⟩) hb
  rw [reading, List.map_cons, List.map_cons, List.map_cons, Store.performAll_cons_ok hfirst,
    Store.performAll_cons_ok hmove, Store.performAll_cons_ok hsecond]
  rfl

theorem performAll_printing (t : Terminal) {a : Int} (h : Text.Printable a) :
    (holding t a 0).performAll printing =
      .ok ⟨⟨[], a, [0]⟩, none, t.print (.line (.text (Text.decimal a)))⟩ := by
  have hmove : (holding t a 0).perform Instruction.left.code = .ok ⟨⟨[], a, [0]⟩, none, t⟩ := rfl
  have hprint := Store.perform_printNumber (s := ⟨⟨[], a, [0]⟩, none, t⟩)
    (t.writeNumber_of_printable h)
  rw [printing, List.map_cons, List.map_cons, Store.performAll_cons_ok hmove,
    Store.performAll_cons_ok hprint]
  rfl

/-- Each round leaves the sum of the two cells as it was. -/
theorem rounds_carrying (t : Terminal) (a b : Int) (n : Nat) :
    (holding t a b).rounds carrying n = .ok (holding t (a + n) (b - n)) := by
  induction n with
  | zero => simp [Store.rounds]
  | succ n ih =>
    have hround : (holding t (a + n) (b - n)).performAll carrying =
        .ok (holding t (a + n + 1) (b - n - 1)) := rfl
    have ha : a + n + 1 = a + (n + 1 : Nat) := by omega
    have hb : b - n - 1 = b - (n + 1 : Nat) := by omega
    rw [Store.rounds_succ ih, hround, ha, hb]

theorem plain_carrying : ∀ code ∈ carrying, Plain code := by decide

section

variable {a b : Int} {s : Text}

def ready (terminal : Terminal) (s : Text) : Machine :=
  Machine.start program (terminal.withText s)

def testing (terminal : Terminal) (s : Text) (t : Terminal) (a b : Int) : Machine :=
  (ready terminal s).resume reading.length (holding t a b)

theorem program_testing (terminal : Terminal) (s : Text) (t : Terminal) (a b : Int) :
    (testing terminal s t a b).program =
      Program.loop reading carrying (printing ++ [stopCode]) := rfl

theorem steps_rounds (h : Text.Pair a b s) (terminal : Terminal) : ∃ rest, ∀ n : Nat,
    (∀ k : Nat, k < n → b - k ≠ 0) →
    (ready terminal s).steps (3 + n * 6) =
      .next (testing terminal s (terminal.withText rest) (a + n) (b - n)) := by
  obtain ⟨rest, rest', ha, hb⟩ := terminal.readNumber_pair h
  refine ⟨rest', fun n hcell => ?_⟩
  have hread : (ready terminal s).steps 3 =
      .next (testing terminal s (terminal.withText rest') a b) :=
    Machine.steps_plain (by decide) (ready terminal s) [] rfl rfl rfl (performAll_reading ha hb)
  rw [Machine.steps_of_steps hread]
  refine Machine.steps_rounds (by decide) plain_carrying (program_testing _ _ _ a b) rfl rfl
    (rounds_carrying (terminal.withText rest') a b n) ?_
  intro k hk u hu
  obtain rfl := Except.ok.inj ((rounds_carrying _ a b k).symm.trans hu)
  exact hcell k hk

theorem steps_printing (terminal : Terminal) (s : Text) (t : Terminal)
    (h : Text.Printable a) :
    (testing terminal s t a 0).steps 3 =
      .next ((ready terminal s).resume 11
        ⟨⟨[], a, [0]⟩, none, t.print (.line (.text (Text.decimal a)))⟩) := by
  have hleave := Machine.step_leave (by decide) plain_carrying (program_testing terminal s t a 0)
    rfl rfl rfl
  have hplain : ∀ code ∈ printing, Plain code := by decide
  rw [Machine.steps_succ hleave]
  exact Machine.steps_plain hplain _
    (reading ++ Instruction.loopTest.code :: (carrying ++ [Instruction.loopEnd.code])) rfl rfl rfl
    (performAll_printing t h)

theorem run_sum (h : Text.Pair a b s) (terminal : Terminal) (hb : 0 ≤ b)
    (hsum : Text.Printable (a + b)) : ∃ rest,
    (ready terminal s).run (6 * b.toNat + 7) =
      Machine.finish { (ready terminal s).resume 11 ⟨⟨[], a + b, [0]⟩, none,
        (terminal.withText rest).print (.line (.text (Text.decimal (a + b))))⟩
          with halted := true } := by
  obtain ⟨rest, hrounds⟩ := steps_rounds h terminal
  have hsteps := hrounds b.toNat fun k hk => by omega
  have ha : a + b.toNat = a + b := by omega
  have hzero : b - b.toNat = 0 := by omega
  rw [ha, hzero] at hsteps
  have hall := steps_printing terminal s (terminal.withText rest) hsum
  rw [← Machine.steps_of_steps hsteps] at hall
  have hlength : 6 * b.toNat + 7 = 3 + b.toNat * 6 + 3 + 1 := by omega
  rw [hlength]
  exact ⟨rest, Machine.run_of_stop hall rfl rfl⟩

theorem steps_endless (h : Text.Pair a b s) (terminal : Terminal) (hb : b < 0) (n : Nat) :
    ∃ u, (ready terminal s).steps n = .next u ∧ u.halted = false ∧
      u.terminal.recent = terminal.recent := by
  obtain ⟨rest, hrounds⟩ := steps_rounds h terminal
  have hfar := hrounds n fun k hk => by omega
  have hlength : 3 + n * 6 = n + (3 + n * 5) := by omega
  rw [hlength] at hfar
  obtain ⟨u, hnear, hbeyond⟩ := Machine.steps_split hfar
  refine ⟨u, hnear, ?_, ?_⟩
  · cases hhalted : u.halted with
    | false => rfl
    | true =>
      obtain rfl := Outcome.next.inj ((Machine.steps_halted hhalted _).symm.trans hbeyond)
      exact hhalted.symm
  · exact (Machine.steps_prints hnear).recent_eq (Machine.steps_prints hbeyond) rfl

end

end Adder

/-- The program of the file prints the sum of two numbers and halts with it, if the
second is not negative and the sum is within the limit on digits. If the second is
negative it neither halts nor fails nor prints. -/
theorem adder_prints_sum (terminal : Terminal) (a b : Int) (s : Text) (h : Text.Pair a b s) :
    ∃ p, (Source.Listing.ofBytes Adder.file).program = .ok p ∧
      let m := Machine.start p (terminal.withText s)
      (0 ≤ b → Text.Printable (a + b) → ∀ bound, 6 * b.toNat + 7 ≤ bound →
        let r := m.run bound
        r.ending = .halted ∧
          r.machine.terminal.output = terminal.output ++ (Text.decimal (a + b) ++ ['\n']) ∧
          r.machine.tape.cells = [a + b, 0] ∧ r.machine.tape.cursor = 0 ∧
          r.machine.register = none) ∧
      (b < 0 → ∀ n, ∃ u, m.steps n = .next u ∧ u.halted = false ∧
        u.terminal.printed = terminal.printed) := by
  refine ⟨Adder.program, Adder.program_of_file, ?_, ?_⟩
  · intro hb hsum bound hbound r
    obtain ⟨rest, hrun⟩ := Adder.run_sum h terminal hb hsum
    obtain ⟨more, rfl⟩ := Nat.exists_eq_add_of_le hbound
    have hended : ((Adder.ready terminal s).run (6 * b.toNat + 7)).ending ≠ .unfinished := by
      rw [hrun]
      exact Ending.noConfusion
    have hr : r = (Adder.ready terminal s).run (6 * b.toNat + 7) := Machine.runBy_ended hended more
    rw [hr, hrun]
    exact ⟨rfl, Terminal.output_print _ _, rfl, rfl, rfl⟩
  · intro hb n
    obtain ⟨u, hsteps, hrunning, hrecent⟩ := Adder.steps_endless h terminal hb n
    refine ⟨u, hsteps, hrunning, ?_⟩
    rw [Terminal.printed, hrecent, Terminal.printed]

theorem adder_prints_sum_of_two_lines :
    let t := Terminal.ofInput (.ofText [] false)
    ∃ p, (Source.Listing.ofBytes Adder.file).program = .ok p ∧
      (∀ n, ∃ u, (Machine.start p (t.withText "4  -1".toList)).steps n = .next u ∧
        u.halted = false ∧ u.terminal.printed = []) ∧
      let r := (Machine.start p (t.withText "\t-3\n2\n".toList)).run 19
      r.ending = .halted ∧ r.machine.terminal.output = "-1\n".toList ∧
        r.machine.tape.cells = [-1, 0] ∧ r.machine.tape.cursor = 0 ∧
        r.machine.register = none := by
  intro t
  have hlines : Text.Pair (-3) 2 (['\t'] ++ (Text.decimal (-3) ++ (['\n'] ++
      (Text.decimal 2 ++ ['\n'])))) :=
    .intro (List.all_eq_true.1 rfl) (Text.word_decimal (by decide)) (by decide)
      (List.all_eq_true.1 rfl) (Text.word_decimal (by decide)) (List.all_eq_true.1 rfl)
  have hnegative : Text.Pair 4 (-1) ([] ++ (Text.decimal 4 ++ ([' ', ' '] ++
      (Text.decimal (-1) ++ [])))) :=
    .intro (List.all_eq_true.1 rfl) (Text.word_decimal (by decide)) (by decide)
      (List.all_eq_true.1 rfl) (Text.word_decimal (by decide)) (List.all_eq_true.1 rfl)
  obtain ⟨p, hp, hsum, -⟩ := adder_prints_sum t (-3) 2 "\t-3\n2\n".toList hlines
  obtain ⟨q, hq, -, hendless⟩ := adder_prints_sum t 4 (-1) "4  -1".toList hnegative
  obtain rfl := Except.ok.inj (hp.symm.trans hq)
  exact ⟨p, hp, hendless (by decide), hsum (by decide) (by decide) 19 (by decide)⟩

end CowMachine
