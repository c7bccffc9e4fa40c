import CowMachine.Proofs.Failure
import CowMachine.Proofs.Terminals
import Mathlib.Data.List.TakeWhile

/-!
# Input that is not read

A character is read from the text itself, and a number up to the blank that
closes its word. As long as no read comes to the end of the text, a machine
cannot know what stands there: it goes through the same states when more text
follows, or when the input ends in another way. That a read comes to the end is
said by its text; it does so exactly where an interrupt put there would meet it.
-/

set_option autoImplicit false

namespace CowMachine

namespace Input

variable {i : Input} {t : Text} {e : Ending}

/-- More text behind the text, and an ending behind that. -/
def followedBy (t : Text) (e : Ending) (i : Input) : Input := ⟨i.rest ++ t, e⟩

def Unclosed (i : Input) : Prop := ∀ c ∈ i.rest.dropWhile Text.isBlank, Text.isBlank c = false

instance (i : Input) : Decidable i.Unclosed := List.decidableBAll _ _

theorem readChar_followedBy (h : i.rest ≠ []) :
    (i.followedBy t e).readChar = i.readChar.map (Prod.map id (followedBy t e)) := by
  obtain ⟨rest, ending⟩ := i
  cases rest with
  | nil => exact absurd rfl h
  | cons c rest => rfl

theorem word_of_not_unclosed (h : ¬i.Unclosed) :
    ∃ c rest, (i.rest.dropWhile Text.isBlank).dropWhile (fun c => !Text.isBlank c) = c :: rest := by
  cases hrest : (i.rest.dropWhile Text.isBlank).dropWhile fun c => !Text.isBlank c with
  | cons c rest => exact ⟨c, rest, rfl⟩
  | nil =>
    refine absurd ?_ h
    intro c hc
    simpa using List.dropWhile_eq_nil_iff.1 hrest c hc

theorem readWord_followedBy (h : ¬i.Unclosed) :
    (i.followedBy t e).readWord = Prod.map id (followedBy t e) i.readWord := by
  obtain ⟨c, rest, hrest⟩ := word_of_not_unclosed h
  have hstart : (i.rest ++ t).dropWhile Text.isBlank = i.rest.dropWhile Text.isBlank ++ t := by
    rw [List.dropWhile_append, if_neg]
    intro hempty
    rw [List.isEmpty_iff.1 hempty] at hrest
    cases hrest
  have hend : ((i.rest.dropWhile Text.isBlank) ++ t).dropWhile (fun c => !Text.isBlank c) =
      c :: (rest ++ t) := by
    rw [List.dropWhile_append, hrest]
    rfl
  have hword : ((i.rest.dropWhile Text.isBlank) ++ t).takeWhile (fun c => !Text.isBlank c) =
      (i.rest.dropWhile Text.isBlank).takeWhile fun c => !Text.isBlank c := by
    rw [List.takeWhile_append, if_neg]
    intro hlength
    have hsplit := congrArg List.length
      (@List.takeWhile_append_dropWhile _ (fun c => !Text.isBlank c)
        (i.rest.dropWhile Text.isBlank))
    rw [List.length_append, hrest, List.length_cons] at hsplit
    omega
  have htext : (i.followedBy t e).rest = i.rest ++ t := rfl
  simp only [readWord, htext, hstart, hend, hword, hrest]
  rfl

theorem readNumber_followedBy (h : ¬i.Unclosed) :
    (i.followedBy t e).readNumber = Prod.map id (followedBy t e) i.readNumber := by
  rw [readNumber, readNumber, readWord_followedBy h]
  obtain ⟨answer, left⟩ := i.readWord
  cases answer with
  | error fault => rfl
  | ok word =>
    cases word with
    | nil => rfl
    | cons c word =>
      simp only [Prod.map, id]
      cases Text.numeral? (c :: word) <;> rfl

theorem readChar_interrupted_iff (he : i.ending = .interrupt) :
    i.readChar = .error .interrupted ↔ i.rest = [] := by
  obtain ⟨rest, ending⟩ := i
  cases he
  cases rest <;> simp [readChar, Ending.fault?]

theorem readNumber_interrupted_iff (he : i.ending = .interrupt) :
    i.readNumber.1 = .error .interrupted ↔ i.Unclosed := by
  constructor
  · intro h
    by_contra hclosed
    obtain ⟨c, rest, hrest⟩ := word_of_not_unclosed hclosed
    simp only [readNumber, readWord, hrest] at h
    split at h
    · rename_i hword
      cases hword
    · cases h
    · split at h <;> cases h
  · intro h
    have hrest : (i.rest.dropWhile Text.isBlank).dropWhile (fun c => !Text.isBlank c) = [] :=
      List.dropWhile_eq_nil_iff.2 fun c hc => by simp [h c hc]
    simp only [readNumber, readWord, hrest, he, Ending.fault?]

end Input

def Terminal.followedBy (t : Text) (e : Input.Ending) (terminal : Terminal) : Terminal :=
  { terminal with input := terminal.input.followedBy t e }

theorem Terminal.alike_followedBy {terminal : Terminal} {t : Text} {e : Input.Ending} {cell : Int}
    {i : Instruction} (hchar : i = .character → cell = 0 → terminal.input.rest ≠ [])
    (hnumber : i = .readNumber → ¬terminal.input.Unclosed) :
    terminal.Alike (followedBy t e) cell i where
  readChar hi hcell := by
    have hread : (terminal.followedBy t e).input.readChar = _ :=
      Input.readChar_followedBy (hchar hi hcell)
    rw [readChar, readChar, hread]
    cases terminal.input.readChar with
    | error fault => rfl
    | ok answer =>
      obtain ⟨c | _, left⟩ := answer <;> rfl
  readNumber hi := by
    have hread : (terminal.followedBy t e).input.readNumber = _ :=
      Input.readNumber_followedBy (hnumber hi)
    rw [readNumber, readNumber, hread]
    rfl
  writeLine := writeLine_of_print rfl fun _ => rfl

theorem Terminal.writeLine_ne_interrupted (t : Terminal) (line : Line) :
    t.writeLine line ≠ .error .interrupted := by
  intro h
  unfold writeLine at h
  split at h <;> cases h

namespace Control

variable {c : Control} {cell : Int}

theorem obey_interrupted {i : Instruction} {c' : Control}
    (h : c.obey cell i = .fail .interrupted c') :
    i = .character ∧ cell = 0 ∧ c.terminal.input.readChar = .error .interrupted ∨
      i = .readNumber ∧ c.terminal.input.readNumber.1 = .error .interrupted := by
  cases i with
  | loopEnd =>
    rw [obey, repeatLoop] at h
    split at h <;> cases h
  | loopTest =>
    rw [obey, leaveLoop] at h
    split at h
    · split at h <;> cases h
    · cases h
  | character =>
    rw [obey] at h
    split at h
    · rename_i hcell
      rw [readChar, Terminal.readChar] at h
      cases hr : c.terminal.input.readChar with
      | error fault =>
        rw [hr] at h
        cases h
        exact .inl ⟨rfl, hcell, rfl⟩
      | ok answer =>
        rw [hr] at h
        obtain ⟨_ | _, _⟩ := answer <;> cases h
    · obtain ⟨-, hw⟩ := written_fail h
      exact absurd hw (c.terminal.writeLine_ne_interrupted _)
  | printNumber =>
    obtain ⟨-, hw⟩ := written_fail h
    rw [Terminal.writeNumber] at hw
    split at hw
    · exact absurd hw (c.terminal.writeLine_ne_interrupted _)
    · cases hw
  | readNumber =>
    rw [obey] at h
    unfold readNumber at h
    split at h <;> cases h
    rename_i hr
    exact .inr ⟨rfl, congrArg Prod.fst hr⟩
  | left | right | delegate | decrement | increment | clear | toggle => cases h

theorem obey_interrupted_iff {i : Instruction} (he : c.terminal.input.ending = .interrupt) :
    (∃ c', c.obey cell i = .fail .interrupted c') ↔
      i = .character ∧ cell = 0 ∧ c.terminal.input.rest = [] ∨
        i = .readNumber ∧ c.terminal.input.Unclosed := by
  rw [← Input.readChar_interrupted_iff he, ← Input.readNumber_interrupted_iff he]
  constructor
  · rintro ⟨c', h⟩
    exact obey_interrupted h
  · rintro (⟨rfl, rfl, h⟩ | ⟨rfl, h⟩)
    · refine ⟨c, ?_⟩
      rw [obey, if_pos rfl, readChar, Terminal.readChar, h]
    · have hr : c.terminal.readNumber = (.error .interrupted, c.terminal.readNumber.2) :=
        Prod.ext h rfl
      refine ⟨{ c with terminal := c.terminal.readNumber.2 }, ?_⟩
      rw [obey, readNumber, hr]

end Control

namespace Machine

/-- The next step reads at the end of the input: a character where none is
left, or a number whose word is not closed. -/
def ReadsEnd (m : Machine) : Prop :=
  m.halted = false ∧ ∃ code ∈ m.current?,
    Instruction.character.Effective m.tape.current code ∧ m.tape.current = 0 ∧
        m.terminal.input.rest = [] ∨
      Instruction.readNumber.Effective m.tape.current code ∧ m.terminal.input.Unclosed

instance (cell code : Int) (i : Instruction) : Decidable (i.Effective cell code) :=
  inferInstanceAs (Decidable (_ ∧ _))

instance (m : Machine) : Decidable m.ReadsEnd := inferInstanceAs (Decidable (_ ∧ _))

theorem alike_of_not_readsEnd {m : Machine} (h : ¬m.ReadsEnd) (t : Text) (e : Input.Ending) :
    m.Alike (.followedBy t e) := by
  intro i code hrun hcode hi
  apply Terminal.alike_followedBy
  · rintro rfl hcell hrest
    exact h ⟨hrun, code, hcode, .inl ⟨hi, hcell, hrest⟩⟩
  · rintro rfl hunclosed
    exact h ⟨hrun, code, hcode, .inr ⟨hi, hunclosed⟩⟩

theorem readsEnd_followedBy_nil (m : Machine) (e : Input.Ending) :
    (m.atTerminal (.followedBy [] e)).ReadsEnd ↔ m.ReadsEnd := by
  have hrest : (m.atTerminal (.followedBy [] e)).terminal.input.rest = m.terminal.input.rest :=
    List.append_nil _
  rw [ReadsEnd, ReadsEnd, Input.Unclosed, Input.Unclosed, hrest]
  rfl

theorem step_interrupted_iff {m : Machine} (he : m.terminal.input.ending = .interrupt) :
    (∃ m', m.step = .fail .interrupted m') ↔ m.ReadsEnd := by
  constructor
  · rintro ⟨m', h⟩
    obtain ⟨hrun, ⟨hnone, -⟩ | ⟨code, hcode, hd⟩⟩ := step_fail h
    · rw [step_outside hrun hnone] at h
      cases h
    · obtain ⟨-, hr | ⟨-, hfault⟩⟩ := dispatch_fail hd
      · obtain ⟨rule, hrule, hreact⟩ := Control.react_rule m.tape.current code
        rw [hreact] at hr
        cases hrule with
        | obey i hi =>
          rcases (Control.obey_interrupted_iff he).1 ⟨_, hr⟩ with ⟨rfl, hread⟩ | ⟨rfl, hread⟩
          · exact ⟨hrun, code, hcode, .inl ⟨hi, hread⟩⟩
          · exact ⟨hrun, code, hcode, .inr ⟨hi, hread⟩⟩
        | stop | selfDelegation | noCode | noDigits | unknown => cases hr
      · cases hfault
  · rintro ⟨hrun, code, hcode, ⟨hi, hread⟩ | ⟨hi, hread⟩⟩
    · obtain ⟨c', hc'⟩ := (Control.obey_interrupted_iff he).2 (.inl ⟨rfl, hread⟩)
      refine ⟨⟨c', m.tape⟩, ?_⟩
      rw [step_running hrun hcode, dispatch, Control.react_effective _ hi, hc']
    · obtain ⟨c', hc'⟩ := (Control.obey_interrupted_iff he).2 (.inr ⟨rfl, hread⟩)
      refine ⟨⟨c', m.tape⟩, ?_⟩
      rw [step_running hrun hcode, dispatch, Control.react_effective _ hi, hc']

end Machine

/-- A step reads at the end of the input where an interrupt put there would
meet it. As long as no step does, the same states, failures and results come
about whatever is put there, and what is left to read has it behind. -/
theorem unread_input_has_no_influence (p : Program) (s t : Text) (e e' : Input.Ending) (n : Nat)
    (h : ∀ k, k < n → ¬((Machine.start p (.ofInput ⟨s, e⟩)).after k).ReadsEnd) :
    let m := Machine.start p (.ofInput ⟨s, e⟩)
    let w := Machine.start p (.ofInput ⟨s ++ t, e'⟩)
    (∀ k, (m.after k).ReadsEnd ↔ ∃ m',
      ((m.after k).atTerminal (.followedBy [] .interrupt)).step = .fail .interrupted m') ∧
    (∀ k, k ≤ n → w.after k = (m.after k).atTerminal (.followedBy t e')) ∧
    (∀ k, k < n → (w.after k).step = (m.after k).step.atTerminal (.followedBy t e')) ∧
    ((m.run n).ending ≠ .unfinished →
      ∀ more, w.run (n + more) = (m.run n).atTerminal (.followedBy t e')) := by
  intro m w
  have hw : w = m.atTerminal (.followedBy t e') := rfl
  have halike (k : Nat) (hk : k < n) : (m.after k).Alike (.followedBy t e') :=
    Machine.alike_of_not_readsEnd (h k hk) t e'
  have hafter (k : Nat) (hk : k ≤ n) : w.after k = (m.after k).atTerminal (.followedBy t e') := by
    rw [hw]
    exact Machine.after_atTerminal fun j hj => halike j (by omega)
  refine ⟨?_, hafter, ?_, ?_⟩
  · intro k
    rw [Machine.step_interrupted_iff rfl, Machine.readsEnd_followedBy_nil]
  · intro k hk
    rw [hafter k (Nat.le_of_lt hk), Machine.step_atTerminal (halike k hk)]
  · intro hended more
    have hrun : w.run n = (m.run n).atTerminal (.followedBy t e') := by
      rw [hw]
      exact Machine.run_atTerminal halike
    have hended' : (w.run n).ending ≠ .unfinished := by
      rw [hrun]
      exact hended
    rw [← hrun]
    exact Machine.runBy_ended hended' more

theorem unread_input_has_no_influence_at_closed_words :
    let p : Program := [4, 2, 11, 2, 11, 255]
    let m := Machine.start p (.ofInput (.ofText "a7 q ".toList false))
    let w := Machine.start p (.ofInput (.ofText ("a7 q ".toList ++ "9 8".toList) false))
    (∀ k, k < 5 → ¬(m.after k).ReadsEnd) ∧
    (m.run 5).ending = .aborted (.numberMalformed ['q']) ∧
    ∀ more, w.run (5 + more) = (m.run 5).atTerminal (.followedBy "9 8".toList .finished) := by
  intro p m w
  have hinside : ∀ k, k < 5 → ¬(m.after k).ReadsEnd := by decide
  have haborted : (m.run 5).ending = .aborted (.numberMalformed ['q']) := by decide
  have hended : (m.run 5).ending ≠ .unfinished := by
    rw [haborted]
    nofun
  exact ⟨hinside, haborted,
    (unread_input_has_no_influence p "a7 q ".toList "9 8".toList .finished .finished 5
      hinside).2.2.2 hended⟩

end CowMachine
