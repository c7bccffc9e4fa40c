import CowMachine.Proofs.NumeralGrammar
import CowMachine.Proofs.Obstacles
import CowMachine.Proofs.UnknownWords

/-!
# What a read takes from the input

A number is read from the next word. The blanks before the word are taken with it
and so is the one character behind it, whether the word is a numeral or not. A
character is read alone. So the input is at all times what its reads have taken
from it, in order, and what is left.
-/

set_option autoImplicit false

namespace CowMachine

namespace Text

structure Longest (p : Char → Bool) (s run : Text) : Prop where
  front : run <+: s
  all : ∀ c ∈ run, p c = true
  longest : ∀ v, v <+: s → (∀ c ∈ v, p c = true) → v.length ≤ run.length

section

variable {p : Char → Bool} {s run : Text}

theorem longest_takeWhile (p : Char → Bool) (s : Text) : Longest p s (s.takeWhile p) := by
  refine ⟨List.takeWhile_prefix p, fun c hc => List.mem_takeWhile_imp hc, fun v hv hall => ?_⟩
  exact (Source.prefix_takeWhile_iff.2 ⟨hv, hall⟩).length_le

theorem Longest.eq_takeWhile (h : Longest p s run) : run = s.takeWhile p := by
  have htake := longest_takeWhile p s
  apply (Source.prefix_takeWhile_iff.2 ⟨h.front, h.all⟩).eq_of_length_le
  exact h.longest _ htake.front htake.all

end

/-- A text is cut into the blanks at its front, the word behind them and the rest. -/
structure Cut (s blanks word behind : Text) : Prop where
  whole : s = blanks ++ (word ++ behind)
  blanks : Longest isBlank s blanks
  word : Longest (fun c => !isBlank c) (word ++ behind) word

theorem cut_words (s : Text) : Cut s (s.takeWhile isBlank)
    ((s.dropWhile isBlank).takeWhile fun c => !isBlank c) (behindWord s) := by
  have hword : ((s.dropWhile isBlank).takeWhile fun c => !isBlank c) ++ behindWord s =
      s.dropWhile isBlank := List.takeWhile_append_dropWhile
  refine ⟨?_, longest_takeWhile isBlank s, ?_⟩
  · rw [hword, List.takeWhile_append_dropWhile]
  · rw [hword]
    exact longest_takeWhile _ _

theorem Cut.unique {s blanks word behind : Text} (h : Cut s blanks word behind) :
    blanks = s.takeWhile isBlank ∧
      word = ((s.dropWhile isBlank).takeWhile fun c => !isBlank c) ∧ behind = behindWord s := by
  have hblanks := h.blanks.eq_takeWhile
  have hrest : s.dropWhile isBlank = word ++ behind := by
    have hwhole : s.takeWhile isBlank ++ s.dropWhile isBlank = blanks ++ (word ++ behind) := by
      rw [List.takeWhile_append_dropWhile]
      exact h.whole
    rw [← hblanks] at hwhole
    exact List.append_cancel_left hwhole
  have hword := h.word.eq_takeWhile
  rw [← hrest] at hword
  have hbehind : word ++ behind = word ++ behindWord s := by
    rw [← hrest, behindWord, hword, List.takeWhile_append_dropWhile]
  exact ⟨hblanks, hword, List.append_cancel_left hbehind⟩

end Text

namespace Input

variable {s blanks word behind : Text}

theorem readWord_of_cut (h : Text.Cut s blanks word behind) :
    (⟨s, .finished⟩ : Input).readWord = (.ok word, ⟨behind.tail, .finished⟩) := by
  obtain ⟨-, rfl, rfl⟩ := h.unique
  obtain ⟨j, hword⟩ := readWord_finished (i := ⟨s, .finished⟩) rfl
  have hrest := readWord_snd ⟨s, .finished⟩
  rw [hword] at hrest ⊢
  exact congrArg _ hrest

theorem token_of_cut (h : Text.Cut s blanks word behind) {e : Ending} :
    (⟨s, e⟩ : Input).token = word := h.unique.2.1.symm

theorem readNumber_snd_of_cut (h : Text.Cut s blanks word behind) :
    (⟨s, .finished⟩ : Input).readNumber.2 = ⟨behind.tail, .finished⟩ := by
  rw [readNumber_snd, readWord_of_cut h]

theorem readNumber_ok_iff (h : Text.Cut s blanks word behind) (hword : word ≠ []) {v : Int} :
    (⟨s, .finished⟩ : Input).readNumber.1 = .ok v ↔ Text.Denotes word v := by
  obtain ⟨c, rest, rfl⟩ := List.exists_cons_of_ne_nil hword
  rw [← Text.numeral?_eq_some_iff, readNumber_of_word (readWord_of_cut h)]
  cases Text.numeral? (c :: rest) <;> simp

end Input

inductive ReadCall where
  | character
  | number
  deriving DecidableEq, Repr

namespace Terminal

def withText (t : Terminal) (s : Text) : Terminal := { t with input := ⟨s, .finished⟩ }

def afterRead (t : Terminal) : ReadCall → Terminal
  | .character =>
    match t.readChar with
    | .ok (_, u) => u
    | .error _ => t
  | .number => t.readNumber.2

/-- The text that a read takes from the input. -/
def taken (t : Terminal) : ReadCall → Text
  | .character => t.input.rest.take 1
  | .number => t.input.rest.takeWhile Text.isBlank ++ (t.input.token ++
      (Text.behindWord t.input.rest).take 1)

def pieces : List ReadCall → Terminal → List Text
  | [], _ => []
  | call :: calls, t => t.taken call :: pieces calls (t.afterRead call)

def afterReads (calls : List ReadCall) (t : Terminal) : Terminal := calls.foldl afterRead t

theorem rest_afterRead_character (t : Terminal) :
    (t.afterRead .character).input.rest = t.input.rest.drop 1 := by
  rw [afterRead, readChar, Input.readChar]
  cases hrest : t.input.rest with
  | cons c rest => rfl
  | nil =>
    cases t.input.ending.fault? with
    | none => exact hrest
    | some fault => exact hrest

theorem rest_afterRead_number (t : Terminal) :
    (t.afterRead .number).input.rest = (Text.behindWord t.input.rest).tail := by
  have hinput : (t.afterRead .number).input = t.input.readNumber.2 := rfl
  rw [hinput, Input.readNumber_snd, Input.readWord_snd]

theorem taken_append_rest (t : Terminal) (call : ReadCall) :
    t.taken call ++ (t.afterRead call).input.rest = t.input.rest := by
  cases call with
  | character =>
    rw [rest_afterRead_character]
    exact List.take_append_drop 1 _
  | number =>
    have hbehind : (Text.behindWord t.input.rest).take 1 ++
        (Text.behindWord t.input.rest).tail = Text.behindWord t.input.rest := by
      rw [← List.drop_one]
      exact List.take_append_drop 1 _
    rw [rest_afterRead_number, taken, List.append_assoc, List.append_assoc, hbehind]
    exact (Text.cut_words t.input.rest).whole.symm

theorem pieces_append_rest (calls : List ReadCall) (t : Terminal) :
    (t.pieces calls).flatten ++ (t.afterReads calls).input.rest = t.input.rest := by
  induction calls generalizing t with
  | nil => rfl
  | cons call calls ih =>
    rw [pieces, List.flatten_cons, List.append_assoc]
    exact (congrArg _ (ih (t.afterRead call))).trans (t.taken_append_rest call)

end Terminal

/-- A number is read from the next word of the input, which is left with what is
behind the word but for one character. Without a word there is no number; a word
gives the number that it denotes, and is reported if it denotes none. Whatever is
read in turn, numbers and characters, the texts taken and the rest make up the
input. -/
theorem number_is_read_from_next_word (terminal : Terminal) (s : Text) :
    (∃ blanks word behind, Text.Cut s blanks word behind) ∧
    (∀ blanks word behind, Text.Cut s blanks word behind →
      (terminal.withText s).readNumber.2 = terminal.withText behind.tail ∧
      (terminal.withText s).taken .number = blanks ++ (word ++ behind.take 1) ∧
      ((terminal.withText s).readNumber.1 = .error (.abort .numberMissing) ↔ word = []) ∧
      (word ≠ [] →
        (∀ v, (terminal.withText s).readNumber.1 = .ok v ↔ Text.Denotes word v) ∧
        ((¬∃ v, Text.Denotes word v) → ∃ fault,
          (terminal.withText s).readNumber.1 = .error fault ∧
          fault = .abort (.numberMalformed word) ∧
          fault.message = "Expected an integer, got ".toList ++ Text.quoted word))) ∧
    ∀ calls, ((terminal.withText s).pieces calls).flatten ++
      ((terminal.withText s).afterReads calls).input.rest = s := by
  refine ⟨⟨_, _, _, Text.cut_words s⟩, ?_, fun calls => Terminal.pieces_append_rest calls _⟩
  intro blanks word behind hcut
  have htoken : (terminal.withText s).input.token = word := Input.token_of_cut hcut
  have herror {fault : Fault} : (terminal.withText s).readNumber.1 = .error fault ↔
      word = [] ∧ fault = .abort .numberMissing ∨ word ≠ [] ∧ Text.numeral? word = none ∧
        fault = .abort (.numberMalformed word) := by
    rw [← htoken]
    exact Input.readNumber_error_iff rfl
  refine ⟨?_, ?_, ?_, fun hword => ⟨fun v => Input.readNumber_ok_iff hcut hword, fun hnone => ?_⟩⟩
  · exact congrArg (fun input => { terminal with input }) (Input.readNumber_snd_of_cut hcut)
  · rw [Terminal.taken, htoken]
    obtain ⟨rfl, -, rfl⟩ := hcut.unique
    rfl
  · refine herror.trans ⟨?_, fun h => .inl ⟨h, rfl⟩⟩
    rintro (⟨h, -⟩ | ⟨-, -, h⟩)
    · exact h
    · cases h
  · have hnumeral : Text.numeral? word = none := by
      cases h : Text.numeral? word with
      | none => rfl
      | some v => exact absurd ⟨v, Text.numeral?_eq_some_iff.1 h⟩ hnone
    exact ⟨_, herror.2 (.inr ⟨hword, hnumeral, rfl⟩), rfl, rfl⟩

theorem number_is_read_from_next_word_of_two_scripts :
    let s : Text := [' ', '\t', '-', '0', '_', '7', '\u0663', '\u00a0', '\n', ' ', '5']
    let word : Text := ['-', '0', '_', '7', '\u0663', '\u00a0']
    let terminal := Terminal.ofInput (.ofText [] false)
    Text.Cut s [' ', '\t'] word ['\n', ' ', '5'] ∧ Text.Denotes word (-73) ∧
    (terminal.withText s).readNumber = (.ok (-73), terminal.withText [' ', '5']) := by
  intro s word terminal
  have hcut : Text.Cut s [' ', '\t'] word ['\n', ' ', '5'] := Text.cut_words s
  have hdenotes : Text.Denotes word (-73) := Text.numeral?_eq_some_iff.1 (by decide)
  obtain ⟨hrest, -, -, hvalue⟩ :=
    (number_is_read_from_next_word terminal s).2.1 _ _ _ hcut
  exact ⟨hcut, hdenotes, Prod.ext (((hvalue (by decide)).1 (-73)).2 hdenotes) hrest⟩

end CowMachine
