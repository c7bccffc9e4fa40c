import CowMachine.Text.Basic
import Mathlib.Data.List.TakeWhile
import Mathlib.Data.Nat.Digits.Defs

/-!
# The grammar of numerals

A numeral is a row of digits behind an optional sign. Single underscores may stand
between two digits, and wide blanks around the whole. What is read from a text is
the number that its form denotes, and nothing is read from a text without that
form.
-/

set_option autoImplicit false

namespace CowMachine.Text

section

variable {p : Char → Bool} {front rest : Text}

theorem dropWhile_front (hfront : ∀ c ∈ front, p c = true)
    (hrest : ∀ c ∈ rest.head?, p c = false) : (front ++ rest).dropWhile p = rest := by
  rw [List.dropWhile_append_of_pos hfront]
  cases rest with
  | nil => rfl
  | cons c rest => exact List.dropWhile_cons_of_neg (by simp [hrest c rfl])

theorem takeWhile_front (hfront : ∀ c ∈ front, p c = true)
    (hrest : ∀ c ∈ rest.head?, p c = false) : (front ++ rest).takeWhile p = front := by
  rw [List.takeWhile_append_of_pos hfront]
  cases rest with
  | nil => exact List.append_nil front
  | cons c rest =>
    rw [List.takeWhile_cons_of_neg (by simp [hrest c rfl]), List.append_nil]

end

/-- A decimal digit of one of the scripts, with its value. -/
def IsDigit (c : Char) (d : Nat) : Prop := d < 10 ∧ ∃ first ∈ zeros, c.toNat = first + d

theorem zeros_apart : ∀ a ∈ zeros, ∀ b ∈ zeros, a < b + 10 → b < a + 10 → a = b := by
  decide +kernel

theorem digitValue?_eq_some_iff {c : Char} {d : Nat} : digitValue? c = some d ↔ IsDigit c d := by
  rw [digitValue?, Option.map_eq_some_iff]
  constructor
  · rintro ⟨first, hfind, rfl⟩
    have hrange := List.find?_some hfind
    simp only [Bool.and_eq_true, decide_eq_true_eq] at hrange
    exact ⟨by omega, first, List.mem_of_find?_eq_some hfind, by omega⟩
  · rintro ⟨hd, start, hstart, hc⟩
    cases hfind : zeros.find? fun first => first ≤ c.toNat && c.toNat < first + 10 with
    | none =>
      have hnone := List.find?_eq_none.1 hfind start hstart
      simp only [Bool.and_eq_true, decide_eq_true_eq] at hnone
      omega
    | some first =>
      have hrange := List.find?_some hfind
      simp only [Bool.and_eq_true, decide_eq_true_eq] at hrange
      have hsame := zeros_apart first (List.mem_of_find?_eq_some hfind) start hstart (by omega)
        (by omega)
      exact ⟨first, rfl, by omega⟩

theorem digit_plain : ∀ first ∈ zeros, ∀ d < 10, isWideBlank (Char.ofNat (first + d)) = false ∧
    Char.ofNat (first + d) ≠ '-' ∧ Char.ofNat (first + d) ≠ '+' ∧
      Char.ofNat (first + d) ≠ '_' := by
  decide +kernel

theorem IsDigit.plain {c : Char} {d : Nat} (h : IsDigit c d) :
    isWideBlank c = false ∧ c ≠ '-' ∧ c ≠ '+' ∧ c ≠ '_' := by
  obtain ⟨hd, first, hfirst, hc⟩ := h
  have hplain := digit_plain first hfirst d hd
  rwa [← hc, Char.ofNat_toNat] at hplain

/-- Digits, each behind the one before it or behind a single underscore. -/
inductive DigitRow : Text → List Nat → Prop
  | last {c : Char} {d : Nat} (h : IsDigit c d) : DigitRow [c] [d]
  | digit {c : Char} {d : Nat} {row : Text} {ds : List Nat} (h : IsDigit c d)
      (hrow : DigitRow row ds) : DigitRow (c :: row) (d :: ds)
  | underscore {c : Char} {d : Nat} {row : Text} {ds : List Nat} (h : IsDigit c d)
      (hrow : DigitRow row ds) : DigitRow (c :: '_' :: row) (d :: ds)

section

variable {row : Text} {ds : List Nat}

theorem DigitRow.head (h : DigitRow row ds) : ∃ c d rest, row = c :: rest ∧ IsDigit c d := by
  cases h with
  | last h => exact ⟨_, _, _, rfl, h⟩
  | digit h _ => exact ⟨_, _, _, rfl, h⟩
  | underscore h _ => exact ⟨_, _, _, rfl, h⟩

theorem DigitRow.final (h : DigitRow row ds) : ∃ front c d, row = front ++ [c] ∧ IsDigit c d := by
  induction h with
  | last h => exact ⟨[], _, _, rfl, h⟩
  | digit h _ ih =>
    obtain ⟨front, c, d, rfl, hc⟩ := ih
    exact ⟨_ :: front, c, d, rfl, hc⟩
  | underscore h _ ih =>
    obtain ⟨front, c, d, rfl, hc⟩ := ih
    exact ⟨_ :: '_' :: front, c, d, rfl, hc⟩

theorem DigitRow.lt_ten (h : DigitRow row ds) : ∀ d ∈ ds, d < 10 := by
  induction h with
  | last h => simpa using h.1
  | digit h _ ih => simpa using ⟨h.1, ih⟩
  | underscore h _ ih => simpa using ⟨h.1, ih⟩

theorem digits?_eq_some_iff : digits? row = some ds ↔ DigitRow row ds := by
  constructor
  · intro h
    fun_induction digits? row generalizing ds with
    | case1 => cases h
    | case2 => cases h
    | case3 c d hd =>
      obtain rfl := Option.some.inj h
      exact .last (digitValue?_eq_some_iff.1 hd)
    | case4 c d more hd ih =>
      obtain ⟨ds, hmore, rfl⟩ := Option.map_eq_some_iff.1 h
      exact .underscore (digitValue?_eq_some_iff.1 hd) (ih hmore)
    | case5 c d more _ _ hd ih =>
      obtain ⟨ds, hmore, rfl⟩ := Option.map_eq_some_iff.1 h
      exact .digit (digitValue?_eq_some_iff.1 hd) (ih hmore)
  · intro h
    induction h with
    | last h => simp [digits?, digitValue?_eq_some_iff.2 h]
    | digit h hrow ih =>
      obtain ⟨c, d, rest, rfl, hc⟩ := hrow.head
      have hunder := hc.plain.2.2.2
      simp [digits?, digitValue?_eq_some_iff.2 h, hunder, ih]
    | underscore h _ ih => simp [digits?, digitValue?_eq_some_iff.2 h, ih]

end

theorem valueOfDigits_eq (ds : List Nat) : valueOfDigits ds = Nat.ofDigits 10 ds.reverse := by
  rw [Nat.ofDigits_eq_foldr, List.foldr_reverse, valueOfDigits]
  congr 1
  funext value d
  simp [Nat.add_comm]

inductive Sign : Text → Int → Prop
  | absent : Sign [] 1
  | plus : Sign ['+'] 1
  | minus : Sign ['-'] (-1)

/-- The text is a numeral for the value. -/
inductive Denotes (t : Text) (v : Int) : Prop
  | intro {front sign row back : Text} {factor : Int} {ds : List Nat}
      (whole : t = front ++ (sign ++ row) ++ back)
      (hfront : ∀ c ∈ front, isWideBlank c = true) (hback : ∀ c ∈ back, isWideBlank c = true)
      (hsign : Sign sign factor) (hrow : DigitRow row ds) (hlimit : ds.length ≤ digitLimit)
      (hvalue : v = factor * (Nat.ofDigits 10 ds.reverse : Nat)) : Denotes t v

theorem strip_parts (t : Text) : ∃ front back, t = front ++ strip t ++ back ∧
    (∀ c ∈ front, isWideBlank c = true) ∧ ∀ c ∈ back, isWideBlank c = true := by
  refine ⟨t.takeWhile isWideBlank,
    ((t.dropWhile isWideBlank).reverse.takeWhile isWideBlank).reverse, ?_, ?_, ?_⟩
  · rw [strip, List.append_assoc, ← List.reverse_append, List.takeWhile_append_dropWhile,
      List.reverse_reverse, List.takeWhile_append_dropWhile]
  · intro c hc
    exact List.mem_takeWhile_imp hc
  · intro c hc
    exact List.mem_takeWhile_imp (List.mem_reverse.1 hc)

theorem strip_between {front core back : Text} {first last : Char} {rest before : Text}
    (hfront : ∀ c ∈ front, isWideBlank c = true) (hback : ∀ c ∈ back, isWideBlank c = true)
    (hcore : core = first :: rest) (hfirst : isWideBlank first = false)
    (hcore' : core = before ++ [last]) (hlast : isWideBlank last = false) :
    strip (front ++ core ++ back) = core := by
  have hleft : (front ++ core ++ back).dropWhile isWideBlank = core ++ back := by
    rw [List.append_assoc]
    apply dropWhile_front hfront
    rw [hcore]
    rintro c ⟨⟩
    exact hfirst
  have hright : (core ++ back).reverse.dropWhile isWideBlank = core.reverse := by
    rw [List.reverse_append]
    apply dropWhile_front
    · simpa using hback
    · rw [hcore', List.reverse_concat]
      rintro c ⟨⟩
      exact hlast
  rw [strip, hleft, hright, List.reverse_reverse]

theorem magnitude?_eq_some_iff {row : Text} {n : Nat} : magnitude? row = some n ↔
    ∃ ds, DigitRow row ds ∧ ds.length ≤ digitLimit ∧ n = Nat.ofDigits 10 ds.reverse := by
  rw [magnitude?]
  cases hdigits : digits? row with
  | none =>
    refine iff_of_false (by simp) ?_
    rintro ⟨ds, hrow, -⟩
    rw [digits?_eq_some_iff.2 hrow] at hdigits
    cases hdigits
  | some ds =>
    have hrow := digits?_eq_some_iff.1 hdigits
    constructor
    · intro h
      by_cases hlimit : ds.length ≤ digitLimit
      · simp only [hlimit, if_true, Option.some.injEq] at h
        exact ⟨ds, hrow, hlimit, by rw [← h, valueOfDigits_eq]⟩
      · simp [hlimit] at h
    · rintro ⟨ds', hrow', hlimit, rfl⟩
      obtain rfl := Option.some.inj (hdigits.symm.trans (digits?_eq_some_iff.2 hrow'))
      simp only [hlimit, if_true, valueOfDigits_eq]

theorem sign_row_ends {sign row : Text} {factor : Int} {ds : List Nat} (hsign : Sign sign factor)
    (hrow : DigitRow row ds) :
    ∃ first rest, sign ++ row = first :: rest ∧ isWideBlank first = false := by
  obtain ⟨c, d, rest, rfl, hc⟩ := hrow.head
  cases hsign with
  | absent => exact ⟨c, rest, rfl, hc.plain.1⟩
  | plus => exact ⟨'+', _, rfl, by decide⟩
  | minus => exact ⟨'-', _, rfl, by decide⟩

theorem strip_of_numeral {front sign row back : Text} {factor : Int} {ds : List Nat}
    (hfront : ∀ c ∈ front, isWideBlank c = true) (hback : ∀ c ∈ back, isWideBlank c = true)
    (hsign : Sign sign factor) (hrow : DigitRow row ds) :
    strip (front ++ (sign ++ row) ++ back) = sign ++ row := by
  obtain ⟨first, rest, hfirst, hwide⟩ := sign_row_ends hsign hrow
  obtain ⟨before, last, d, rfl, hlast⟩ := hrow.final
  exact strip_between hfront hback hfirst hwide (List.append_assoc _ _ _).symm hlast.plain.1

theorem row_of_magnitude {row : Text} {f : Int → Int} {v : Int}
    (h : ((magnitude? row).bind fun n => some (n : Int)).map f = some v) :
    ∃ ds, DigitRow row ds ∧ ds.length ≤ digitLimit ∧
      v = f (Nat.ofDigits 10 ds.reverse : Nat) := by
  obtain ⟨w, hw, rfl⟩ := Option.map_eq_some_iff.1 h
  obtain ⟨n, hn, ⟨⟩⟩ := Option.bind_eq_some_iff.1 hw
  obtain ⟨ds, hrow, hlimit, rfl⟩ := magnitude?_eq_some_iff.1 hn
  exact ⟨ds, hrow, hlimit, rfl⟩

theorem numeral?_eq_some_iff {t : Text} {v : Int} : numeral? t = some v ↔ Denotes t v := by
  constructor
  · intro h
    obtain ⟨front, back, hwhole, hfront, hback⟩ := strip_parts t
    rw [numeral?] at h
    split at h
    · rename_i run hstrip
      obtain ⟨ds, hrow, hlimit, rfl⟩ := row_of_magnitude h
      rw [hstrip] at hwhole
      exact .intro hwhole hfront hback .minus hrow hlimit (by simp)
    · rename_i run hstrip
      obtain ⟨ds, hrow, hlimit, rfl⟩ := row_of_magnitude h
      rw [hstrip] at hwhole
      exact .intro hwhole hfront hback .plus hrow hlimit (by simp)
    · obtain ⟨ds, hrow, hlimit, rfl⟩ := row_of_magnitude h
      exact .intro hwhole hfront hback .absent hrow hlimit (by simp)
  · rintro ⟨whole, hfront, hback, hsign, hrow, hlimit, rfl⟩
    rw [numeral?, whole, strip_of_numeral hfront hback hsign hrow]
    have hmagnitude := magnitude?_eq_some_iff.2 ⟨_, hrow, hlimit, rfl⟩
    cases hsign with
    | minus => simp [hmagnitude]
    | plus => simp [hmagnitude]
    | absent =>
      obtain ⟨c, d, rest, rfl, hc⟩ := hrow.head
      obtain ⟨-, hminus, hplus, -⟩ := hc.plain
      simp [hmagnitude, hminus, hplus]

end CowMachine.Text
