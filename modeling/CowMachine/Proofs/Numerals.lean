import CowMachine.Input
import CowMachine.Proofs.NumeralGrammar

/-!
# Rows of digits

A row of decimal digits is a numeral, with the value of its digits, as long as
it keeps to the limit on their number. An input that holds nothing else is
read as that number. The numbers that can be written are those below the power
of ten with as many zeros, and all that can be read are among them.
-/

set_option autoImplicit false

namespace CowMachine

namespace Text

theorem printable_iff (v : Int) : Printable v ↔ v.natAbs < 10 ^ digitLimit :=
  Nat.length_toDigits_le_iff (by decide) (by decide)

theorem not_printable_pow : ¬Printable (10 ^ digitLimit : Nat) := by
  rw [printable_iff, Int.natAbs_natCast]
  exact Nat.lt_irrefl _

theorem Denotes.printable {t : Text} {v : Int} (h : Denotes t v) : Printable v := by
  obtain ⟨-, -, -, hsign, hrow, hlimit, rfl⟩ := h
  rename_i factor ds
  have hvalue : Nat.ofDigits 10 ds.reverse < 10 ^ ds.reverse.length :=
    Nat.ofDigits_lt_base_pow_length (by decide) fun d hd => hrow.lt_ten d (List.mem_reverse.1 hd)
  have hpow : 10 ^ ds.reverse.length ≤ 10 ^ digitLimit :=
    Nat.pow_le_pow_right (by decide) (by rwa [List.length_reverse])
  have habs : (factor * (Nat.ofDigits 10 ds.reverse : Nat)).natAbs = Nat.ofDigits 10 ds.reverse := by
    cases hsign <;> simp
  rw [printable_iff, habs]
  exact Nat.lt_of_lt_of_le hvalue hpow

theorem digitValue?_digitChar : ∀ d < 10, digitValue? d.digitChar = some d := by decide

theorem digitChar_not_blank : ∀ d < 10, isBlank d.digitChar = false := by decide

variable {ds : List Nat}

theorem digitRow_map_digitChar (hne : ds ≠ []) (hds : ∀ d ∈ ds, d < 10) :
    DigitRow (ds.map Nat.digitChar) ds := by
  induction ds with
  | nil => exact absurd rfl hne
  | cons d ds ih =>
    have hd : IsDigit d.digitChar d :=
      digitValue?_eq_some_iff.1 (digitValue?_digitChar d (hds d (by simp)))
    cases ds with
    | nil => exact .last hd
    | cons e ds => exact .digit hd (ih (by simp) fun x hx => hds x (by simp [hx]))

theorem valueOfDigits_concat (ds : List Nat) (d : Nat) :
    valueOfDigits (ds ++ [d]) = 10 * valueOfDigits ds + d := by
  simp [valueOfDigits]

theorem valueOfDigits_nines (n : Nat) : valueOfDigits (List.replicate n 9) + 1 = 10 ^ n := by
  induction n with
  | zero => rfl
  | succ n ih =>
    rw [List.replicate_succ', valueOfDigits_concat, Nat.pow_succ, ← ih]
    omega

theorem denotes_signed {sign : Text} {factor : Int} (hsign : Sign sign factor) (hne : ds ≠ [])
    (hds : ∀ d ∈ ds, d < 10) (hlen : ds.length ≤ digitLimit) :
    Denotes (sign ++ ds.map Nat.digitChar) (factor * (valueOfDigits ds : Int)) := by
  have hwhole : sign ++ ds.map Nat.digitChar = [] ++ (sign ++ ds.map Nat.digitChar) ++ [] :=
    (List.append_nil _).symm
  refine .intro hwhole (by simp) (by simp) hsign (digitRow_map_digitChar hne hds) hlen ?_
  rw [valueOfDigits_eq]

theorem numeral?_map_digitChar (hne : ds ≠ []) (hds : ∀ d ∈ ds, d < 10)
    (hlen : ds.length ≤ digitLimit) :
    numeral? (ds.map Nat.digitChar) = some (valueOfDigits ds : Int) := by
  have hdenotes := denotes_signed .absent hne hds hlen
  rw [Int.one_mul] at hdenotes
  exact numeral?_eq_some_iff.2 hdenotes

theorem natural_digits (n : Nat) : ∃ ds, natural n = ds.map Nat.digitChar ∧ ds ≠ [] ∧
    (∀ d ∈ ds, d < 10) ∧ valueOfDigits ds = n := by
  induction n using Nat.strong_induction_on with
  | _ n ih =>
    rw [natural, Nat.toDigits_eq_if (by decide)]
    by_cases hn : n < 10
    · refine ⟨[n], by simp [hn], by simp, by simpa using hn, ?_⟩
      simp [valueOfDigits]
    · obtain ⟨ds, hdigits, -, hds, hvalue⟩ := ih (n / 10) (by omega)
      refine ⟨ds ++ [n % 10], ?_, by simp, ?_, ?_⟩
      · rw [natural] at hdigits
        simp [hn, hdigits]
      · simpa [or_imp, forall_and] using ⟨hds, Nat.mod_lt n (by decide)⟩
      · rw [valueOfDigits_concat, hvalue]
        omega

/-- The text of a number is its sign and its digits. -/
theorem decimal_digits (v : Int) : ∃ sign factor ds, decimal v = sign ++ ds.map Nat.digitChar ∧
    Sign sign factor ∧ natural v.natAbs = ds.map Nat.digitChar ∧ ds ≠ [] ∧
      (∀ d ∈ ds, d < 10) ∧ v = factor * (valueOfDigits ds : Int) := by
  obtain ⟨ds, hdigits, hne, hds, hvalue⟩ := natural_digits v.natAbs
  rw [decimal, hdigits]
  by_cases hv : v < 0
  · exact ⟨['-'], -1, ds, if_pos hv, .minus, rfl, hne, hds, by omega⟩
  · exact ⟨[], 1, ds, if_neg hv, .absent, rfl, hne, hds, by omega⟩

theorem denotes_decimal {v : Int} (h : Printable v) : Denotes (decimal v) v := by
  obtain ⟨sign, factor, ds, htext, hsign, hdigits, hne, hds, hvalue⟩ := decimal_digits v
  have hlen : ds.length ≤ digitLimit := by
    rw [Printable, hdigits, List.length_map] at h
    exact h
  have hdenotes := denotes_signed hsign hne hds hlen
  rwa [← htext, ← hvalue] at hdenotes

theorem decimal_solid (v : Int) : decimal v ≠ [] ∧ ∀ c ∈ decimal v, isBlank c = false := by
  obtain ⟨sign, factor, ds, htext, hsign, -, hne, hds, -⟩ := decimal_digits v
  rw [htext]
  constructor
  · simp [hne]
  · intro c hc
    rcases List.mem_append.1 hc with hc | hc
    · cases hsign with
      | absent => cases hc
      | plus => exact List.mem_singleton.1 hc ▸ rfl
      | minus => exact List.mem_singleton.1 hc ▸ rfl
    · obtain ⟨d, hd, rfl⟩ := List.mem_map.1 hc
      exact digitChar_not_blank d (hds d hd)

end Text

namespace Input

theorem readWord_of_no_blank {i : Input} (h : ∀ c ∈ i.rest, Text.isBlank c = false)
    (hend : i.ending = .finished) : i.readWord = (.ok i.rest, { i with rest := [] }) := by
  have hfront : i.rest.dropWhile Text.isBlank = i.rest :=
    List.dropWhile_eq_self_iff.2 fun hl => by simp [h _ (List.getElem_mem hl)]
  have hword : i.rest.takeWhile (fun c => !Text.isBlank c) = i.rest :=
    List.takeWhile_eq_self_iff.2 (by simpa using h)
  have hbehind : i.rest.dropWhile (fun c => !Text.isBlank c) = [] :=
    List.dropWhile_eq_nil_iff.2 (by simpa using h)
  simp only [readWord, hfront, hword, hbehind, hend, Ending.fault?]

theorem readNumber_of_digits {i : Input} {ds : List Nat} (hrest : i.rest = ds.map Nat.digitChar)
    (hend : i.ending = .finished) (hne : ds ≠ []) (hds : ∀ d ∈ ds, d < 10)
    (hlen : ds.length ≤ Text.digitLimit) :
    i.readNumber = (.ok (Text.valueOfDigits ds : Int), { i with rest := [] }) := by
  have hword : i.readWord = (.ok (ds.map Nat.digitChar), { i with rest := [] }) := by
    rw [← hrest]
    apply readWord_of_no_blank _ hend
    intro c hc
    rw [hrest] at hc
    obtain ⟨d, hd, rfl⟩ := List.mem_map.1 hc
    exact Text.digitChar_not_blank d (hds d hd)
  obtain ⟨d, rest, rfl⟩ := List.exists_cons_of_ne_nil hne
  rw [readNumber, hword]
  simp only [List.map_cons]
  rw [← List.map_cons, Text.numeral?_map_digitChar hne hds hlen]

end Input

end CowMachine
