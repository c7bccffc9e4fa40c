import CowMachine.Program

/-!
# Where the searches for loop marks lead

From a place inside the program a search stays inside it: forward to a loop
end, back to a place before the one it starts from. Neither looks at its own
place, and in a loop without inner marks each finds the other end.
-/

set_option autoImplicit false

namespace CowMachine.Program

section

variable {p : Program} {place first last : Int}

theorem inside_of_fetch? {code : Int} (h : p.fetch? place = some code) :
    -(p.length : Int) ≤ place ∧ place < p.length := by
  have hinside := mt (fetch?_eq_none_iff p place).2 (by simp [h])
  omega

/-- Every place from one up to another holds a code, and none of them a loop end. -/
def Passes (p : Program) (first last : Int) : Prop :=
  ∀ k, first ≤ k → k < last → ∃ code, p.fetch? k = some code ∧ code ≠ Instruction.loopEnd.code

theorem passes_of_le (h : last ≤ first) : p.Passes first last := by
  intro k hk hlast
  omega

theorem Passes.cons {code : Int} (hcode : p.fetch? first = some code)
    (hmark : code ≠ Instruction.loopEnd.code) (h : p.Passes (first + 1) last) :
    p.Passes first last := by
  intro k hk hlast
  by_cases hfirst : k = first
  · subst hfirst
    exact ⟨code, hcode, hmark⟩
  · exact h k (by omega) hlast

theorem Passes.inside (h : p.Passes first last) (hlt : first < last) :
    -(p.length : Int) ≤ first ∧ first < p.length := by
  obtain ⟨code, hcode, -⟩ := h first (Int.le_refl first) hlt
  exact inside_of_fetch? hcode

theorem Passes.ne_end (h : p.Passes first last) {k : Int} (hk : first ≤ k) (hlast : k < last) :
    p.fetch? k ≠ some Instruction.loopEnd.code := by
  obtain ⟨code, hcode, hmark⟩ := h k hk hlast
  rw [hcode]
  exact fun heq => hmark (Option.some.inj heq)

inductive Stops (p : Program) (first last : Int) : Search → Prop
  | outside {q : Int} (hfirst : first ≤ q) (hlast : q < last) (hmissing : p.fetch? q = none)
      (hpassed : p.Passes first q) : Stops p first last (.outside q)
  | found {q : Int} (hfirst : first ≤ q) (hmark : p.fetch? q = some Instruction.loopEnd.code)
      (hpassed : p.Passes first q) : Stops p first last (.found q)
  | absent (hpassed : p.Passes first last) : Stops p first last .absent

theorem Stops.cons {answer : Search} {code : Int} (hcode : p.fetch? first = some code)
    (hmark : code ≠ Instruction.loopEnd.code) (h : p.Stops (first + 1) last answer) :
    p.Stops first last answer := by
  cases h with
  | outside hfirst hlast hmissing hpassed =>
    exact .outside (by omega) hlast hmissing (hpassed.cons hcode hmark)
  | found hfirst hend hpassed => exact .found (by omega) hend (hpassed.cons hcode hmark)
  | absent hpassed => exact .absent (hpassed.cons hcode hmark)

theorem endOnward_stops {count : Nat} (h : (last - first).toNat = count) :
    p.Stops first last (p.endOnward count first) := by
  induction count generalizing first with
  | zero => exact .absent (passes_of_le (by omega))
  | succ count ih =>
    rw [endOnward]
    cases hcode : p.fetch? first with
    | none => exact .outside (Int.le_refl first) (by omega) hcode (passes_of_le (Int.le_refl first))
    | some code =>
      by_cases hmark : code = Instruction.loopEnd.code
      · subst hmark
        exact .found (Int.le_refl first) hcode (passes_of_le (Int.le_refl first))
      · simp only [if_neg hmark]
        exact (ih (by omega)).cons hcode hmark

theorem loopExit_stops (p : Program) (place : Int) :
    p.Stops (place + 2) p.length (p.loopExit place) := endOnward_stops rfl

theorem loopExit_outside_iff {q : Int} :
    p.loopExit place = .outside q ↔ place + 2 < -(p.length : Int) ∧ q = place + 2 := by
  have hstops := loopExit_stops p place
  generalize p.loopExit place = answer at hstops ⊢
  cases hstops with
  | @outside q' hfirst hlast hmissing hpassed =>
    have hfar := (fetch?_eq_none_iff p q').1 hmissing
    have hsame : q' = place + 2 := by
      by_cases hlt : place + 2 < q'
      · have hinside := hpassed.inside hlt
        omega
      · omega
    rw [Search.outside.injEq]
    omega
  | found hfirst hmark hpassed =>
    refine iff_of_false Search.noConfusion fun hout => ?_
    have hinside := inside_of_fetch? hmark
    have hfirst := hpassed.inside (by omega)
    omega
  | absent hpassed =>
    refine iff_of_false Search.noConfusion fun hout => ?_
    have hfirst := hpassed.inside (by omega)
    omega

theorem loopExit_found_iff {q : Int} :
    p.loopExit place = .found q ↔ -(p.length : Int) ≤ place + 2 ∧ place + 2 ≤ q ∧
      p.fetch? q = some Instruction.loopEnd.code ∧
        ∀ k, place + 2 ≤ k → k < q → p.fetch? k ≠ some Instruction.loopEnd.code := by
  have hstops := loopExit_stops p place
  constructor
  · intro h
    rw [h] at hstops
    cases hstops with
    | found hfirst hmark hpassed =>
      refine ⟨?_, hfirst, hmark, fun k hk hlt hcode => ?_⟩
      · by_cases hlt : place + 2 < q
        · exact (hpassed.inside hlt).1
        · have hinside := inside_of_fetch? hmark
          omega
      · exact hpassed.ne_end hk hlt hcode
  · rintro ⟨hinside, hle, hmark, hbefore⟩
    have hq := inside_of_fetch? hmark
    cases hanswer : p.loopExit place with
    | outside q' =>
      have hout := loopExit_outside_iff.1 hanswer
      omega
    | absent =>
      rw [hanswer] at hstops
      cases hstops with
      | absent hpassed => exact absurd hmark (hpassed.ne_end hle hq.2)
    | found q' =>
      rw [hanswer] at hstops
      cases hstops with
      | found hfirst hmark' hpassed =>
        rcases Int.lt_trichotomy q' q with hlt | rfl | hlt
        · exact absurd hmark' (hbefore q' hfirst hlt)
        · rfl
        · exact absurd hmark (hpassed.ne_end hle hlt)

end

theorem endOnward_natCast (p : Program) {count n : Nat} (h : p.length - n = count) :
    p.endOnward count n = ((p.drop n).findIdx? (· == Instruction.loopEnd.code)).elim .absent
      fun distance => .found (n + distance) := by
  induction count generalizing n with
  | zero =>
    rw [List.drop_eq_nil_of_le (by omega)]
    rfl
  | succ count ih =>
    have hn : n < p.length := by omega
    rw [endOnward, fetch?_natCast, List.getElem?_eq_getElem hn, List.drop_eq_getElem_cons hn,
      List.findIdx?_cons]
    by_cases hmark : p[n] = Instruction.loopEnd.code
    · simp [hmark]
    · have hrest := ih (n := n + 1) (by omega)
      rw [Int.natCast_add, Int.natCast_one] at hrest
      simp only [if_neg hmark, beq_false_of_ne hmark, Bool.false_eq_true, if_false, hrest]
      cases (p.drop (n + 1)).findIdx? (· == Instruction.loopEnd.code) with
      | none => rfl
      | some distance =>
        rw [Option.map_some, Option.elim_some, Option.elim_some, Search.found.injEq]
        omega

theorem loopExit_natCast (p : Program) (n : Nat) :
    p.loopExit n = ((p.drop (n + 2)).findIdx? (· == Instruction.loopEnd.code)).elim .absent
      fun distance => .found (n + 2 + distance) := by
  have hplace : (n : Int) + 2 = (n + 2 : Nat) := by omega
  rw [loopExit, hplace, endOnward_natCast p (by omega)]

/-- The place of the loop test that closes the open loop ends, in a list of
codes that runs backwards to place zero. -/
def openingTest : Nat → List Int → Option Nat
  | _, [] => none
  | pending, code :: earlier =>
    if code = Instruction.loopEnd.code then openingTest (pending + 1) earlier
    else if code = Instruction.loopTest.code then
      match pending with
      | 0 => some earlier.length
      | pending + 1 => openingTest pending earlier
    else openingTest pending earlier

theorem testBack_eq (p : Program) {count : Nat} (h : count ≤ p.length) (pending : Nat) :
    p.testBack pending count = (openingTest pending (p.take count).reverse).elim .absent
      fun found => .found found := by
  induction count generalizing pending with
  | zero => cases pending <;> rfl
  | succ count ih =>
    have hcount : count < p.length := by omega
    have hlength : (p.take count).reverse.length = count := by simp; omega
    rw [List.take_succ_eq_append_getElem hcount, List.reverse_append, List.reverse_singleton,
      List.singleton_append]
    unfold testBack openingTest
    rw [fetch?_natCast, List.getElem?_eq_getElem hcount]
    dsimp only
    by_cases he : p[count] = Instruction.loopEnd.code
    · rw [if_pos he, if_pos he]
      exact ih (by omega) (pending + 1)
    · rw [if_neg he, if_neg he]
      by_cases ht : p[count] = Instruction.loopTest.code
      · rw [if_pos ht, if_pos ht]
        cases pending with
        | zero => rw [hlength]; rfl
        | succ pending => exact ih (by omega) pending
      · rw [if_neg ht, if_neg ht]
        exact ih (by omega) pending

theorem loopStart_outside {p : Program} {place : Int} (h : (p.length : Int) + 2 ≤ place) :
    p.loopStart place = .outside (place - 2) := by
  obtain ⟨count, hcount⟩ : ∃ count : Nat, place = count + 2 := ⟨(place - 2).toNat, by omega⟩
  have hnone : p.fetch? count = none := (fetch?_eq_none_iff p count).2 (by omega)
  have hplaces : (place - 1).toNat = count + 1 := by omega
  rw [loopStart, hplaces, testBack, hnone]
  exact congrArg Search.outside (by omega)

theorem loopStart_inside (p : Program) {place : Int} (h : place < p.length + 2) :
    p.loopStart place = (openingTest 0 (p.take (place - 1).toNat).reverse).elim .absent
      fun found => .found found := testBack_eq p (by omega) 0

theorem loopStart_natCast (p : Program) {n : Nat} (h : n < p.length + 2) :
    p.loopStart n = (openingTest 0 (p.take (n - 1)).reverse).elim .absent
      fun found => .found found := by
  have hn : ((n : Int) - 1).toNat = n - 1 := by omega
  rw [loopStart_inside p (by omega), hn]

theorem search_ne_outside {p : Program} {place code : Int}
    (h : p.fetch? place = some code) (q : Int) :
    p.loopExit place ≠ .outside q ∧ p.loopStart place ≠ .outside q := by
  have hinside := inside_of_fetch? h
  constructor
  · intro hout
    have hfar := loopExit_outside_iff.1 hout
    omega
  · rw [loopStart_inside p (by omega)]
    cases openingTest 0 (p.take (place - 1).toNat).reverse <;> simp

theorem loopExit_ne_outside (p : Program) (n : Nat) (q : Int) :
    p.loopExit n ≠ .outside q := by
  rw [loopExit_natCast]
  cases (p.drop (n + 2)).findIdx? (· == Instruction.loopEnd.code) <;> simp

theorem loopStart_ne_outside (p : Program) {n : Nat} (h : n < p.length) (q : Int) :
    p.loopStart n ≠ .outside q := by
  rw [loopStart_natCast p (by omega)]
  cases openingTest 0 (p.take (n - 1)).reverse <;> simp

theorem loopExit_found {p : Program} {n : Nat} {place : Int} (h : p.loopExit n = .found place) :
    ∃ k : Nat, place = k ∧ p[k]? = some Instruction.loopEnd.code := by
  rw [loopExit_natCast] at h
  cases hd : (p.drop (n + 2)).findIdx? (· == Instruction.loopEnd.code) with
  | none => simp [hd] at h
  | some distance =>
    simp only [hd, Option.elim, Search.found.injEq] at h
    obtain ⟨hlt, hmark, -⟩ := List.findIdx?_eq_some_iff_getElem.1 hd
    refine ⟨n + 2 + distance, by omega, ?_⟩
    rw [← List.getElem?_drop, List.getElem?_eq_getElem hlt]
    exact congrArg some (eq_of_beq hmark)

theorem openingTest_loopEnd (pending : Nat) (earlier : List Int) :
    openingTest pending (Instruction.loopEnd.code :: earlier) =
      openingTest (pending + 1) earlier := by
  cases pending <;> rfl

theorem openingTest_loopTest (earlier : List Int) :
    openingTest 0 (Instruction.loopTest.code :: earlier) = some earlier.length := rfl

theorem openingTest_loopTest_pending (pending : Nat) (earlier : List Int) :
    openingTest (pending + 1) (Instruction.loopTest.code :: earlier) =
      openingTest pending earlier := rfl

theorem openingTest_other {code : Int} (he : code ≠ Instruction.loopEnd.code)
    (ht : code ≠ Instruction.loopTest.code) (pending : Nat) (earlier : List Int) :
    openingTest pending (code :: earlier) = openingTest pending earlier := by
  cases pending <;> rw [openingTest, if_neg he, if_neg ht]

theorem openingTest_lt {pending found : Nat} {codes : List Int}
    (h : openingTest pending codes = some found) : found < codes.length := by
  fun_induction openingTest pending codes with
  | case1 => simp at h
  | case2 pending earlier ih => exact Nat.lt_succ_of_lt (ih h)
  | case3 earlier =>
    obtain rfl := Option.some.inj h
    exact Nat.lt_succ_self _
  | case4 earlier pending _ ih => exact Nat.lt_succ_of_lt (ih h)
  | case5 pending code earlier _ _ ih => exact Nat.lt_succ_of_lt (ih h)

theorem loopStart_found {p : Program} {n : Nat} {place : Int} (hn : n < p.length)
    (h : p.loopStart n = .found place) : ∃ k : Nat, place = k ∧ k + 1 < n := by
  rw [loopStart_natCast p (by omega)] at h
  cases hf : openingTest 0 (p.take (n - 1)).reverse with
  | none => simp [hf] at h
  | some found =>
    simp only [hf, Option.elim, Search.found.injEq] at h
    have hlt := openingTest_lt hf
    rw [List.length_reverse, List.length_take] at hlt
    exact ⟨found, h.symm, by omega⟩

theorem loopExit_set (p : Program) (n : Nat) (code : Int) :
    Program.loopExit (p.set n code) n = p.loopExit n := by
  rw [loopExit_natCast, loopExit_natCast, List.drop_set_of_lt (by omega)]

theorem loopStart_set (p : Program) {n : Nat} (hn : n < p.length) (code : Int) :
    Program.loopStart (p.set n code) n = p.loopStart n := by
  rw [loopStart_natCast p (by omega), loopStart_natCast _ (by rw [List.length_set]; omega),
    List.take_set_of_le (by omega)]

theorem openingTest_append {front rest : List Int}
    (h : ∀ code ∈ front, code ≠ Instruction.loopEnd.code ∧ code ≠ Instruction.loopTest.code) :
    openingTest 0 (front ++ rest) = openingTest 0 rest := by
  induction front with
  | nil => rfl
  | cons code front ih =>
    have hc := h code (by simp)
    rw [List.cons_append, openingTest_other hc.1 hc.2]
    exact ih fun code hm => h code (by simp [hm])

/-- Codes without a loop test add nothing to a search but their places. -/
theorem openingTest_append_right {front : List Int}
    (h : ∀ code ∈ front, code ≠ Instruction.loopTest.code) (pending : Nat) (codes : List Int) :
    openingTest pending (codes ++ front) =
      (openingTest pending codes).map (· + front.length) := by
  have hfront (pending : Nat) : openingTest pending front = none := by
    induction front generalizing pending with
    | nil => rfl
    | cons code front ih =>
      have ih := ih fun code hm => h code (by simp [hm])
      unfold openingTest
      rw [if_neg (h code (by simp))]
      split
      · exact ih _
      · exact ih _
  induction codes generalizing pending with
  | nil => exact hfront pending
  | cons code codes ih =>
    rw [List.cons_append]
    unfold openingTest
    split
    · exact ih _
    · split
      · cases pending with
        | zero => simp
        | succ pending => exact ih _
      · exact ih _

theorem loopStart_absent {front : List Int}
    (h : ∀ code ∈ front, code ≠ Instruction.loopTest.code) (rest : List Int) {n : Nat}
    (hn : n ≤ front.length) : Program.loopStart (front ++ rest) n = .absent := by
  have htake : (front ++ rest).take (n - 1) = front.take (n - 1) :=
    List.take_append_of_le_length (by omega)
  have hnone : openingTest 0 (front.take (n - 1)).reverse = none := by
    have hcodes : ∀ code ∈ (front.take (n - 1)).reverse, code ≠ Instruction.loopTest.code := by
      intro code hm
      exact h code (List.mem_of_mem_take (List.mem_reverse.1 hm))
    exact openingTest_append_right hcodes 0 []
  rw [loopStart_natCast _ (by simp; omega), htake, hnone]
  rfl

def loop (pre body post : List Int) : Program :=
  pre ++ [Instruction.loopTest.code] ++ body ++ [Instruction.loopEnd.code] ++ post

variable (pre body post : List Int)

theorem loop_eq_test : loop pre body post =
    pre ++ Instruction.loopTest.code :: (body ++ Instruction.loopEnd.code :: post) := by
  simp [loop]

theorem loop_eq_body : loop pre body post =
    (pre ++ [Instruction.loopTest.code]) ++ (body ++ Instruction.loopEnd.code :: post) := by
  simp [loop]

theorem loop_eq_end : loop pre body post =
    (pre ++ Instruction.loopTest.code :: body) ++ Instruction.loopEnd.code :: post := by
  simp [loop]

variable {body}

theorem loopExit_loop (hb : body ≠ []) (h : ∀ code ∈ body, code ≠ Instruction.loopEnd.code) :
    (loop pre body post).loopExit pre.length = .found (pre.length + body.length + 1) := by
  obtain ⟨first, body, rfl⟩ := List.exists_cons_of_ne_nil hb
  have hd : (loop pre (first :: body) post).drop (pre.length + 2) =
      body ++ Instruction.loopEnd.code :: post := by
    simp [loop, List.drop_append]
  have hfree : body.findIdx? (· == Instruction.loopEnd.code) = none := by
    rw [List.findIdx?_eq_none_iff]
    intro code hm
    exact beq_false_of_ne (h code (by simp [hm]))
  have hf : (body ++ Instruction.loopEnd.code :: post).findIdx?
      (· == Instruction.loopEnd.code) = some body.length := by
    rw [List.findIdx?_append, hfree, List.findIdx?_cons, if_pos (beq_self_eq_true _)]
    simp
  rw [loopExit_natCast, hd, hf, List.length_cons]
  exact congrArg Search.found (by omega)

theorem loopStart_loop_concat (front : List Int) (last : Int) :
    (loop pre (front ++ [last]) post).loopStart
        (pre.length + (front ++ [last]).length + 1 : Nat) =
      (openingTest 0 (front.reverse ++ Instruction.loopTest.code :: pre.reverse)).elim .absent
        fun found => .found found := by
  have ht : (loop pre (front ++ [last]) post).take (pre.length + (front ++ [last]).length) =
      pre ++ Instruction.loopTest.code :: front := by
    rw [show loop pre (front ++ [last]) post = (pre ++ Instruction.loopTest.code :: front) ++
      (last :: Instruction.loopEnd.code :: post) by simp [loop]]
    exact List.take_left' (by simp)
  have hlt : pre.length + (front ++ [last]).length + 1 <
      (loop pre (front ++ [last]) post).length + 2 := by
    simp only [loop, List.length_append, List.length_cons]
    omega
  rw [loopStart_natCast _ hlt, Nat.add_sub_cancel, ht, List.reverse_append, List.reverse_cons,
    List.append_assoc, List.singleton_append]

theorem loopStart_loop (hb : body ≠ [])
    (h : ∀ code ∈ body, code ≠ Instruction.loopEnd.code ∧ code ≠ Instruction.loopTest.code) :
    (loop pre body post).loopStart (pre.length + body.length + 1 : Nat) = .found pre.length := by
  obtain ⟨front, last, rfl⟩ : ∃ front last, body = front ++ [last] :=
    ⟨_, _, (List.dropLast_concat_getLast hb).symm⟩
  have hfront : ∀ code ∈ front.reverse,
      code ≠ Instruction.loopEnd.code ∧ code ≠ Instruction.loopTest.code := by
    intro code hm
    exact h code (by simp [List.mem_reverse.1 hm])
  rw [loopStart_loop_concat, openingTest_append hfront, openingTest_loopTest, List.length_reverse]
  rfl

end CowMachine.Program
