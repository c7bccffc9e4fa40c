import CowMachine.Proofs.Footprint

/-!
# What the register remembers

Only the toggle works on the register, and it takes two turns: it copies the
current cell into an empty register, and moves what a full one holds into the
current cell. So the register is empty after an even number of toggles. After an
odd number it holds the cell that the last one found, however far the machine has
gone on and whatever has become of that cell. The number held may be zero, and a
toggle may come from a cell that holds its code.
-/

set_option autoImplicit false

namespace CowMachine

namespace Machine

variable {m : Machine}

/-- The next step is a toggle, of the program or through a cell with its code. -/
def Toggles (m : Machine) : Prop :=
  m.halted = false ∧ (m.current? = some Instruction.toggle.code ∨
    m.current? = some Instruction.delegate.code ∧ m.tape.current = Instruction.toggle.code)

instance (m : Machine) : Decidable m.Toggles := inferInstanceAs (Decidable (_ ∧ _))

theorem Toggles.effective (h : m.Toggles) :
    ∃ code, m.current? = some code ∧ Instruction.toggle.Effective m.tape.current code := by
  rcases h.2 with hcode | ⟨hcode, hcell⟩
  · exact ⟨_, hcode, by decide, .inl rfl⟩
  · exact ⟨_, hcode, by decide, .inr ⟨rfl, hcell⟩⟩

theorem toggles_of_effective {code : Int} (hrun : m.halted = false)
    (hcode : m.current? = some code) (hi : Instruction.toggle.Effective m.tape.current code) :
    m.Toggles := by
  refine ⟨hrun, ?_⟩
  rcases hi.2 with rfl | ⟨rfl, hcell⟩
  · exact .inl hcode
  · exact .inr ⟨hcode, hcell⟩

theorem Toggles.step_eq (h : m.Toggles) :
    ∃ code, m.step = m.dispatch code ∧
      m.toControl.react m.tape.current code = m.toControl.called m.tape.current .toggle := by
  obtain ⟨code, hcode, hi⟩ := h.effective
  exact ⟨code, step_running h.1 hcode, Control.react_effective _ hi⟩

theorem Toggles.capture (h : m.Toggles) (hempty : m.register = none) :
    m.step = .next { m with pc := m.pc + 1, register := some m.tape.current } := by
  obtain ⟨code, hstep, hreact⟩ := h.step_eq
  rw [hstep, dispatch, hreact, Control.called, hempty]
  rfl

theorem Toggles.paste (h : m.Toggles) {v : Int} (hheld : m.register = some v) :
    m.step = .next { m with pc := m.pc + 1, register := none, tape := m.tape.write v } := by
  obtain ⟨code, hstep, hreact⟩ := h.step_eq
  rw [hstep, dispatch, hreact, Control.called, hheld]
  rfl

theorem register_of_not_toggles (h : ¬m.Toggles) : m.step.machine.register = m.register := by
  cases hstep : m.step with
  | fail fault u =>
    rcases step_fail_kept hstep with rfl | ⟨-, rfl⟩
    · rfl
    · rfl
  | next u =>
    cases hrun : m.halted with
    | true =>
      rw [step_halted hrun] at hstep
      obtain rfl := Outcome.next.inj hstep
      rfl
    | false =>
      cases hcode : m.current? with
      | none =>
        rw [step_outside hrun hcode] at hstep
        cases hstep
      | some code =>
        rw [step_running hrun hcode] at hstep
        rcases dispatch_cases hstep with ⟨i, action, hi, hact, -⟩ | ⟨-, journal, rfl⟩
        · apply (Control.obey_act_effects hact).2
          rintro rfl
          exact h (toggles_of_effective hrun hcode hi)
        · rfl

def toggleTimes (m : Machine) (n : Nat) : List Nat :=
  (List.range n).filter fun k => (m.after k).Toggles

theorem toggleTimes_succ (m : Machine) (n : Nat) : m.toggleTimes (n + 1) =
    m.toggleTimes n ++ if (m.after n).Toggles then [n] else [] := by
  rw [toggleTimes, List.range_succ, List.filter_append]
  by_cases h : (m.after n).Toggles
  · simp [h, toggleTimes]
  · simp [h, toggleTimes]

theorem toggleTimes_getElem? {n i t : Nat} (h : (m.toggleTimes n)[i]? = some t) :
    (m.after t).Toggles ∧ m.toggleTimes t = (m.toggleTimes n).take i := by
  induction n with
  | zero => cases h
  | succ n ih =>
    rw [toggleTimes_succ] at h ⊢
    by_cases hi : i < (m.toggleTimes n).length
    · rw [List.getElem?_append_left hi] at h
      rw [List.take_append_of_le_length (Nat.le_of_lt hi)]
      exact ih h
    · rw [List.getElem?_append_right (Nat.le_of_not_lt hi)] at h
      by_cases htoggles : (m.after n).Toggles
      · rw [if_pos htoggles] at h
        have hzero : i - (m.toggleTimes n).length = 0 := by
          by_contra hne
          rw [List.getElem?_singleton, if_neg hne] at h
          cases h
        have hlast : i = (m.toggleTimes n).length := by omega
        rw [hzero] at h
        obtain rfl := Option.some.inj h
        rw [hlast, List.take_left]
        exact ⟨htoggles, rfl⟩
      · rw [if_neg htoggles] at h
        cases h

/-- What is left of some toggles: the cell that the last one found, if their number
is odd. -/
def held (m : Machine) (times : List Nat) : Register :=
  if times.length % 2 = 0 then none else times.getLast?.map fun k => (m.after k).tape.current

theorem held_even {times : List Nat} (h : times.length % 2 = 0) : m.held times = none := if_pos h

theorem held_odd {times : List Nat} {k : Nat} (h : times.length % 2 = 1)
    (hk : times.getLast? = some k) : m.held times = some (m.after k).tape.current := by
  rw [held, if_neg (by omega), hk]
  rfl

theorem getLast?_of_odd {times : List Nat} (h : times.length % 2 = 1) :
    ∃ k, times.getLast? = some k := by
  cases hlast : times.getLast? with
  | some k => exact ⟨k, rfl⟩
  | none =>
    rw [List.getLast?_eq_none_iff] at hlast
    rw [hlast] at h
    cases h

theorem register_after (hm : m.register = none) (n : Nat) :
    (m.after n).register = m.held (m.toggleTimes n) := by
  induction n with
  | zero => exact hm
  | succ n ih =>
    have hlength : (m.toggleTimes n ++ [n]).length = (m.toggleTimes n).length + 1 := by simp
    rw [after, toggleTimes_succ]
    by_cases htoggles : (m.after n).Toggles
    · rw [if_pos htoggles]
      by_cases heven : (m.toggleTimes n).length % 2 = 0
      · rw [held_even heven] at ih
        rw [htoggles.capture ih, held_odd (by omega) List.getLast?_concat]
        rfl
      · have hodd : (m.toggleTimes n).length % 2 = 1 := by omega
        obtain ⟨k, hk⟩ := getLast?_of_odd hodd
        rw [held_odd hodd hk] at ih
        rw [htoggles.paste ih, held_even (by omega)]
        rfl
    · rw [if_neg htoggles, List.append_nil, register_of_not_toggles htoggles]
      exact ih

theorem tape_after_capture (hm : m.register = none) {n i s : Nat} (heven : i % 2 = 0)
    (hs : (m.toggleTimes n)[i]? = some s) : (m.after (s + 1)).tape = (m.after s).tape := by
  obtain ⟨htoggles, htimes⟩ := toggleTimes_getElem? hs
  have hlt := (List.getElem?_eq_some_iff.1 hs).1
  have hempty : (m.after s).register = none := by
    rw [register_after hm, htimes]
    apply held_even
    rw [List.length_take_of_le (Nat.le_of_lt hlt), heven]
  rw [after, htoggles.capture hempty]
  rfl

theorem tape_after_paste (hm : m.register = none) {n i s t : Nat} (heven : i % 2 = 0)
    (hs : (m.toggleTimes n)[i]? = some s) (ht : (m.toggleTimes n)[i + 1]? = some t) :
    (m.after (t + 1)).tape = (m.after t).tape.write (m.after s).tape.current := by
  obtain ⟨htoggles, htimes⟩ := toggleTimes_getElem? ht
  have hlt := (List.getElem?_eq_some_iff.1 ht).1
  have hlast : ((m.toggleTimes n).take (i + 1)).getLast? = some s := by
    rw [List.take_add_one, hs]
    exact List.getLast?_concat
  have hheld : (m.after t).register = some (m.after s).tape.current := by
    rw [register_after hm, htimes]
    apply held_odd _ hlast
    rw [List.length_take_of_le (Nat.le_of_lt hlt)]
    omega
  rw [after, htoggles.paste hheld]
  rfl

end Machine

/-- At all times of a run, failed steps included: the register is empty after an
even number of toggles, and after an odd number it holds what the last of them found
in the current cell. Each even toggle writes what the odd one before it found, which
had changed no cell, into the current cell and into no other. -/
theorem register_remembers_odd_toggle (p : Program) (terminal : Terminal) (n : Nat) :
    let m := Machine.start p terminal
    let times := m.toggleTimes n
    (times.length % 2 = 0 → (m.after n).register = none) ∧
    (times.length % 2 = 1 → ∃ k, times.getLast? = some k ∧
      (m.after n).register = some (m.after k).tape.current) ∧
    ∀ j t, times[2 * j + 1]? = some t → ∃ s, times[2 * j]? = some s ∧
      (m.after (s + 1)).tape = (m.after s).tape ∧
      (m.after (t + 1)).tape = (m.after t).tape.write (m.after s).tape.current ∧
      ((m.after s).tape.cursor ≠ (m.after t).tape.cursor →
        (m.after (t + 1)).tape.cells[(m.after s).tape.cursor]? =
          (m.after t).tape.cells[(m.after s).tape.cursor]?) := by
  intro m times
  have hregister (k : Nat) : (m.after k).register = m.held (m.toggleTimes k) :=
    Machine.register_after rfl k
  refine ⟨fun heven => ?_, fun hodd => ?_, fun j t ht => ?_⟩
  · rw [hregister]
    exact Machine.held_even heven
  · obtain ⟨k, hk⟩ := Machine.getLast?_of_odd hodd
    refine ⟨k, hk, ?_⟩
    rw [hregister]
    exact Machine.held_odd hodd hk
  · have hlt : 2 * j + 1 < times.length := (List.getElem?_eq_some_iff.1 ht).1
    have hs : times[2 * j]? = some times[2 * j] := List.getElem?_eq_getElem (by omega)
    have htape := Machine.tape_after_paste rfl (Nat.mul_mod_right 2 j) hs ht
    refine ⟨times[2 * j], hs, Machine.tape_after_capture rfl (Nat.mul_mod_right 2 j) hs, htape, ?_⟩
    intro hapart
    rw [htape, Tape.cells_write, List.getElem?_set_ne (Ne.symm hapart)]

theorem register_remembers_odd_toggle_through_cell :
    let p : Program := [9, 4, 3, 255]
    let terminal := Terminal.ofInput (.ofText ['\t'] false)
    let m := Machine.start p terminal
    m.toggleTimes 2 = [0] ∧ m.toggleTimes 3 = [0, 2] ∧
    (m.after 2).tape = ⟨[], 9, []⟩ ∧ (m.after 2).register = some 0 ∧
    (m.after 3).tape = ⟨[], 0, []⟩ ∧ (m.after 3).register = none := by
  intro p terminal m
  have hone : m.toggleTimes 2 = [0] := by decide
  have htwo : m.toggleTimes 3 = [0, 2] := by decide
  have hnine : (m.after 2).tape = ⟨[], 9, []⟩ := by decide
  obtain ⟨-, hodd, -⟩ := register_remembers_odd_toggle p terminal 2
  obtain ⟨heven, -, hpairs⟩ := register_remembers_odd_toggle p terminal 3
  have hm : Machine.start p terminal = m := rfl
  rw [hm, hone] at hodd
  rw [hm, htwo] at heven hpairs
  obtain ⟨k, hk, hheld⟩ := hodd rfl
  obtain rfl : 0 = k := Option.some.inj hk
  obtain ⟨s, hs, -, htape, -⟩ := hpairs 0 2 rfl
  obtain rfl : 0 = s := Option.some.inj hs
  rw [hnine] at htape
  exact ⟨hone, htwo, hnine, hheld, htape, heven rfl⟩

end CowMachine
