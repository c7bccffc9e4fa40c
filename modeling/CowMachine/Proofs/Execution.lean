import CowMachine.Machine

/-!
# Steps one after another

Two ways to go on: a machine can be stepped again after a failure, from the
state which that left, or a sequence of steps ends with the first failure.
-/

set_option autoImplicit false

namespace CowMachine

def Outcome.machine : Outcome → Machine
  | .next m => m
  | .fail _ m => m

namespace Machine

/-- After some calls of the step, each made whether the one before failed or
not. -/
def after (m : Machine) : Nat → Machine
  | 0 => m
  | n + 1 => (m.after n).step.machine

theorem after_invariant {P : Machine → Prop} (hstep : ∀ m, P m → P m.step.machine)
    (m : Machine) (hm : P m) (n : Nat) : P (m.after n) := by
  induction n with
  | zero => exact hm
  | succ n ih => exact hstep _ ih

/-- Some steps, ended by the first that fails. -/
def steps : Nat → Machine → Outcome
  | 0, m => .next m
  | n + 1, m => m.step.andThen (steps n)

theorem steps_add (a b : Nat) (m : Machine) :
    m.steps (a + b) = (m.steps a).andThen (steps b) := by
  induction a generalizing m with
  | zero => rw [Nat.zero_add]; rfl
  | succ a ih =>
    rw [Nat.add_right_comm, steps, steps]
    cases m.step with
    | next m' => exact ih m'
    | fail fault m' => rfl

theorem steps_one (m : Machine) : m.steps 1 = m.step := by
  rw [steps]
  cases m.step <;> rfl

theorem steps_succ {m m' : Machine} (h : m.step = .next m') (n : Nat) :
    m.steps (n + 1) = m'.steps n := by
  rw [steps, h]
  rfl

theorem steps_of_steps {a b : Nat} {m m' : Machine} (h : m.steps a = .next m') :
    m.steps (a + b) = m'.steps b := by
  rw [steps_add, h]
  rfl

theorem steps_split {a b : Nat} {m m' : Machine} (h : m.steps (a + b) = .next m') :
    ∃ u, m.steps a = .next u ∧ u.steps b = .next m' := by
  rw [steps_add] at h
  cases ha : m.steps a with
  | fail fault u =>
    rw [ha] at h
    cases h
  | next u =>
    rw [ha] at h
    exact ⟨u, rfl, h⟩

theorem steps_concat {n : Nat} {m m' : Machine} (h : m.steps (n + 1) = .next m') :
    ∃ u, m.steps n = .next u ∧ u.step = .next m' := by
  obtain ⟨u, hn, hlast⟩ := steps_split h
  exact ⟨u, hn, steps_one u ▸ hlast⟩

theorem after_add (m : Machine) (a b : Nat) : m.after (a + b) = (m.after a).after b := by
  induction b with
  | zero => rfl
  | succ b ih => rw [← Nat.add_assoc, after, ih, after]

theorem after_of_steps {a : Nat} {m m' : Machine} (h : m.steps a = .next m') (b : Nat) :
    m.after (a + b) = m'.after b := by
  induction a generalizing m with
  | zero =>
    obtain rfl := Outcome.next.inj h
    rw [Nat.zero_add]
  | succ a ih =>
    cases hstep : m.step with
    | fail fault n =>
      rw [steps, hstep] at h
      cases h
    | next n =>
      rw [steps_succ hstep] at h
      have hone : m.after 1 = n := congrArg Outcome.machine hstep
      rw [Nat.add_right_comm, Nat.add_comm, after_add, hone]
      exact ih h

theorem after_eq_of_steps {n : Nat} {m m' : Machine} (h : m.steps n = .next m') :
    m.after n = m' :=
  after_of_steps h 0

theorem reached_of_fail {P : Machine → Prop} {m m' : Machine} {n : Nat} {fault : Fault}
    (hfail : m.steps n = .fail fault m') (h : ∀ k, k < n → P (m.after k)) (k : Nat)
    (u : Machine) (hsteps : m.steps k = .next u) : P u := by
  rcases Nat.lt_or_ge k n with hk | hk
  · rw [← after_eq_of_steps hsteps]
    exact h k hk
  · obtain ⟨j, rfl⟩ := Nat.exists_eq_add_of_le hk
    rw [steps_add, hfail] at hsteps
    cases hsteps

end Machine

end CowMachine
