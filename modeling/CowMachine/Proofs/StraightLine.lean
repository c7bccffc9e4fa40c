import CowMachine.Proofs.Execution
import CowMachine.Proofs.Transfer

/-!
# Codes that do not jump

A plain code, neither a mark of a loop nor a delegation nor the stop code,
does to the store what it does in a machine without a program, and goes on to
the next place. A row of plain codes is carried out one after another,
wherever in a program it stands.
-/

set_option autoImplicit false

namespace CowMachine

def Plain (code : Int) : Prop :=
  code ≠ Instruction.loopEnd.code ∧ code ≠ Instruction.loopTest.code ∧
    code ≠ Instruction.delegate.code ∧ code ≠ stopCode

instance (code : Int) : Decidable (Plain code) := inferInstanceAs (Decidable (_ ∧ _))

theorem Plain.effective {cell code : Int} {i : Instruction} (hcode : Plain code)
    (h : i.Effective cell code) : code = i.code ∧ i ≠ .loopEnd ∧ i ≠ .loopTest := by
  obtain ⟨hend, htest, hdelegate, -⟩ := hcode
  rcases h.2 with rfl | ⟨hd, -⟩
  · exact ⟨rfl, fun hi => hend (by rw [hi]), fun hi => htest (by rw [hi])⟩
  · exact absurd hd hdelegate

namespace Store

def alone (s : Store) : Machine := (Machine.start [] s.terminal).resume 0 s

/-- What carrying out a code does to the store, or the fault and the store
that a failure leaves. -/
def perform (s : Store) (code : Int) : Except (Fault × Store) Store :=
  match s.alone.dispatch code with
  | .next m => .ok m.store
  | .fail fault m => .error (fault, m.store)

def performAll (s : Store) (codes : List Int) : Except (Fault × Store) Store :=
  codes.foldlM perform s

theorem performAll_cons_ok {s s' : Store} {code : Int} (h : s.perform code = .ok s')
    (codes : List Int) : s.performAll (code :: codes) = s'.performAll codes := by
  rw [performAll, List.foldlM_cons, h]
  rfl

theorem performAll_cons_error {s : Store} {code : Int} {e : Fault × Store}
    (h : s.perform code = .error e) (codes : List Int) :
    s.performAll (code :: codes) = .error e := by
  rw [performAll, List.foldlM_cons, h]
  rfl

end Store

namespace Control

theorem react_transfer (c d : Control) {shift : Int} (hr : d.register = c.register)
    (ht : d.terminal = c.terminal) (hpc : d.pc = c.pc + shift) (cell : Int) {code : Int}
    (hcode : Plain code) : d.react cell code = (c.react cell code).transfer d shift := by
  cases hi : Instruction.ofCode? code with
  | none =>
    rw [react, react, if_neg hcode.2.2.2, if_neg hcode.2.2.2, hi]
    simp only [Reaction.transfer, ← hr, ← ht]
  | some i =>
    have heq := (Instruction.ofCode?_eq_some_iff.1 hi).symm
    have heffective : i.Effective cell code :=
      ⟨fun hd => hcode.2.2.1 (by rw [heq, hd]), .inl heq⟩
    obtain ⟨-, hend, htest⟩ := hcode.effective heffective
    rw [react_effective _ heffective, react_effective _ heffective]
    exact obey_transfer c d hr ht hpc cell (fun h => absurd h htest) fun h => absurd h hend

end Control

namespace Machine

theorem pc_of_plain {m n : Machine} {code : Int} (hcode : Plain code)
    (h : m.dispatch code = .next n) : n.pc = m.pc + 1 := by
  obtain ⟨c, tape⟩ := n
  obtain ⟨action, hr, -⟩ := dispatch_next h
  rcases Control.react_act hr with
    ⟨i, place, register, terminal, hi, hl, rfl⟩ | ⟨hstop | hstop, -⟩
  · obtain ⟨-, hend, htest⟩ := hcode.effective hi
    cases hl with
    | onward => rfl
    | behind hi => exact absurd hi htest
    | back hi => exact absurd hi hend
  · exact absurd hstop hcode.2.2.2
  · exact absurd hstop.1 hcode.2.2.1

theorem dispatch_plain (m : Machine) {code : Int} (hcode : Plain code) :
    m.dispatch code =
      match m.store.perform code with
      | .ok s => .next (m.resume (m.pc + 1) s)
      | .error (fault, s) => .fail fault (m.resume m.pc s) := by
  have htransfer : m.dispatch code = (m.store.alone.dispatch code).transfer m m.pc :=
    dispatch_transfer m m.store.alone rfl
      (Control.react_transfer m.store.alone.toControl m.toControl rfl rfl (Int.zero_add _).symm _
        hcode)
  rw [htransfer, Store.perform]
  cases hd : m.store.alone.dispatch code with
  | fail fault n => rfl
  | next n =>
    have hpc : n.pc = 0 + 1 := pc_of_plain hcode hd
    simp only [Outcome.transfer]
    rw [hpc, Int.zero_add, Int.add_comm]

theorem step_plain {m : Machine} {front rest : List Int} {code : Int} (hcode : Plain code)
    (hp : m.program = front ++ code :: rest) (hpc : m.pc = front.length)
    (hrun : m.halted = false) :
    m.step =
      match m.store.perform code with
      | .ok s => .next (m.resume (m.pc + 1) s)
      | .error (fault, s) => .fail fault (m.resume m.pc s) := by
  rw [step_running hrun (current?_append hp hpc), dispatch_plain m hcode]

theorem steps_plain {codes rest : List Int} (hcodes : ∀ code ∈ codes, Plain code)
    (m : Machine) (front : List Int) (hp : m.program = front ++ (codes ++ rest))
    (hpc : m.pc = front.length) (hrun : m.halted = false) {s : Store}
    (hs : m.store.performAll codes = .ok s) :
    m.steps codes.length = .next (m.resume (m.pc + codes.length) s) := by
  -- A code that is done moves over to the front, and the machine goes on.
  induction codes generalizing m front with
  | nil =>
    obtain rfl := Except.ok.inj hs
    rw [List.length_nil, Int.natCast_zero, Int.add_zero]
    rfl
  | cons code codes ih =>
    have hstep := step_plain (hcodes code (by simp)) hp hpc hrun
    cases hc : m.store.perform code with
    | error e => simp [Store.performAll_cons_error hc] at hs
    | ok s' =>
      rw [hc] at hstep
      rw [Store.performAll_cons_ok hc] at hs
      have hrest := ih (fun code hm => hcodes code (by simp [hm])) (m.resume (m.pc + 1) s')
        (front ++ [code]) (by simp [hp]) (by simp [hpc]) hrun hs
      have hplace : m.pc + 1 + codes.length = m.pc + (codes.length + 1 : Nat) := by omega
      rw [resume_resume, resume_pc, hplace] at hrest
      rw [List.length_cons, steps, hstep]
      exact hrest

theorem steps_plain_fail {codes rest : List Int} (hcodes : ∀ code ∈ codes, Plain code)
    (m : Machine) (front : List Int) (hp : m.program = front ++ (codes ++ rest))
    (hpc : m.pc = front.length) (hrun : m.halted = false) {fault : Fault} {s : Store}
    (hs : m.store.performAll codes = .error (fault, s)) :
    ∃ k < codes.length, ∃ m', m.steps k = .next m' ∧
      m'.step = .fail fault (m.resume (m.pc + k) s) := by
  induction codes generalizing m front with
  | nil => simp [Store.performAll, pure, Except.pure] at hs
  | cons code codes ih =>
    have hstep := step_plain (hcodes code (by simp)) hp hpc hrun
    cases hc : m.store.perform code with
    | error e =>
      rw [Store.performAll_cons_error hc] at hs
      rw [hc, Except.error.inj hs] at hstep
      refine ⟨0, by simp, m, rfl, ?_⟩
      rw [Int.natCast_zero, Int.add_zero]
      exact hstep
    | ok s' =>
      rw [hc] at hstep
      rw [Store.performAll_cons_ok hc] at hs
      obtain ⟨k, hk, m', hsteps, hfail⟩ := ih (fun code hm => hcodes code (by simp [hm]))
        (m.resume (m.pc + 1) s') (front ++ [code]) (by simp [hp]) (by simp [hpc]) hrun hs
      have hplace : m.pc + 1 + k = m.pc + (k + 1 : Nat) := by omega
      rw [resume_resume, resume_pc, hplace] at hfail
      refine ⟨k + 1, by simpa using hk, m', ?_, hfail⟩
      rw [steps, hstep]
      exact hsteps

end Machine

end CowMachine
