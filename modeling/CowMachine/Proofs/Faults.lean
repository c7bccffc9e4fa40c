import CowMachine.Terminal

/-!
# Internal faults

A fault is internal when it shows a program that no source has: a place
outside it or a code that names nothing. Reading and printing show none.
-/

set_option autoImplicit false

namespace CowMachine

def Fault.Internal : Fault → Prop
  | .outsideProgram _ => True
  | .unknownCode _ => True
  | _ => False

/-- Whatever goes wrong here is not internal. -/
def Sound {α : Type} (r : Except Fault α) : Prop := ∀ fault, r = .error fault → ¬fault.Internal

namespace Sound

variable {α β : Type}

theorem ok (a : α) : Sound (.ok a) := nofun

theorem error {fault : Fault} (h : ¬fault.Internal) : Sound (.error fault : Except Fault α) := by
  rintro _ ⟨⟩
  exact h

theorem bind {r : Except Fault α} {f : α → Except Fault β} (hr : Sound r)
    (hf : ∀ a, Sound (f a)) : Sound (r >>= f) := by
  cases r with
  | error fault => exact error (hr fault rfl)
  | ok a => exact hf a

theorem mapM {f : α → Except Fault β} (hf : ∀ a, Sound (f a)) (as : List α) :
    Sound (as.mapM f) := by
  induction as with
  | nil => exact ok []
  | cons a as ih =>
    rw [List.mapM_cons]
    exact (hf a).bind fun b => ih.bind fun bs => ok (b :: bs)

end Sound

namespace Input

theorem Ending.fault?_not_internal {e : Ending} {fault : Fault}
    (h : e.fault? = some fault) : ¬fault.Internal := by
  cases e <;> simp only [fault?, Option.some.injEq, reduceCtorEq] at h <;> subst h <;> exact id

theorem readChar_sound (i : Input) : Sound i.readChar := by
  unfold readChar
  split
  · exact .ok _
  · split
    · exact .ok _
    · rename_i hf
      exact .error (Ending.fault?_not_internal hf)

theorem readWord_sound (i : Input) : Sound i.readWord.1 := by
  unfold readWord
  dsimp only
  cases (i.rest.dropWhile Text.isBlank).dropWhile fun c => !Text.isBlank c with
  | cons c rest => exact .ok _
  | nil =>
    cases hf : i.ending.fault? with
    | none => exact .ok _
    | some fault => exact .error (Ending.fault?_not_internal hf)

theorem readNumber_sound (i : Input) : Sound i.readNumber.1 := by
  have hw := i.readWord_sound
  unfold readNumber
  split
  · rename_i h
    exact .error (hw _ (congrArg Prod.fst h))
  · exact .error id
  · split
    · exact .ok _
    · exact .error id

end Input

namespace Terminal

theorem readChar_sound (t : Terminal) : Sound t.readChar := by
  have hr := t.input.readChar_sound
  unfold readChar
  split
  · exact .ok _
  · exact .ok _
  · rename_i h
    exact .error (hr _ h)

theorem writeLine_sound (t : Terminal) (line : Line) : Sound (t.writeLine line) := by
  unfold writeLine
  split
  · exact .error id
  · exact .ok _

theorem writeNumber_sound (t : Terminal) (v : Int) : Sound (t.writeNumber v) := by
  unfold writeNumber
  split
  · exact t.writeLine_sound _
  · exact .error id

end Terminal

end CowMachine
