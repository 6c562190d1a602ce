import CyreneReactor.Interaction.Program

namespace Interaction

/-! What a program on its own may return, given which answers its calls may get. -/

variable {signature : Signature} {answers : (op : signature.Op) → signature.Answer op → Prop}
  {α β ε : Type}

namespace Program

def Yields (answers : (op : signature.Op) → signature.Answer op → Prop) :
    Program signature α → α → Prop
  | .pure value, result => value = result
  | .call op next, result => ∃ answer, answers op answer ∧ (next answer).Yields answers result
  | .acquire rest, result | .release rest, result => rest.Yields answers result

theorem yields_bind {first : Program signature α} {next : α → Program signature β} {result : β} :
    (first.bind next).Yields answers result ↔
      ∃ value, first.Yields answers value ∧ (next value).Yields answers result := by
  induction first with
  | pure value => simp [bind, Yields]
  | call op rest ih =>
      simp only [bind, Yields, ih]
      constructor
      · rintro ⟨answer, given, value, before, after⟩
        exact ⟨value, ⟨answer, given, before⟩, after⟩
      · rintro ⟨value, ⟨answer, given, before⟩, after⟩
        exact ⟨answer, given, value, before, after⟩
  | acquire rest ih => simpa only [bind, Yields] using ih
  | release rest ih => simpa only [bind, Yields] using ih

end Program

namespace Fallible

variable {first : Fallible signature ε α} {next : α → Fallible signature ε β} {value : β}

/-- A sequence ends with a value when both parts do. -/
theorem yields_bind_ok : (first >>= next).run.Yields answers (.ok value) ↔
    ∃ middle, first.run.Yields answers (.ok middle) ∧
      (next middle).run.Yields answers (.ok value) := by
  rw [ExceptT.run_bind, Program.bind_def, Program.yields_bind]
  constructor
  · rintro ⟨outcome, before, after⟩
    cases outcome with
    | ok middle => exact ⟨middle, before, after⟩
    | error failure => cases after
  · rintro ⟨middle, before, after⟩
    exact ⟨.ok middle, before, after⟩

theorem yields_perform {op : signature.Op} {answer : signature.Answer op} :
    (perform op : Fallible signature ε (signature.Answer op)).run.Yields answers (.ok answer) ↔
      answers op answer := by
  constructor
  · rintro ⟨given, allowed, same⟩
    cases same
    exact allowed
  · exact fun allowed => ⟨answer, allowed, rfl⟩

end Fallible

end Interaction
