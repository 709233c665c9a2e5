import Mathlib.Data.List.Forall2
import Tpm2Autoenroll.Interaction.Fallible

/-! Two programs in step: whatever the first one is answered, the second one can be answered in
a way that corresponds to it, and both go on in step. A run of the first is then mirrored by one
of the second, event by event.
-/

namespace Interaction

variable {Op : Type} {Res : Op → Type} {α β γ δ : Type}

namespace Prog

/-- The second program mirrors the first: they call, stall and return together. `like` says
which events correspond, `same` which results do; `reply` is what the second one is answered.
-/
inductive Mirrors (like : Event Res → Event Res → Prop) (same : α → β → Prop)
    : Prog Res α → Prog Res β → Prop
  | ret {value : α} {other : β} (related : same value other)
    : Mirrors like same (.ret value) (.ret other)
  | pending : Mirrors like same .pending .pending
  | call {op mirrored : Op} {rest : Res op → Prog Res α} {onwards : Res mirrored → Prog Res β}
    (reply : Res op → Res mirrored) (alike : ∀ answer, like ⟨op, answer⟩ ⟨mirrored, reply answer⟩)
    (later : ∀ answer, Mirrors like same (rest answer) (onwards (reply answer)))
    : Mirrors like same (.call op rest) (.call mirrored onwards)

namespace Mirrors

variable {like : Event Res → Event Res → Prop} {allowed : Op → Prop} {left : Prop}
  {same weaker : α → β → Prop} {ended : γ → δ → Prop} {program : Prog Res α}
  {mirror : Prog Res β}

/-- A program whose events correspond to themselves mirrors itself, by induction on it. -/
theorem refl (only : program.Only allowed left)
    (own : ∀ op (answer : Res op), allowed op → like ⟨op, answer⟩ ⟨op, answer⟩)
    : Mirrors like Eq program program := by
  induction program with
  | ret value => exact .ret rfl
  | pending => exact .pending
  | call op rest ih =>
      exact .call id (fun answer => own op answer only.1) (fun answer => ih answer (only.2 answer))

/-- The rule of consequence, by induction on the first program. -/
theorem mono (mirrors : Mirrors like same program mirror)
    (weaken : ∀ value other, same value other → weaker value other)
    : Mirrors like weaker program mirror := by
  induction mirrors with
  | ret related => exact .ret (weaken _ _ related)
  | pending => exact .pending
  | call reply alike _ ih => exact .call reply alike ih

/-- The rule of sequencing, by induction on the first program. -/
theorem bind {next : α → Prog Res γ} {follow : β → Prog Res δ}
    (mirrors : Mirrors like same program mirror)
    (rest : ∀ value other, same value other → Mirrors like ended (next value) (follow other))
    : Mirrors like ended (program >>= next) (mirror >>= follow) := by
  induction mirrors with
  | ret related => exact rest _ _ related
  | pending => exact .pending
  | call reply alike _ ih => exact .call reply alike ih

/-- The same program first, and then what follows it in step. -/
theorem refl_bind {next : α → Prog Res γ} {follow : α → Prog Res δ}
    (only : program.Only allowed left)
    (own : ∀ op (answer : Res op), allowed op → like ⟨op, answer⟩ ⟨op, answer⟩)
    (rest : ∀ value, Mirrors like ended (next value) (follow value))
    : Mirrors like ended (program >>= next) (program >>= follow) := by
  refine (refl only own).bind fun value other related => ?_
  rw [← related]
  exact rest value

/-- Every run is mirrored by one with corresponding events that ends alike, completed or not; by
induction on the run.
-/
theorem runs {trace : Trace Res} {outcome : Option α} (mirrors : Mirrors like same program mirror)
    (run : program.Runs trace outcome)
    : ∃ reflection result, mirror.Runs reflection result
        ∧ List.Forall₂ like trace reflection
        ∧ Option.Rel same outcome result := by
  induction run generalizing mirror with
  | halted => exact ⟨[], none, .halted mirror, .nil, .none⟩
  | ret value =>
      cases mirrors with
      | ret related => exact ⟨[], some _, .ret _, .nil, .some related⟩
  | call answer _ ih =>
      cases mirrors with
      | call reply alike later =>
          obtain ⟨reflection, result, run, events, ends⟩ := ih (later answer)
          exact ⟨_, result, .call (reply answer) run, .cons (alike answer) events, ends⟩

end Mirrors

end Prog

end Interaction
