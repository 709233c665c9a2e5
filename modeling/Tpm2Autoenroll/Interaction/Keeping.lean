import Tpm2Autoenroll.Interaction.Monitors

/-! Programs that keep an invariant: each part is shown to keep it once, and what is put together
from such parts keeps it too.
-/

namespace Interaction

variable {Op : Type} {Res : Op → Type} {σ α β : Type}

namespace Prog

variable {monitor : Monitor Res σ} {holds : σ → Prop}

/-- Wherever the invariant holds, every call of the program is allowed, and the invariant holds
again when the program is over.
-/
def Keeps (monitor : Monitor Res σ) (holds : σ → Prop) (program : Prog Res α) : Prop :=
  ∀ state, holds state → wp monitor program (fun _ after => holds after) state

theorem Keeps.pure {value : α} : (pure value : Prog Res α).Keeps monitor holds :=
  fun _ held => held

theorem Keeps.bind {program : Prog Res α} {next : α → Prog Res β}
    (first : program.Keeps monitor holds) (rest : ∀ value, (next value).Keeps monitor holds)
    : (program >>= next).Keeps monitor holds :=
  fun state held => wp_bind.mpr (wp_mono (first state held) fun value after => rest value after)

/-- A program is fine if each call it can make is. -/
theorem Keeps.of_only {allowed : Op → Prop} {left : Prop} {program : Prog Res α}
    (only : program.Only allowed left)
    (rests : left → ∀ state, holds state → monitor.stalls state)
    (quiet : ∀ state op, allowed op → holds state → monitor.allows state op)
    (kept : ∀ state op answer after,
      allowed op → holds state → monitor.step state ⟨op, answer⟩ after → holds after)
    : program.Keeps monitor holds :=
  fun _ held => wp_invariant only rests quiet kept held

end Prog

end Interaction
