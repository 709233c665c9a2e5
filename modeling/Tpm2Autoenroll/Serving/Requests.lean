import Tpm2Autoenroll.Interaction.Fallible
import Tpm2Autoenroll.Model.System

/-! The rules for a single request: its footprint, its precondition and its runs. -/

namespace Tpm2Autoenroll

open Interaction Prog

variable {σ α β : Type} {op : Op}

/-- A request followed by what depends on its answer. -/
theorem only_ask {allowed : Op → Prop} {left : Prop} {next : Res op → Sys α}
    (now : allowed op) (rest : ∀ answer, (next answer).Only allowed left)
    : (ask op >>= next).Only allowed left :=
  ⟨now, rest⟩

variable {monitor : Monitor Res σ} {state : σ}

/-- A request is issued where it is allowed, and what follows starts from each state its
answer can lead to.
-/
theorem wp_ask {next : Res op → Sys α} {post : α → σ → Prop}
    (allowed : monitor.allows state op)
    (rest : ∀ answer after,
      monitor.step state ⟨op, answer⟩ after → wp monitor (next answer) post after)
    : wp monitor (ask op >>= next) post state :=
  ⟨allowed, rest⟩

/-- A request that ends a program. -/
theorem wp_ask_last {post : Res op → σ → Prop} (allowed : monitor.allows state op)
    (rest : ∀ answer after, monitor.step state ⟨op, answer⟩ after → post answer after)
    : wp monitor (ask op) post state :=
  ⟨allowed, rest⟩

/-- The rule of sequencing with a specification of the first program. -/
theorem wp_then {program : Sys α} {next : α → Sys β} {middle : α → σ → Prop}
    {post : β → σ → Prop} (first : wp monitor program middle state)
    (rest : ∀ value after, middle value after → wp monitor (next value) post after)
    : wp monitor (program >>= next) post state :=
  wp_bind.mpr (wp_mono first rest)

/-- A run that begins with a request. -/
theorem runs_ask {next : Res op → Sys α} {trace : Trace} {result : α}
    : (ask op >>= next).Runs trace (some result)
      ↔ ∃ answer later, trace = ⟨op, answer⟩ :: later
        ∧ (next answer).Runs later (some result) :=
  runs_call_some

/-- A run of a single request. -/
theorem runs_ask_last {trace : Trace} {answer : Res op}
    : (ask op).Runs trace (some answer) ↔ trace = [⟨op, answer⟩] :=
  runs_perform_some

end Tpm2Autoenroll
