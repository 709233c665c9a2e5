import Tpm2Autoenroll.Interaction.Monitors

/-! Programs that can fail: sequencing stops at the first error, and the rules for runs,
footprints and preconditions say so.
-/

namespace Interaction

variable {Op : Type} {Res : Op → Type} {σ ε α β : Type}

/-- A program that ends in an error or a value. -/
abbrev Fallible (Res : Op → Type) (ε α : Type) := ExceptT ε (Prog Res) α

namespace Fallible

open Prog Monitor

/-- Sequencing runs the continuation after a value and passes an error on. -/
theorem run_bind (program : Fallible Res ε α) (next : α → Fallible Res ε β)
    : (program >>= next).run
      = program.run >>= fun result =>
          match result with
          | .ok value => (next value).run
          | .error error => pure (.error error) :=
  ExceptT.run_bind program next

/-- A sequence ends with the error of its first part, or like its second part after the first
succeeded.
-/
theorem runs_bind {program : Fallible Res ε α} {next : α → Fallible Res ε β} {trace : Trace Res}
    {result : Except ε β}
    : (program >>= next).run.Runs trace (some result)
      ↔ (∃ error, result = .error error ∧ program.run.Runs trace (some (.error error)))
        ∨ ∃ value first second,
            trace = first ++ second
            ∧ program.run.Runs first (some (.ok value))
            ∧ (next value).run.Runs second (some result) := by
  rw [run_bind, runs_bind_some]
  constructor
  · rintro ⟨error | value, first, second, rfl, head, tail⟩
    · obtain ⟨rfl, rfl⟩ := runs_pure_some.mp tail
      exact Or.inl ⟨error, rfl, by rwa [List.append_nil]⟩
    · exact Or.inr ⟨value, first, second, rfl, head, tail⟩
  · rintro (⟨error, rfl, failed⟩ | ⟨value, first, second, rfl, head, tail⟩)
    · exact ⟨.error error, trace, [], by simp, failed, .ret _⟩
    · exact ⟨.ok value, first, second, rfl, head, tail⟩

/-- A sequence succeeds exactly when both of its parts do. -/
theorem runs_bind_ok {program : Fallible Res ε α} {next : α → Fallible Res ε β}
    {trace : Trace Res} {result : β}
    : (program >>= next).run.Runs trace (some (.ok result))
      ↔ ∃ value first second,
          trace = first ++ second
          ∧ program.run.Runs first (some (.ok value))
          ∧ (next value).run.Runs second (some (.ok result)) := by
  rw [runs_bind]
  simp

/-- A program that cannot fail, as a fallible one, has the runs it had. -/
theorem runs_lift {program : Prog Res α} {trace : Trace Res} {result : Except ε α}
    : (ExceptT.lift program : Fallible Res ε α).run.Runs trace (some result)
      ↔ ∃ value, result = .ok value ∧ program.Runs trace (some value) := by
  have mapped : (ExceptT.lift program : Fallible Res ε α).run
      = program >>= fun value => pure (.ok value) :=
    map_eq_pure_bind _ program
  rw [mapped, runs_bind_some]
  constructor
  · intro ⟨value, first, second, split, run, ended⟩
    obtain ⟨rfl, same⟩ := runs_pure_some.mp ended
    exact ⟨value, same, by simpa [split] using run⟩
  · intro ⟨value, same, run⟩
    exact ⟨value, trace, [], by simp, run, runs_pure_some.mpr ⟨rfl, same⟩⟩

/-- A sequence that begins with a program that cannot fail. -/
theorem runs_lift_bind {program : Prog Res α} {next : α → Fallible Res ε β} {trace : Trace Res}
    {result : Except ε β}
    : (ExceptT.lift program >>= next).run.Runs trace (some result)
      ↔ ∃ value first second,
          trace = first ++ second
          ∧ program.Runs first (some value)
          ∧ (next value).run.Runs second (some result) := by
  simp [runs_bind_some]

/-- Footprints compose along fallible sequencing. -/
theorem only_bind {allowed : Op → Prop} {left : Prop} {program : Fallible Res ε α}
    {next : α → Fallible Res ε β} (first : program.run.Only allowed left)
    (rest : ∀ value, (next value).run.Only allowed left)
    : (program >>= next).run.Only allowed left := by
  rw [run_bind]
  refine first.bind fun result => ?_
  cases result with
  | error error => exact only_pure _
  | ok value => exact rest value

/-- The footprint of a call that something fallible follows. -/
theorem only_perform_bind {allowed : Op → Prop} {left : Prop} {op : Op}
    {next : Res op → Fallible Res ε β}
    : (ExceptT.lift (perform op) >>= next).run.Only allowed left
      ↔ allowed op ∧ ∀ answer, (next answer).run.Only allowed left :=
  Iff.rfl

/-- The rule of sequencing for fallible programs. -/
theorem wp_bind {monitor : Monitor Res σ} {program : Fallible Res ε α}
    {next : α → Fallible Res ε β} {post : Except ε β → σ → Prop} {state : σ}
    : wp monitor (program >>= next).run post state
      ↔ wp monitor program.run
          (fun result after =>
            match result with
            | .ok value => wp monitor (next value).run post after
            | .error error => post (.error error) after)
          state := by
  rw [run_bind, Prog.wp_bind]
  constructor
  · intro holds
    refine wp_mono holds fun result after later => ?_
    cases result <;> exact later
  · intro holds
    refine wp_mono holds fun result after later => ?_
    cases result <;> exact later

/-- The rule of a program that cannot fail, as a fallible one. -/
theorem wp_lift {monitor : Monitor Res σ} {program : Prog Res α}
    {post : Except ε α → σ → Prop} {state : σ}
    : wp monitor (ExceptT.lift program : Fallible Res ε α).run post state
      ↔ wp monitor program (fun value after => post (.ok value) after) state := by
  have mapped : (ExceptT.lift program : Fallible Res ε α).run
      = program >>= fun value => pure (.ok value) :=
    map_eq_pure_bind _ program
  rw [mapped, Prog.wp_bind]
  exact Iff.rfl

/-- The rule of a call that something fallible follows. -/
theorem wp_perform_bind {monitor : Monitor Res σ} {op : Op} {next : Res op → Fallible Res ε β}
    {post : Except ε β → σ → Prop} {state : σ}
    : wp monitor (ExceptT.lift (perform op) >>= next).run post state
      ↔ monitor.allows state op
        ∧ ∀ answer after,
            monitor.step state ⟨op, answer⟩ after → wp monitor (next answer).run post after := by
  rw [wp_bind, wp_lift]
  exact Iff.rfl

/-- Sequencing of runs that there are. -/
theorem may_bind {monitor : Monitor Res σ} {program : Fallible Res ε α}
    {next : α → Fallible Res ε β} {post : Except ε β → σ → Prop} {state : σ}
    : may monitor (program >>= next).run post state
      ↔ may monitor program.run
          (fun result after =>
            match result with
            | .ok value => may monitor (next value).run post after
            | .error error => post (.error error) after)
          state := by
  rw [run_bind, Prog.may_bind]
  constructor
  · intro holds
    refine may_mono holds fun result after later => ?_
    cases result <;> exact later
  · intro holds
    refine may_mono holds fun result after later => ?_
    cases result <;> exact later

/-- One answer to a call that something fallible follows. -/
theorem may_perform_bind {monitor : Monitor Res σ} {op : Op} {next : Res op → Fallible Res ε β}
    {post : Except ε β → σ → Prop} {state middle : σ} (answer : Res op)
    (step : monitor.step state ⟨op, answer⟩ middle)
    (rest : may monitor (next answer).run post middle)
    : may monitor (ExceptT.lift (perform op) >>= next).run post state :=
  ⟨answer, middle, step, rest⟩

end Fallible

end Interaction
