import Tpm2Autoenroll.Interaction.Programs

/-! Monitors: what may be called in which state, how the state follows the answers, and
the weakest precondition under which a program keeps to that.
-/

namespace Interaction

variable {Op : Type} {Res : Op → Type} {σ τ α β : Type}

/-- A monitor accompanies a run with a state. `allows` is the obligation when a call is
issued; `step` says how the state can change once it is answered, so an answer that has
no successor state is one the surroundings never give; `stalls` is the obligation when the
program is left pending.
-/
structure Monitor (Res : Op → Type) (σ : Type) where
  allows : σ → Op → Prop
  step : σ → Event Res → σ → Prop
  stalls : σ → Prop := fun _ => True

namespace Monitor

/-- The states a monitor can go through along a trace. -/
inductive Path (monitor : Monitor Res σ) : σ → Trace Res → σ → Prop
  | nil (state : σ) : Path monitor state [] state
  | cons {start middle final : σ} {event : Event Res} {rest : Trace Res}
    (first : monitor.step start event middle) (later : Path monitor middle rest final)
    : Path monitor start (event :: rest) final

@[simp]
theorem path_nil {monitor : Monitor Res σ} {start final : σ}
    : monitor.Path start [] final ↔ final = start := by
  constructor
  · rintro ⟨⟩
    rfl
  · rintro rfl
    exact .nil _

@[simp]
theorem path_cons {monitor : Monitor Res σ} {start final : σ} {event : Event Res}
    {rest : Trace Res}
    : monitor.Path start (event :: rest) final
      ↔ ∃ middle, monitor.step start event middle ∧ monitor.Path middle rest final := by
  constructor
  · rintro (_ | ⟨first, later⟩)
    exact ⟨_, first, later⟩
  · rintro ⟨middle, first, later⟩
    exact .cons first later

/-- Paths split at every point of their trace, by induction on the first part. -/
theorem path_append {monitor : Monitor Res σ} {start final : σ} {first second : Trace Res}
    : monitor.Path start (first ++ second) final
      ↔ ∃ middle, monitor.Path start first middle ∧ monitor.Path middle second final := by
  induction first generalizing start with
  | nil => simp
  | cons event rest ih =>
      simp only [List.cons_append, path_cons, ih]
      constructor
      · rintro ⟨next, step, middle, head, tail⟩
        exact ⟨middle, ⟨next, step, head⟩, tail⟩
      · rintro ⟨middle, ⟨next, step, head⟩, tail⟩
        exact ⟨next, step, middle, head, tail⟩

/-- A property kept by every step over the events of a trace holds at its end, by
induction on the path.
-/
theorem Path.invariant {monitor : Monitor Res σ} {start final : σ} {trace : Trace Res}
    {holds : σ → Prop} (path : monitor.Path start trace final)
    (kept : ∀ event ∈ trace, ∀ before after,
      holds before → monitor.step before event after → holds after)
    (initial : holds start)
    : holds final := by
  induction path with
  | nil => exact initial
  | cons first later ih =>
      exact ih (fun event member => kept event (List.mem_cons_of_mem _ member))
        (kept _ List.mem_cons_self _ _ initial first)

/-- A monitor that computes its state from the events seen so far. -/
def observing (allows : σ → Op → Prop) (next : σ → Event Res → σ) : Monitor Res σ where
  allows
  step state event after := after = next state event

@[simp]
theorem observing_allows {allows : σ → Op → Prop} {next : σ → Event Res → σ} {state : σ}
    {op : Op}
    : (observing allows next).allows state op = allows state op :=
  rfl

@[simp]
theorem observing_step {allows : σ → Op → Prop} {next : σ → Event Res → σ}
    {state after : σ} {event : Event Res}
    : (observing allows next).step state event after ↔ after = next state event :=
  Iff.rfl

/-- An observing monitor ends in the fold of its trace, by induction on the trace. -/
@[simp]
theorem path_observing {allows : σ → Op → Prop} {next : σ → Event Res → σ} {start final : σ}
    {trace : Trace Res}
    : (observing allows next).Path start trace final ↔ final = trace.foldl next start := by
  induction trace generalizing start with
  | nil => simp
  | cons event rest ih => simp [ih]

/-- The monitor that counts calls up to a limit. -/
def counting (limit : Nat) : Monitor Res Nat :=
  observing (fun count _ => count < limit) (fun count _ => count + 1)

@[simp]
theorem counting_allows {limit count : Nat} {op : Op}
    : (counting limit : Monitor Res Nat).allows count op ↔ count < limit :=
  Iff.rfl

@[simp]
theorem counting_step {limit count after : Nat} {event : Event Res}
    : (counting limit).step count event after ↔ after = count + 1 :=
  Iff.rfl

/-- It ends with the number of calls, by induction on the trace. -/
theorem path_counting {limit count after : Nat} {trace : Trace Res}
    : (counting limit).Path count trace after ↔ after = count + trace.length := by
  induction trace generalizing count with
  | nil => simp
  | cons event rest ih =>
      simp only [path_cons, counting_step, exists_eq_left, ih, List.length_cons]
      omega

/-- The monitor of surroundings that can do anything, and to which everything may be done. -/
def anyhow : Monitor Res Unit := observing (fun _ _ => True) fun _ _ => ()

/-- The monitor whose state is the whole trace so far. -/
def history (allows : Trace Res → Op → Prop) : Monitor Res (Trace Res) :=
  observing allows (fun past event => past ++ [event])

@[simp]
theorem history_allows {allows : Trace Res → Op → Prop} {past : Trace Res} {op : Op}
    : (history allows).allows past op = allows past op :=
  rfl

@[simp]
theorem history_step {allows : Trace Res → Op → Prop} {past after : Trace Res}
    {event : Event Res}
    : (history allows).step past event after ↔ after = past ++ [event] :=
  Iff.rfl

@[simp]
theorem path_history {allows : Trace Res → Op → Prop} {past final trace : Trace Res}
    : (history allows).Path past trace final ↔ final = past ++ trace := by
  induction trace generalizing past with
  | nil => simp
  | cons event rest ih => simp [ih]

/-- A monitor together with what can be computed from the events alone. -/
def along (monitor : Monitor Res σ) (next : τ → Event Res → τ) : Monitor Res (σ × τ) where
  allows state op := monitor.allows state.1 op
  step state event after := monitor.step state.1 event after.1 ∧ after.2 = next state.2 event
  stalls state := monitor.stalls state.1

@[simp]
theorem along_allows {monitor : Monitor Res σ} {next : τ → Event Res → τ} {state : σ × τ}
    {op : Op}
    : (monitor.along next).allows state op = monitor.allows state.1 op :=
  rfl

@[simp]
theorem along_step {monitor : Monitor Res σ} {next : τ → Event Res → τ}
    {state after : σ × τ} {event : Event Res}
    : (monitor.along next).step state event after
      ↔ monitor.step state.1 event after.1 ∧ after.2 = next state.2 event :=
  Iff.rfl

/-- A path with observations is a path and the fold of its trace, by induction on it. -/
theorem path_along {monitor : Monitor Res σ} {next : τ → Event Res → τ} {start final : σ × τ}
    {trace : Trace Res}
    : (monitor.along next).Path start trace final
      ↔ monitor.Path start.1 trace final.1 ∧ final.2 = trace.foldl next start.2 := by
  induction trace generalizing start with
  | nil =>
      obtain ⟨state, seen⟩ := start
      obtain ⟨last, observed⟩ := final
      simp
  | cons event rest ih =>
      simp only [path_cons, along_step, ih, List.foldl_cons]
      constructor
      · intro ⟨middle, ⟨step, seen⟩, path, last⟩
        exact ⟨⟨middle.1, step, path⟩, seen ▸ last⟩
      · intro ⟨⟨middle, step, path⟩, last⟩
        exact ⟨⟨middle, next start.2 event⟩, ⟨step, rfl⟩, path, last⟩

end Monitor

namespace Prog

open Monitor

variable {monitor : Monitor Res σ}

/-- The weakest precondition under which every call is allowed when it is issued, every
completed run ends in the postcondition, and the program is left pending only where that is
allowed.
-/
def wp (monitor : Monitor Res σ) : Prog Res α → (α → σ → Prop) → σ → Prop
  | .ret value, post, state => post value state
  | .pending, _, state => monitor.stalls state
  | .call op rest, post, state =>
      monitor.allows state op
      ∧ ∀ answer after,
          monitor.step state ⟨op, answer⟩ after → wp monitor (rest answer) post after

@[simp]
theorem wp_pure {value : α} {post : α → σ → Prop} {state : σ}
    : wp monitor (pure value) post state ↔ post value state :=
  Iff.rfl

@[simp]
theorem wp_pending {post : α → σ → Prop} {state : σ}
    : wp monitor (.pending : Prog Res α) post state ↔ monitor.stalls state :=
  Iff.rfl

@[simp]
theorem wp_call {op : Op} {rest : Res op → Prog Res α} {post : α → σ → Prop} {state : σ}
    : wp monitor (.call op rest) post state
      ↔ monitor.allows state op
        ∧ ∀ answer after,
            monitor.step state ⟨op, answer⟩ after → wp monitor (rest answer) post after :=
  Iff.rfl

/-- The rule of sequencing, by induction on the first program. -/
theorem wp_bind {program : Prog Res α} {next : α → Prog Res β} {post : β → σ → Prop}
    {state : σ}
    : wp monitor (program >>= next) post state
      ↔ wp monitor program (fun value after => wp monitor (next value) post after) state := by
  induction program generalizing state with
  | ret value => rfl
  | pending => rfl
  | call op rest ih =>
      simp only [call_bind, wp_call]
      exact and_congr_right fun _ =>
        forall_congr' fun answer => forall₂_congr fun after _ => ih answer

/-- The rule of consequence, by induction on the program. -/
theorem wp_mono {program : Prog Res α} {post weaker : α → σ → Prop} {state : σ}
    (holds : wp monitor program post state)
    (weaken : ∀ value after, post value after → weaker value after)
    : wp monitor program weaker state := by
  induction program generalizing state with
  | ret value => exact weaken value state holds
  | pending => exact holds
  | call op rest ih =>
      exact ⟨holds.1, fun answer after step => ih answer (holds.2 answer after step)⟩

/-- A completed run from a state that meets the precondition ends in the postcondition,
by induction on the run.
-/
theorem wp_post {program : Prog Res α} {post : α → σ → Prop} {start final : σ}
    {trace : Trace Res} {value : α} (holds : wp monitor program post start)
    (run : program.Runs trace (some value)) (path : monitor.Path start trace final)
    : post value final := by
  induction program generalizing trace start with
  | ret returned =>
      cases run
      cases path
      exact holds
  | pending => cases run
  | call op rest ih =>
      obtain ⟨answer, later, rfl, inner⟩ := runs_call_some.mp run
      obtain ⟨middle, step, remaining⟩ := path_cons.mp path
      exact ih answer (holds.2 answer middle step) inner remaining

/-- Every call of a run is allowed in the state it is issued in, whether or not the run
completes; by induction on the events before it.
-/
theorem wp_allows {program : Prog Res α} {post : α → σ → Prop} {start state : σ}
    {before after : Trace Res} {event : Event Res} {outcome : Option α}
    (holds : wp monitor program post start)
    (run : program.Runs (before ++ event :: after) outcome)
    (path : monitor.Path start before state)
    : monitor.allows state event.op := by
  induction before generalizing program start with
  | nil =>
      cases path_nil.mp path
      cases run with
      | call answer later => exact holds.1
  | cons first rest ih =>
      obtain ⟨middle, step, remaining⟩ := path_cons.mp path
      cases run with
      | call answer later => exact ih (holds.2 answer middle step) later remaining

/-- A program that is counted to stay within a limit has no longer runs. -/
theorem length_le_of_wp {program : Prog Res α} {post : α → Nat → Prop} {limit : Nat}
    {trace : Trace Res} {outcome : Option α} (holds : wp (counting limit) program post 0)
    (run : program.Runs trace outcome)
    : trace.length ≤ limit := by
  rcases trace.eq_nil_or_concat with rfl | ⟨before, event, rfl⟩
  · simp
  · rw [List.concat_eq_append] at run ⊢
    have allowed := wp_allows holds run (path_counting.mpr rfl)
    have below : 0 + before.length < limit := allowed
    rw [List.length_append, List.length_singleton]
    omega

/-- A program that is left pending is so where the monitor allows it, by induction on the run. -/
theorem wp_stalls {program : Prog Res α} {post : α → σ → Prop} {start final : σ}
    {trace : Trace Res} (holds : wp monitor program post start)
    (stalled : program.Stalls trace) (path : monitor.Path start trace final)
    : monitor.stalls final := by
  induction stalled generalizing start with
  | pending =>
      rw [path_nil.mp path]
      exact holds
  | call answer later ih =>
      obtain ⟨middle, step, remaining⟩ := path_cons.mp path
      exact ih (holds.2 answer middle step) remaining

/-- A program whose calls are allowed everywhere can be specified by its completed runs,
by induction on the program.
-/
theorem wp_of_only {allowed : Op → Prop} {left : Prop} {program : Prog Res α}
    {post : α → σ → Prop} {state : σ} (only : program.Only allowed left)
    (quiet : ∀ state op, allowed op → monitor.allows state op)
    (rests : left → ∀ state, monitor.stalls state)
    (completed : ∀ trace value after,
      program.Runs trace (some value) → monitor.Path state trace after → post value after)
    : wp monitor program post state := by
  induction program generalizing state with
  | ret value => exact completed [] value state (.ret value) (.nil state)
  | pending => exact rests only state
  | call op rest ih =>
      refine ⟨quiet state op only.1, fun answer after step => ih answer (only.2 answer) ?_⟩
      intro trace value final run path
      exact completed _ value final (.call answer run) (.cons step path)

/-- The rule of invariants: a property that every call of the footprint allows and keeps
holds at the end, by induction on the program.
-/
theorem wp_invariant {allowed : Op → Prop} {left : Prop} {program : Prog Res α}
    {holds : σ → Prop} {state : σ} (only : program.Only allowed left)
    (rests : left → ∀ state, holds state → monitor.stalls state)
    (quiet : ∀ state op, allowed op → holds state → monitor.allows state op)
    (kept : ∀ state op answer after,
      allowed op → holds state → monitor.step state ⟨op, answer⟩ after → holds after)
    (initial : holds state)
    : wp monitor program (fun _ after => holds after) state := by
  induction program generalizing state with
  | ret value => exact initial
  | pending => exact rests only state initial
  | call op rest ih =>
      exact ⟨
        quiet state op only.1 initial,
        fun answer after step =>
          ih answer (only.2 answer) (kept state op answer after only.1 initial step)
      ⟩

/-- Under a history monitor a quiet program is specified by its completed runs. -/
theorem wp_history {allows : Trace Res → Op → Prop} {allowed : Op → Prop} {left : Prop}
    {program : Prog Res α} {post : α → Trace Res → Prop} {past : Trace Res}
    (only : program.Only allowed left) (quiet : ∀ past op, allowed op → allows past op)
    (completed : ∀ trace value, program.Runs trace (some value) → post value (past ++ trace))
    : wp (history allows) program post past := by
  refine wp_of_only only quiet (fun _ _ => trivial) fun trace value after run path => ?_
  rw [path_history.mp path]
  exact completed trace value run

/-- Under an observing monitor a quiet program is specified by its completed runs. -/
theorem wp_observing {allows : σ → Op → Prop} {next : σ → Event Res → σ}
    {allowed : Op → Prop} {left : Prop} {program : Prog Res α} {post : α → σ → Prop}
    {state : σ} (only : program.Only allowed left) (quiet : ∀ state op, allowed op → allows state op)
    (completed : ∀ trace value,
      program.Runs trace (some value) → post value (trace.foldl next state))
    : wp (observing allows next) program post state := by
  refine wp_of_only only quiet (fun _ _ => trivial) fun trace value after run path => ?_
  rw [path_observing.mp path]
  exact completed trace value run

/-- What is specified of a program is specified of its runs; by induction on it. -/
theorem wp_runs {program : Prog Res α} {post : α → σ → Prop} {state : σ}
    (holds : wp monitor program post state)
    : wp monitor program
        (fun value after => post value after
          ∧ ∃ trace, program.Runs trace (some value) ∧ monitor.Path state trace after)
        state := by
  induction program generalizing state with
  | ret value => exact ⟨holds, [], .ret value, .nil state⟩
  | pending => exact holds
  | call op rest ih =>
      refine ⟨holds.1, fun answer after step => ?_⟩
      refine wp_mono (ih answer (holds.2 answer after step)) fun value final facts => ?_
      obtain ⟨settled, trace, run, path⟩ := facts
      exact ⟨settled, _, .call answer run, .cons step path⟩

/-- What every allowed step keeps holds after every run, completed or not; by induction on
the run.
-/
theorem wp_safe {program : Prog Res α} {post : α → σ → Prop} {holds : σ → Prop}
    {start final : σ} {trace : Trace Res} {outcome : Option α}
    (specified : wp monitor program post start) (run : program.Runs trace outcome)
    (path : monitor.Path start trace final)
    (kept : ∀ state op answer after,
      monitor.allows state op → monitor.step state ⟨op, answer⟩ after
        → holds state → holds after)
    (initial : holds start)
    : holds final := by
  induction run generalizing start with
  | halted | ret =>
      rw [path_nil.mp path]
      exact initial
  | call answer later ih =>
      obtain ⟨middle, step, remaining⟩ := path_cons.mp path
      refine ih (specified.2 answer middle step) remaining ?_
      exact kept start _ answer middle specified.1 step initial

/-- What was shown with observations holds without them, by induction on the program. -/
theorem wp_of_along {program : Prog Res α} {post : α → σ → Prop} {state : σ}
    (next : τ → Event Res → τ) (seen : τ)
    (specified : wp (monitor.along next) program (fun value after => post value after.1)
      (state, seen))
    : wp monitor program post state := by
  induction program generalizing state seen with
  | ret value => exact specified
  | pending => exact specified
  | call op rest ih =>
      refine ⟨specified.1, fun answer after step => ?_⟩
      exact ih answer _ (specified.2 answer (after, next seen ⟨op, answer⟩) ⟨step, rfl⟩)

/-- What is specified under a monitor is specified under one that embeds its states, as far as the
calls of the program go; by induction on the program.
-/
theorem wp_embed {outer : Monitor Res τ} {embed : σ → τ} {allowed : Op → Prop}
    {program : Prog Res α} {post : α → σ → Prop} {state : σ} (only : program.Only allowed)
    (allows : ∀ state op, allowed op → monitor.allows state op → outer.allows (embed state) op)
    (steps : ∀ state op answer after, allowed op → outer.step (embed state) ⟨op, answer⟩ after
      → ∃ next, after = embed next ∧ monitor.step state ⟨op, answer⟩ next)
    (specified : wp monitor program post state)
    : wp outer program (fun value after => ∃ final, after = embed final ∧ post value final)
        (embed state) := by
  induction program generalizing state with
  | ret value => exact ⟨state, rfl, specified⟩
  | pending => exact only.elim
  | call op rest ih =>
      refine ⟨allows state op only.1 specified.1, fun answer after step => ?_⟩
      obtain ⟨next, rfl, inner⟩ := steps state op answer after only.1 step
      exact ih answer (only.2 answer) (specified.2 answer next inner)

-----------------------------------------------------------------------------------------
-- Runs that there are
-----------------------------------------------------------------------------------------

/-- Some completed run that the monitor can follow ends like this. -/
def may (monitor : Monitor Res σ) : Prog Res α → (α → σ → Prop) → σ → Prop
  | .ret value, post, state => post value state
  | .pending, _, _ => False
  | .call op rest, post, state =>
      ∃ answer after, monitor.step state ⟨op, answer⟩ after ∧ may monitor (rest answer) post after

/-- Sequencing, by induction on the first program. -/
theorem may_bind {program : Prog Res α} {next : α → Prog Res β} {post : β → σ → Prop}
    {state : σ}
    : may monitor (program >>= next) post state
      ↔ may monitor program (fun value after => may monitor (next value) post after) state := by
  induction program generalizing state with
  | ret value => rfl
  | pending => rfl
  | call op rest ih =>
      exact exists_congr fun answer => exists_congr fun after => and_congr_right fun _ => ih answer

/-- Consequence, by induction on the program. -/
theorem may_mono {program : Prog Res α} {post weaker : α → σ → Prop} {state : σ}
    (holds : may monitor program post state)
    (weaken : ∀ value after, post value after → weaker value after)
    : may monitor program weaker state := by
  induction program generalizing state with
  | ret value => exact weaken value state holds
  | pending => exact holds
  | call op rest ih =>
      obtain ⟨answer, after, step, later⟩ := holds
      exact ⟨answer, after, step, ih answer later⟩

/-- One answer and what may come after it. -/
theorem may_perform_bind {op : Op} {next : Res op → Prog Res α} {post : α → σ → Prop}
    {state middle : σ} (answer : Res op) (step : monitor.step state ⟨op, answer⟩ middle)
    (rest : may monitor (next answer) post middle)
    : may monitor (perform op >>= next) post state :=
  ⟨answer, middle, step, rest⟩

/-- A program that is never left pending has such a run where the surroundings answer whatever it
may call; by induction on the program.
-/
theorem may_of_wp {allowed : Op → Prop} {program : Prog Res α} {post : α → σ → Prop} {state : σ}
    (holds : wp monitor program post state) (only : program.Only allowed)
    (answers : ∀ state op, allowed op → monitor.allows state op
      → ∃ answer after, monitor.step state ⟨op, answer⟩ after)
    : may monitor program post state := by
  induction program generalizing state with
  | ret value => exact holds
  | pending => exact only.elim
  | call op rest ih =>
      obtain ⟨answer, after, step⟩ := answers state op only.1 holds.1
      exact ⟨answer, after, step, ih answer (holds.2 answer after step) (only.2 answer)⟩

/-- There is such a run, by induction on the program. -/
theorem exists_run_of_may {program : Prog Res α} {post : α → σ → Prop} {state : σ}
    (holds : may monitor program post state)
    : ∃ trace value final, program.Runs trace (some value) ∧ monitor.Path state trace final
        ∧ post value final := by
  induction program generalizing state with
  | ret value => exact ⟨[], value, state, .ret value, .nil state, holds⟩
  | pending => exact holds.elim
  | call op rest ih =>
      obtain ⟨answer, after, step, later⟩ := holds
      obtain ⟨trace, value, final, run, path, ended⟩ := ih answer later
      exact ⟨_, value, final, .call answer run, .cons step path, ended⟩

end Prog

end Interaction
