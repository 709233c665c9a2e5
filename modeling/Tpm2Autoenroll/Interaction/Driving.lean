import Mathlib.Data.List.TakeWhile
import Tpm2Autoenroll.Interaction.Monitors

/-! Running a program against surroundings that are themselves a function: the run it has
then, and what a monitor sees of it.
-/

namespace Interaction

variable {Op : Type} {Res : Op → Type} {σ τ α : Type}

/-- Surroundings with a state that answer every call. -/
abbrev Machine (Res : Op → Type) (σ : Type) := σ → (op : Op) → Res op × σ

/-- What came of driving a program: its calls and their answers, its result if it returned,
and the state of the surroundings at the end.
-/
structure Driven (Res : Op → Type) (α σ : Type) where
  trace : Trace Res
  outcome : Option α
  final : σ

namespace Prog

/-- Answer every call of a program from a machine. -/
def drive (machine : Machine Res σ) : Prog Res α → σ → Driven Res α σ
  | .ret value, state => ⟨[], some value, state⟩
  | .pending, state => ⟨[], none, state⟩
  | .call op rest, state =>
      let answered := machine state op
      let later := drive machine (rest answered.1) answered.2
      { later with trace := ⟨op, answered.1⟩ :: later.trace }

variable {machine : Machine Res σ}

/-- What is driven is a run, by induction on the program. -/
theorem runs_drive (program : Prog Res α) (state : σ)
    : program.Runs (program.drive machine state).trace
        (program.drive machine state).outcome := by
  induction program generalizing state with
  | ret value => exact .ret value
  | pending => exact .halted _
  | call op rest ih => exact .call _ (ih _ _)

/-- What holds of every answer of the machine holds of every event, by induction on the program. -/
theorem forall_drive {holds : Event Res → Prop}
    (answers : ∀ state op, holds ⟨op, (machine state op).1⟩) {program : Prog Res α} {state : σ}
    {event : Event Res} (member : event ∈ (program.drive machine state).trace)
    : holds event := by
  induction program generalizing state with
  | ret value => cases member
  | pending => cases member
  | call op rest ih =>
      rcases List.mem_cons.mp member with rfl | member
      · exact answers state op
      · exact ih _ member

/-- A run all of whose answers are given by a function is the one that this function drives, by
induction on the run.
-/
theorem Runs.drive_eq {answers : (op : Op) → Res op} {program : Prog Res α} {trace : Trace Res}
    {value : α} (run : program.Runs trace (some value))
    (answered : ∀ event ∈ trace, event.res = answers event.op)
    : program.drive (fun _ op => (answers op, ())) () = ⟨trace, some value, ()⟩ := by
  induction program generalizing trace with
  | ret returned =>
      obtain ⟨rfl, rfl⟩ := runs_pure_some.mp run
      rfl
  | pending => cases run
  | call op rest ih =>
      obtain ⟨answer, later, rfl, remaining⟩ := runs_call_some.mp run
      obtain ⟨here, onwards⟩ := List.forall_mem_cons.mp answered
      obtain rfl : answer = answers op := here
      rw [drive, ih _ remaining onwards]

/-- What does not return was left pending, by induction on the program. -/
theorem stalls_drive {program : Prog Res α} {state : σ}
    (unfinished : (program.drive machine state).outcome = none)
    : program.Stalls (program.drive machine state).trace := by
  induction program generalizing state with
  | ret value => cases unfinished
  | pending => exact .pending
  | call op rest ih => exact .call _ (ih _ unfinished)

/-- A program that is never left pending returns on every machine, by induction on it. -/
theorem drive_completes {allowed : Op → Prop} {program : Prog Res α}
    (only : program.Only allowed) (machine : Machine Res σ) (state : σ)
    : ∃ value, (program.drive machine state).outcome = some value := by
  induction program generalizing state with
  | ret value => exact ⟨value, rfl⟩
  | pending => exact only.elim
  | call op rest ih => exact ih _ (only.2 _) _

/-- A monitor that can follow every step of the machine follows what is driven, by
induction on the program.
-/
theorem path_drive {monitor : Monitor Res τ} {view : σ → τ}
    (follows : ∀ state op,
      monitor.step (view state) ⟨op, (machine state op).1⟩ (view (machine state op).2))
    (program : Prog Res α) (state : σ)
    : monitor.Path (view state) (program.drive machine state).trace
        (view (program.drive machine state).final) := by
  induction program generalizing state with
  | ret value => exact .nil _
  | pending => exact .nil _
  | call op rest ih => exact .cons (follows state op) (ih _ _)

/-- The state of the machine when the first such event happens. -/
def stateAt (machine : Machine Res σ) (stop : Event Res → Bool) : Prog Res α → σ → Option σ
  | .ret _, _ | .pending, _ => none
  | .call op rest, state =>
      let answered := machine state op
      if stop ⟨op, answered.1⟩ then some state
      else stateAt machine stop (rest answered.1) answered.2

/-- A monitor that can follow the machine from every state they can be in together has followed
it to the first such event, by induction on the program.
-/
theorem exists_path_to {monitor : Monitor Res τ} {together : σ → τ → Prop}
    (follows : ∀ {state seen op}, together state seen
      → ∃ after, monitor.step seen ⟨op, (machine state op).1⟩ after
        ∧ together (machine state op).2 after)
    {stop : Event Res → Bool} {program : Prog Res α} {state last : σ} {seen : τ}
    (initial : together state seen) (found : program.stateAt machine stop state = some last)
    : ∃ before event reached, program.Runs (before ++ [event]) none
        ∧ stop event = true
        ∧ monitor.Path seen before reached
        ∧ together last reached := by
  induction program generalizing state seen with
  | ret value => cases found
  | pending => cases found
  | call op rest ih =>
      simp only [stateAt] at found
      split_ifs at found with here
      · obtain rfl := Option.some.inj found
        exact ⟨[], _, seen, .call _ (.halted _), here, .nil seen, initial⟩
      · obtain ⟨after, step, kept⟩ := follows initial
        obtain ⟨before, event, reached, run, stops, path, held⟩ := ih _ kept found
        exact ⟨_ :: before, event, reached, .call _ run, stops, .cons step path, held⟩

-----------------------------------------------------------------------------------------
-- Places in a trace
-----------------------------------------------------------------------------------------

/-- The part of a trace before the first such event. -/
def upTo (stop : Event Res → Bool) (trace : Trace Res) : Trace Res :=
  trace.takeWhile fun event => !stop event

/-- The part of a trace after the first such event. -/
def following (stop : Event Res → Bool) (trace : Trace Res) : Trace Res :=
  (trace.dropWhile fun event => !stop event).tail

theorem stop_eq_false {stop : Event Res → Bool} {trace : Trace Res} {event : Event Res}
    (member : event ∈ upTo stop trace)
    : stop event = false := by
  simpa using List.mem_takeWhile_imp member

/-- A trace with such an event is what comes before it, the event and what comes after, by
induction on the trace.
-/
theorem exists_split {stop : Event Res → Bool} {trace : Trace Res}
    (found : trace.any stop = true)
    : ∃ event, stop event = true
        ∧ trace = upTo stop trace ++ event :: following stop trace := by
  induction trace with
  | nil => simp at found
  | cons event rest ih =>
      by_cases here : stop event = true
      · exact ⟨event, here, by simp [upTo, following, here]⟩
      · obtain ⟨last, stops, split⟩ := ih (by simpa [here] using found)
        refine ⟨last, stops, ?_⟩
        conv_lhs => rw [split]
        simp [upTo, following, here]

/-- The run of a driven program, split at a call it makes. -/
theorem runs_drive_split [DecidableEq Op] {program : Prog Res α} {state : σ} {op : Op}
    (called : (program.drive machine state).trace.any (fun event => event.op = op) = true)
    : ∃ answer, program.Runs
        (upTo (fun event => event.op = op) (program.drive machine state).trace
          ++ ⟨op, answer⟩
            :: following (fun event => event.op = op) (program.drive machine state).trace)
        (program.drive machine state).outcome := by
  obtain ⟨event, same, split⟩ := exists_split called
  obtain ⟨given, answer⟩ := event
  obtain rfl : given = op := by simpa using same
  refine ⟨answer, ?_⟩
  rw [← split]
  exact runs_drive program state

end Prog

end Interaction
