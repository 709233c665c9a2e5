import Mathlib.Data.List.Induction
import Tpm2Autoenroll.Interaction.Keeping

/-! Programs whose calls are carried out by other programs: what a run of the whole amounts to, and
how a specification of the calls carries over to it.
-/

namespace Interaction

variable {Op Act : Type} {Res : Op → Type} {Out : Act → Type} {σ τ α β : Type}

/-- How every call is carried out. -/
abbrev Handler (Res : Op → Type) (Out : Act → Type) := (op : Op) → Prog Out (Res op)

namespace Prog

variable {handler : Handler Res Out}

/-- The program with its calls carried out. -/
def interpret (handler : Handler Res Out) : Prog Res α → Prog Out α
  | .ret value => .ret value
  | .pending => .pending
  | .call op rest => handler op >>= fun answer => (rest answer).interpret handler

/-- What carries out the calls makes up the whole, by induction on the program. -/
theorem interpret_only {allowed : Act → Prop} {program : Prog Res α}
    (parts : ∀ op, (handler op).Only allowed True)
    : (program.interpret handler).Only allowed True := by
  induction program with
  | ret value => trivial
  | pending => trivial
  | call op rest ih => exact (parts op).bind ih

/-- What every call is carried out in keeping with is kept, by induction on the program. -/
theorem Keeps.interpret {inner : Monitor Out τ} {holds : τ → Prop}
    (rests : ∀ state, holds state → inner.stalls state)
    (parts : ∀ op, (handler op).Keeps inner holds) (program : Prog Res α)
    : (program.interpret handler).Keeps inner holds := by
  induction program with
  | ret value => exact .pure
  | pending => exact fun state held => rests state held
  | call op rest ih => exact (parts op).bind ih

/-- What comes after a completed run, by induction on it. -/
theorem Runs.follow {program : Prog Res α} {next : α → Prog Res β} {first rest : Trace Res}
    {value : α} {outcome : Option β} (head : program.Runs first (some value))
    (tail : (next value).Runs rest outcome)
    : (program >>= next).Runs (first ++ rest) outcome := by
  induction program generalizing first with
  | ret returned =>
      cases head
      exact tail
  | pending => cases head
  | call op continuation ih =>
      obtain ⟨answer, later, rfl, inner⟩ := runs_call_some.mp head
      exact .call answer (ih answer inner)

/-- The events of a run, each with the events that carried it out. -/
inductive Carried (handler : Handler Res Out) : Trace Res → Trace Out → Prop
  | nil : Carried handler [] []
  | snoc {earlier : Trace Res} {done : Trace Out} {op : Op} {answer : Res op} {part : Trace Out}
    (before : Carried handler earlier done) (run : (handler op).Runs part (some answer))
    : Carried handler (earlier ++ [⟨op, answer⟩]) (done ++ part)

/-- What carried out two stretches of a run, by induction on the second. -/
theorem Carried.split {first second : Trace Res} {done : Trace Out}
    (carried : Carried handler (first ++ second) done)
    : ∃ left right, done = left ++ right ∧ Carried handler first left
        ∧ Carried handler second right := by
  induction second using List.reverseRecOn generalizing done with
  | nil => exact ⟨done, [], (List.append_nil _).symm, List.append_nil first ▸ carried, .nil⟩
  | append_singleton earlier event ih =>
      rw [← List.append_assoc] at carried
      generalize whole : first ++ earlier ++ [event] = trace at carried
      cases carried with
      | nil => simp at whole
      | snoc before run =>
          obtain ⟨rfl, last⟩ := List.append_inj' whole rfl
          cases last
          obtain ⟨left, right, rfl, head, tail⟩ := ih before
          exact ⟨left, right ++ _, List.append_assoc _ _ _, head, tail.snoc run⟩

theorem carried_nil {done : Trace Out} : Carried handler [] done ↔ done = [] := by
  constructor
  · intro carried
    generalize whole : ([] : Trace Res) = trace at carried
    cases carried with
    | nil => rfl
    | snoc before run => simp at whole
  · intro empty
    rw [empty]
    exact .nil

/-- What carried out a single call. -/
theorem carried_singleton {op : Op} {answer : Res op} {done : Trace Out}
    : Carried handler [⟨op, answer⟩] done ↔ (handler op).Runs done (some answer) := by
  constructor
  · intro carried
    generalize whole : [(⟨op, answer⟩ : Event Res)] = trace at carried
    cases carried with
    | nil => simp at whole
    | @snoc earlier before _ _ part head run =>
        obtain ⟨rfl, last⟩ := List.append_inj' (show [] ++ [_] = _ from whole) rfl
        cases last
        rw [carried_nil.mp head]
        exact run
  · exact fun run => Carried.snoc .nil run

/-- What carried out two calls, one after the other. -/
theorem carried_pair {first second : Event Res} {done : Trace Out}
    (carried : Carried handler [first, second] done)
    : ∃ left right, done = left ++ right ∧ (handler first.op).Runs left (some first.res)
        ∧ (handler second.op).Runs right (some second.res) := by
  obtain ⟨left, right, whole, head, tail⟩ := @Carried.split _ _ _ _ _ [first] [second] _ carried
  exact ⟨left, right, whole, carried_singleton.mp head, carried_singleton.mp tail⟩

theorem Carried.cons {op : Op} {answer : Res op} {part done : Trace Out} {later : Trace Res}
    (run : (handler op).Runs part (some answer)) (rest : Carried handler later done)
    : Carried handler (⟨op, answer⟩ :: later) (part ++ done) := by
  induction rest with
  | nil => exact (List.append_nil part).symm ▸ Carried.snoc .nil run
  | snoc before last ih => exact List.append_assoc part _ _ ▸ ih.snoc last

/-- Every event was carried out somewhere in the whole. -/
theorem Carried.mem {trace : Trace Res} {done : Trace Out} {event : Event Res}
    (carried : Carried handler trace done) (member : event ∈ trace)
    : ∃ left part right, done = left ++ (part ++ right)
        ∧ (handler event.op).Runs part (some event.res) := by
  obtain ⟨before, after, rfl⟩ := List.append_of_mem member
  obtain ⟨left, rest, rfl, _, carried⟩ := carried.split
  obtain ⟨part, right, rfl, run, _⟩ := @Carried.split _ _ _ _ _ [event] after _ carried
  exact ⟨left, part, right, rfl, carried_singleton.mp run⟩

/-- Whatever can be carried out call by call is a run of the whole, by induction on the run. -/
theorem Runs.carried {program : Prog Res α} {trace : Trace Res} {outcome : Option α}
    {done : Trace Out} (run : program.Runs trace outcome) (carried : Carried handler trace done)
    : (program.interpret handler).Runs done outcome := by
  induction run generalizing done with
  | halted program =>
      rw [carried_nil.mp carried]
      exact .halted _
  | ret value =>
      rw [carried_nil.mp carried]
      exact .ret value
  | @call op rest answer trace outcome later ih =>
      obtain ⟨part, others, rfl, head, tail⟩ :=
        @Carried.split _ _ _ _ _ [⟨op, answer⟩] trace _ carried
      exact (carried_singleton.mp head).follow (ih tail)

/-- A completed run of the whole is a completed run of the program, carried out call by call; by
induction on the program.
-/
theorem interpret_runs {program : Prog Res α} {done : Trace Out} {value : α}
    : (program.interpret handler).Runs done (some value)
      ↔ ∃ trace, program.Runs trace (some value) ∧ Carried handler trace done := by
  constructor
  · intro run
    induction program generalizing done with
    | ret returned =>
        cases run
        exact ⟨[], .ret value, .nil⟩
    | pending => cases run
    | call op rest ih =>
        obtain ⟨answer, first, second, rfl, part, later⟩ := runs_bind_some.mp run
        obtain ⟨trace, inner, carried⟩ := ih answer later
        exact ⟨⟨op, answer⟩ :: trace, .call answer inner, .cons part carried⟩
  · rintro ⟨trace, run, carried⟩
    exact run.carried carried

/-- A run all of whose calls can be carried out is one that can, by induction on it. -/
theorem exists_carried {trace : Trace Res}
    (each : ∀ event ∈ trace, ∃ part, (handler event.op).Runs part (some event.res))
    : ∃ done, Carried handler trace done := by
  induction trace with
  | nil => exact ⟨[], .nil⟩
  | cons event rest ih =>
      obtain ⟨first, others⟩ := List.forall_mem_cons.mp each
      obtain ⟨part, run⟩ := first
      obtain ⟨done, carried⟩ := ih others
      exact ⟨part ++ done, .cons run carried⟩

/-- The rule of carrying out calls. Each call that is allowed is carried out in a way that fits an
answer it may have; so what is specified of the program holds of it with its calls carried out.
-/
theorem wp_interpret {outer : Monitor Res σ} {inner : Monitor Out τ} (fits : σ → τ → Prop)
    {program : Prog Res α} {post : α → σ → Prop} {state : σ} {here : τ}
    (rests : ∀ state here, fits state here → outer.stalls state → inner.stalls here)
    (carries : ∀ op state here, fits state here → outer.allows state op
      → wp inner (handler op)
          (fun answer there => ∃ after, outer.step state ⟨op, answer⟩ after ∧ fits after there)
          here)
    (specified : wp outer program post state) (fit : fits state here)
    : wp inner (program.interpret handler)
        (fun value there => ∃ after, fits after there ∧ post value after) here := by
  induction program generalizing state here with
  | ret value => exact ⟨state, fit, specified⟩
  | pending => exact rests state here fit specified
  | call op rest ih =>
      refine wp_bind.mpr (wp_mono (carries op state here fit specified.1) ?_)
      intro answer there facts
      obtain ⟨after, step, later⟩ := facts
      exact ih answer (specified.2 answer after step) later

/-- A program makes the calls that it makes, by induction on it. -/
theorem wp_issued {allows : Trace Res → Op → Prop} {program : Prog Res α} {past : Trace Res}
    (issued : ∀ trace op, (∀ answer, program.Runs (trace ++ [⟨op, answer⟩]) none)
      → allows (past ++ trace) op)
    : wp (.history allows) program
        (fun value after => ∃ trace, after = past ++ trace ∧ program.Runs trace (some value))
        past := by
  induction program generalizing past with
  | ret value => exact ⟨[], (List.append_nil past).symm, .ret value⟩
  | pending => trivial
  | call op rest ih =>
      constructor
      · have first := issued [] op fun answer => .call answer (.halted _)
        rwa [List.append_nil] at first
      · rintro answer _ rfl
        refine wp_mono (ih answer fun trace next runs => ?_) ?_
        · rw [List.append_assoc]
          exact issued (⟨op, answer⟩ :: trace) next fun given => .call answer (runs given)
        · rintro value _ ⟨trace, rfl, run⟩
          exact ⟨⟨op, answer⟩ :: trace, List.append_assoc past _ _, .call answer run⟩

/-- What is done carries out a call that was allowed after the calls that were carried out. -/
theorem wp_carried {allows : Trace Res → Op → Prop} {program : Prog Res α}
    {post : α → Trace Res → Prop} (specified : wp (.history allows) program post [])
    : wp (.history fun past act => ∃ trace done part op,
          past = done ++ part ∧ Carried handler trace done ∧ allows trace op
            ∧ ∀ answer, (handler op).Runs (part ++ [⟨act, answer⟩]) none)
        (program.interpret handler)
        (fun value done => ∃ trace, Carried handler trace done ∧ post value trace) [] := by
  refine wp_interpret (Carried handler) (fun _ _ _ _ => trivial) ?_ specified .nil
  intro op trace done carried allowed
  refine wp_mono (wp_issued fun part act issued => ?_) ?_
  · exact ⟨trace, done, part, op, rfl, carried, allowed, issued⟩
  · rintro answer _ ⟨part, rfl, run⟩
    exact ⟨_, Monitor.history_step.mpr rfl, carried.snoc run⟩

end Prog

end Interaction
