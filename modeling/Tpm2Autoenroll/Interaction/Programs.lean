import Mathlib.Data.List.Basic
import Mathlib.Tactic.SplitIfs

/-! Programs that touch their surroundings only through calls of a fixed signature, and
the runs they can have when every call is answered in an arbitrary way.
-/

namespace Interaction

variable {Op : Type} {Res : Op → Type} {α β γ : Type}

/-- A program over calls `op : Op`, each answered by some `Res op`. `pending` is a loop
that has used up the rounds it was observed for: nothing is said about what follows.
-/
inductive Prog (Res : Op → Type) (α : Type) : Type
  | ret (value : α)
  | pending
  | call (op : Op) (next : Res op → Prog Res α)

/-- One call together with the answer it was given. -/
structure Event (Res : Op → Type) where
  op : Op
  res : Res op

abbrev Trace (Res : Op → Type) := List (Event Res)

namespace Prog

/-- Sequencing grafts the continuation onto every returned value. -/
def bind : Prog Res α → (α → Prog Res β) → Prog Res β
  | .ret value, next => next value
  | .pending, _ => .pending
  | .call op rest, next => .call op (fun answer => (rest answer).bind next)

instance : Monad (Prog Res) where
  pure := .ret
  bind := .bind

/-- Issue one call and return its answer. -/
def perform (op : Op) : Prog Res (Res op) := .call op .ret

@[simp]
theorem ret_eq_pure (value : α) : (.ret value : Prog Res α) = pure value := rfl

@[simp]
theorem pending_bind (next : α → Prog Res β) : (.pending >>= next) = .pending := rfl

@[simp]
theorem call_bind (op : Op) (rest : Res op → Prog Res α) (next : α → Prog Res β)
    : (.call op rest >>= next) = .call op (fun answer => rest answer >>= next) :=
  rfl

@[simp]
theorem perform_bind (op : Op) (next : Res op → Prog Res β)
    : (perform op >>= next) = .call op next :=
  rfl

/-- Mapping the identity changes nothing, by induction on the program. -/
private theorem id_map (program : Prog Res α) : id <$> program = program := by
  induction program with
  | ret value => rfl
  | pending => rfl
  | call op rest ih => exact congrArg (Prog.call op) (funext ih)

/-- Sequencing is associative, by induction on the first program. -/
private theorem bind_assoc (program : Prog Res α) (first : α → Prog Res β)
    (second : β → Prog Res γ)
    : program >>= first >>= second = program >>= fun value => first value >>= second := by
  induction program with
  | ret value => rfl
  | pending => rfl
  | call op rest ih => exact congrArg (Prog.call op) (funext ih)

instance : LawfulMonad (Prog Res) :=
  LawfulMonad.mk' _ id_map (fun _ _ => rfl) bind_assoc

-----------------------------------------------------------------------------------------
-- Runs
-----------------------------------------------------------------------------------------

/-- `program.Runs trace (some value)`: the program can make exactly the calls of `trace`,
answered as recorded there, and return `value`. With `none` the run is observed only up
to the end of `trace`, so every prefix of a run is one too.
-/
inductive Runs : Prog Res α → Trace Res → Option α → Prop
  | halted (program : Prog Res α) : Runs program [] none
  | ret (value : α) : Runs (.ret value) [] (some value)
  | call {op : Op} {rest : Res op → Prog Res α} (answer : Res op) {trace outcome}
    (later : Runs (rest answer) trace outcome)
    : Runs (.call op rest) (⟨op, answer⟩ :: trace) outcome

@[simp]
theorem runs_pure_some {value result : α} {trace : Trace Res}
    : (pure value : Prog Res α).Runs trace (some result) ↔ trace = [] ∧ result = value := by
  constructor
  · rintro ⟨⟩
    exact ⟨rfl, rfl⟩
  · rintro ⟨rfl, rfl⟩
    exact .ret _

@[simp]
theorem runs_pending_some {result : α} {trace : Trace Res}
    : (.pending : Prog Res α).Runs trace (some result) ↔ False :=
  ⟨fun run => (nomatch run), False.elim⟩

@[simp]
theorem runs_call_some {op : Op} {rest : Res op → Prog Res α} {trace : Trace Res} {result : α}
    : (.call op rest : Prog Res α).Runs trace (some result)
      ↔ ∃ answer later, trace = ⟨op, answer⟩ :: later
        ∧ (rest answer).Runs later (some result) := by
  constructor
  · rintro (_ | _ | ⟨answer, later⟩)
    exact ⟨answer, _, rfl, later⟩
  · rintro ⟨answer, later, rfl, run⟩
    exact .call answer run

@[simp]
theorem runs_perform_some {op : Op} {trace : Trace Res} {answer : Res op}
    : (perform op).Runs trace (some answer) ↔ trace = [⟨op, answer⟩] := by
  constructor
  · rintro (_ | _ | ⟨answer, later⟩)
    cases later
    rfl
  · rintro rfl
    exact .call answer (.ret answer)

/-- A completed sequence is a completed first part followed by a completed second part,
by induction on the first program.
-/
theorem runs_bind_some {program : Prog Res α} {next : α → Prog Res β} {trace : Trace Res}
    {result : β}
    : (program >>= next).Runs trace (some result)
      ↔ ∃ value first second,
          trace = first ++ second
          ∧ program.Runs first (some value)
          ∧ (next value).Runs second (some result) := by
  constructor
  · intro run
    induction program generalizing trace with
    | ret value => exact ⟨value, [], trace, rfl, .ret value, run⟩
    | pending => cases run
    | call op rest ih =>
        cases run with
        | call answer later =>
            obtain ⟨value, first, second, rfl, head, tail⟩ := ih answer later
            exact ⟨value, _, second, rfl, .call answer head, tail⟩
  · rintro ⟨value, first, second, rfl, head, tail⟩
    induction program generalizing first with
    | ret returned =>
        cases head
        exact tail
    | pending => cases head
    | call op rest ih =>
        obtain ⟨answer, later, rfl, run⟩ := runs_call_some.mp head
        exact .call answer (ih answer later run)

/-- After a completed run of its first part, a sequence goes on with the continuation; by
induction on the first program.
-/
theorem Runs.resume {program : Prog Res α} {next : α → Prog Res β} {first rest : Trace Res}
    {value : α} {outcome : Option β} (head : program.Runs first (some value))
    (run : (program >>= next).Runs (first ++ rest) outcome)
    : (next value).Runs rest outcome := by
  induction program generalizing first with
  | ret returned =>
      cases head
      exact run
  | pending => cases head
  | call op continuation ih =>
      obtain ⟨answer, later, rfl, inner⟩ := runs_call_some.mp head
      cases run with
      | call _ remaining => exact ih answer inner remaining

/-- A program stops where it has stopped before: a completed run that begins like another one
is that one.
-/
theorem Runs.stops {program : Prog Res α} {first rest : Trace Res} {value result : α}
    (short : program.Runs first (some value)) (long : program.Runs (first ++ rest) (some result))
    : rest = [] ∧ result = value := by
  have sequence : (program >>= pure).Runs (first ++ rest) (some result) := by
    rw [bind_pure]
    exact long
  exact runs_pure_some.mp (short.resume sequence)

-----------------------------------------------------------------------------------------
-- Two runs
-----------------------------------------------------------------------------------------

/-- The surroundings behave alike in both traces: whatever is called after the same calls with
the same answers is answered the same.
-/
def Alike (left right : Trace Res) : Prop :=
  ∀ past op answer other leftRest rightRest,
    left = past ++ ⟨op, answer⟩ :: leftRest
    → right = past ++ ⟨op, other⟩ :: rightRest
    → answer = other

theorem Alike.tail {event : Event Res} {left right : Trace Res}
    (alike : Alike (event :: left) (event :: right))
    : Alike left right := by
  intro past op answer other leftRest rightRest leftSplit rightSplit
  refine alike (event :: past) op answer other leftRest rightRest ?_ ?_
  · rw [leftSplit, List.cons_append]
  · rw [rightSplit, List.cons_append]

/-- A program is deterministic: two completed runs in surroundings that behave alike are the
same, by induction on the program.
-/
theorem Runs.deterministic {program : Prog Res α} {left right : Trace Res} {value other : α}
    (leftRun : program.Runs left (some value)) (rightRun : program.Runs right (some other))
    (alike : Alike left right)
    : left = right ∧ value = other := by
  induction program generalizing left right with
  | ret returned =>
      obtain ⟨rfl, rfl⟩ := runs_pure_some.mp leftRun
      obtain ⟨rfl, rfl⟩ := runs_pure_some.mp rightRun
      exact ⟨rfl, rfl⟩
  | pending => cases leftRun
  | call op rest ih =>
      obtain ⟨answer, leftRest, rfl, leftLater⟩ := runs_call_some.mp leftRun
      obtain ⟨reply, rightRest, rfl, rightLater⟩ := runs_call_some.mp rightRun
      obtain rfl : answer = reply := alike [] op answer reply leftRest rightRest rfl rfl
      obtain ⟨rfl, same⟩ := ih answer leftLater rightLater alike.tail
      exact ⟨rfl, same⟩

-----------------------------------------------------------------------------------------
-- Sub-runs
-----------------------------------------------------------------------------------------

/-- Somewhere inside `trace` the program ran to completion and returned `value`. -/
def Ran (program : Prog Res α) (value : α) (trace : Trace Res) : Prop :=
  ∃ before during after,
    trace = before ++ during ++ after ∧ program.Runs during (some value)

theorem Runs.ran {program : Prog Res α} {value : α} {trace : Trace Res}
    (run : program.Runs trace (some value))
    : program.Ran value trace :=
  ⟨[], trace, [], by simp, run⟩

theorem Ran.append_left {program : Prog Res α} {value : α} {trace : Trace Res}
    (ran : program.Ran value trace) (earlier : Trace Res)
    : program.Ran value (earlier ++ trace) := by
  obtain ⟨before, during, after, rfl, run⟩ := ran
  exact ⟨earlier ++ before, during, after, by simp, run⟩

theorem Ran.append_right {program : Prog Res α} {value : α} {trace : Trace Res}
    (ran : program.Ran value trace) (later : Trace Res)
    : program.Ran value (trace ++ later) := by
  obtain ⟨before, during, after, rfl, run⟩ := ran
  exact ⟨before, during, after ++ later, by simp, run⟩

/-- The last thing in `trace` was a run of the program to completion with `value`. -/
def Ended (program : Prog Res α) (value : α) (trace : Trace Res) : Prop :=
  ∃ before during, trace = before ++ during ∧ program.Runs during (some value)

theorem Runs.ended {program : Prog Res α} {value : α} {trace : Trace Res}
    (run : program.Runs trace (some value))
    : program.Ended value trace :=
  ⟨[], trace, rfl, run⟩

theorem Ended.append_left {program : Prog Res α} {value : α} {trace : Trace Res}
    (ended : program.Ended value trace) (earlier : Trace Res)
    : program.Ended value (earlier ++ trace) := by
  obtain ⟨before, during, rfl, run⟩ := ended
  exact ⟨earlier ++ before, during, by simp, run⟩

theorem Ended.ran {program : Prog Res α} {value : α} {trace : Trace Res}
    (ended : program.Ended value trace)
    : program.Ran value trace := by
  obtain ⟨before, during, rfl, run⟩ := ended
  exact run.ran.append_left before

-----------------------------------------------------------------------------------------
-- Footprints
-----------------------------------------------------------------------------------------

/-- Every call the program can ever make satisfies `allowed`, and the program is never left
pending except where `left` says that it may be.
-/
def Only (allowed : Op → Prop) (left : Prop := False) : Prog Res α → Prop
  | .ret _ => True
  | .pending => left
  | .call op rest => allowed op ∧ ∀ answer, (rest answer).Only allowed left

section Only

variable {allowed wider : Op → Prop} {left : Prop}

@[simp]
theorem only_pure (value : α) : (pure value : Prog Res α).Only allowed left := trivial

@[simp]
theorem only_pending : (.pending : Prog Res α).Only allowed left ↔ left := Iff.rfl

@[simp]
theorem only_call {op : Op} {rest : Res op → Prog Res α}
    : (.call op rest : Prog Res α).Only allowed left
      ↔ allowed op ∧ ∀ answer, (rest answer).Only allowed left :=
  Iff.rfl

@[simp]
theorem only_perform {op : Op}
    : (perform op : Prog Res (Res op)).Only allowed left ↔ allowed op :=
  ⟨fun only => only.1, fun h => ⟨h, fun _ => trivial⟩⟩

/-- Every program keeps to the calls there are, by induction on it. -/
theorem only_any (program : Prog Res α) : program.Only (fun _ => True) True := by
  induction program with
  | ret value => trivial
  | pending => trivial
  | call op rest ih => exact ⟨trivial, ih⟩

/-- Footprints compose along sequencing, by induction on the first program. -/
theorem Only.bind {program : Prog Res α} {next : α → Prog Res β}
    (first : program.Only allowed left) (rest : ∀ value, (next value).Only allowed left)
    : (program >>= next).Only allowed left := by
  induction program with
  | ret value => exact rest value
  | pending => exact first
  | call op continuation ih => exact ⟨first.1, fun answer => ih answer (first.2 answer)⟩

theorem Only.mono {program : Prog Res α} (only : program.Only allowed left)
    (weaken : ∀ op, allowed op → wider op)
    : program.Only wider left := by
  induction program with
  | ret value => trivial
  | pending => exact only
  | call op rest ih => exact ⟨weaken op only.1, fun answer => ih answer (only.2 answer)⟩

/-- A program that is never left pending is not left pending anywhere in particular. -/
theorem Only.loosen {program : Prog Res α} (only : program.Only allowed)
    : program.Only allowed left := by
  induction program with
  | ret value => trivial
  | pending => exact only.elim
  | call op rest ih => exact ⟨only.1, fun answer => ih answer (only.2 answer)⟩

/-- A run makes only the calls of the program's footprint, by induction on the run. -/
theorem Only.mem {program : Prog Res α} {trace : Trace Res} {outcome : Option α}
    (only : program.Only allowed left) (run : program.Runs trace outcome)
    {event : Event Res} (member : event ∈ trace)
    : allowed event.op := by
  induction run with
  | halted | ret => cases member
  | call answer later ih =>
      rcases List.mem_cons.mp member with rfl | member
      · exact only.1
      · exact ih (only.2 answer) member

/-- A program that is never left pending has a completed run when all its calls can be
answered, by induction on it.
-/
theorem Only.completes {program : Prog Res α} (only : program.Only allowed)
    (answers : ∀ op, allowed op → Nonempty (Res op))
    : ∃ trace value, program.Runs trace (some value) := by
  induction program with
  | ret value => exact ⟨[], value, .ret value⟩
  | pending => exact only.elim
  | call op rest ih =>
      obtain ⟨answer⟩ := answers op only.1
      obtain ⟨trace, value, run⟩ := ih answer (only.2 answer)
      exact ⟨⟨op, answer⟩ :: trace, value, .call answer run⟩

end Only

-----------------------------------------------------------------------------------------
-- Unfinished runs
-----------------------------------------------------------------------------------------

/-- After these calls the program is left pending. -/
inductive Stalls : Prog Res α → Trace Res → Prop
  | pending : Stalls .pending []
  | call {op : Op} {rest : Res op → Prog Res α} (answer : Res op) {trace}
    (later : Stalls (rest answer) trace)
    : Stalls (.call op rest) (⟨op, answer⟩ :: trace)

end Prog

end Interaction
