import Mathlib.Data.Set.Insert
import Mathlib.Logic.Function.Basic
import Mathlib.Logic.Relation

/-! Processes and the numbers they go by. A number belongs to one process until that process is
reaped, and only then to another, so it names the same process for as long as that lives.
-/

namespace Processes

/-- The unreaped process behind each number, and which processes were ever started and which
have exited. A process is in the table only once, and only after it was started.
-/
structure PidTable (P : Type) where
  holder : Int → Option P
  started : Set P
  exited : Set P
  mem_started : ∀ {pid p}, holder pid = some p → p ∈ started
  unique : ∀ {pid other p}, holder pid = some p → holder other = some p → pid = other

namespace PidTable

variable {P : Type} {table later : PidTable P} {p : P} {pid other : Int}

/-- A process that was not reaped. -/
def Unreaped (table : PidTable P) (p : P) : Prop := ∃ pid, table.holder pid = some p

/-- A table without processes. -/
def empty : PidTable P where
  holder _ := none
  started := ∅
  exited := ∅
  mem_started := nofun
  unique := nofun

/-- A new process gets a number. -/
def spawn (table : PidTable P) (pid : Int) (p : P) (new : p ∉ table.started) : PidTable P where
  holder := Function.update table.holder pid (some p)
  started := insert p table.started
  exited := table.exited
  mem_started {other q} held := by
    by_cases here : other = pid
    · subst here
      rw [Function.update_self] at held
      exact Or.inl (Option.some.inj held).symm
    · rw [Function.update_of_ne here] at held
      exact Or.inr (table.mem_started held)
  unique {first second q} left right := by
    by_cases one : first = pid <;> by_cases two : second = pid
    · rw [one, two]
    · subst one
      rw [Function.update_self] at left
      rw [Function.update_of_ne two, ← Option.some.inj left] at right
      exact absurd (table.mem_started right) new
    · subst two
      rw [Function.update_self] at right
      rw [Function.update_of_ne one, ← Option.some.inj right] at left
      exact absurd (table.mem_started left) new
    · rw [Function.update_of_ne one] at left
      rw [Function.update_of_ne two] at right
      exact table.unique left right

/-- A process exits; it keeps its number. -/
def exit (table : PidTable P) (p : P) : PidTable P :=
  { table with exited := insert p table.exited }

/-- A process is reaped and its number is free. -/
def reap (table : PidTable P) (pid : Int) : PidTable P where
  holder := Function.update table.holder pid none
  started := table.started
  exited := table.exited
  mem_started {other q} held := by
    by_cases here : other = pid
    · simp [here] at held
    · rw [Function.update_of_ne here] at held
      exact table.mem_started held
  unique {first second q} left right := by
    by_cases one : first = pid
    · simp [one] at left
    · by_cases two : second = pid
      · simp [two] at right
      · rw [Function.update_of_ne one] at left
        rw [Function.update_of_ne two] at right
        exact table.unique left right

/-- What can happen to the table: a new process takes a free number, a process exits, or one
that has exited is reaped.
-/
inductive Step : PidTable P → PidTable P → Prop
  | spawn {table : PidTable P} {pid : Int} {p : P} (free : table.holder pid = none)
    (new : p ∉ table.started)
    : Step table (table.spawn pid p new)
  | exit {table : PidTable P} {p : P} (unreaped : table.Unreaped p) : Step table (table.exit p)
  | reap {table : PidTable P} {pid : Int} {p : P} (held : table.holder pid = some p)
    (exited : p ∈ table.exited)
    : Step table (table.reap pid)

/-- Any number of such steps. -/
abbrev Evolves : PidTable P → PidTable P → Prop := Relation.ReflTransGen Step

/-- A process that was started stays so. -/
theorem Step.started (step : Step table later) (known : p ∈ table.started)
    : p ∈ later.started := by
  cases step with
  | spawn free new => exact Or.inr known
  | exit unreaped => exact known
  | reap held exited => exact known

/-- A process that was started is not given a number again. -/
theorem Step.holder (step : Step table later) (known : p ∈ table.started)
    (held : later.holder pid = some p)
    : table.holder pid = some p := by
  cases step with
  | @spawn given q free new =>
      by_cases here : pid = given
      · subst here
        obtain rfl : q = p := by simpa [PidTable.spawn] using held
        exact absurd known new
      · simpa [PidTable.spawn, here] using held
  | exit unreaped => exact held
  | @reap freed q owned exited =>
      by_cases here : pid = freed
      · simp [PidTable.reap, here] at held
      · simpa [PidTable.reap, here] using held

/-- By induction on the steps. -/
theorem Evolves.started (evolves : Evolves table later) (known : p ∈ table.started)
    : p ∈ later.started := by
  induction evolves with
  | refl => exact known
  | tail _ step ih => exact step.started ih

/-- Whatever number a process has, it had as long as it was there; by induction on the steps. -/
theorem Evolves.holder (evolves : Evolves table later) (known : p ∈ table.started)
    (held : later.holder pid = some p)
    : table.holder pid = some p := by
  induction evolves with
  | refl => exact held
  | tail earlier step ih => exact ih (step.holder (Evolves.started earlier known) held)

/-- While a process is unreaped its number is its own: between two moments at which it is in the
table, whatever is found under its number is the process itself.
-/
theorem holder_between {middle : PidTable P} (first : Evolves table middle)
    (second : Evolves middle later) (held : table.holder pid = some p)
    (unreaped : later.Unreaped p)
    : middle.holder pid = some p := by
  obtain ⟨last, there⟩ := unreaped
  have known := table.mem_started held
  have here : middle.holder last = some p := second.holder (first.started known) there
  have same : pid = last := table.unique held (first.holder known here)
  rw [same]
  exact here

end PidTable

end Processes
