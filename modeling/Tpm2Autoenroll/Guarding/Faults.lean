import Mathlib.Algebra.Group.Nat.Defs
import Mathlib.Data.List.Basic
import Mathlib.Tactic.SplitIfs

/-! Computations on machine words and slices, where a step out of range is a fault that nothing
handles. A computation that follows one without any such steps has no fault.
-/

namespace Guarding

variable {σ τ ε α β γ δ : Type}

/-- What a step out of range is. -/
inductive Fault
  | index
  | slice
  | overflow
  | underflow
  | narrowing
  | shift
  | turns
  | reservation
  deriving DecidableEq

/-- A computation with a state that ends in a value, in an error that it reports or in a fault. -/
abbrev Guarded (σ ε α : Type) := StateT σ (ExceptT ε (Except Fault)) α

def fault (kind : Fault) : Guarded σ ε α := fun _ => ExceptT.mk (.error kind)

/-- From this state: the fault, or the value or error that comes of it. -/
def Guarded.outcome (program : Guarded σ ε α) (start : σ) : Except Fault (Except ε α) :=
  (program.run start).run.map fun ended => ended.map Prod.fst

-----------------------------------------------------------------------------------------
-- Steps
-----------------------------------------------------------------------------------------

/-- `xs[i]` -/
def index (xs : List α) (i : Nat) : Guarded σ ε α :=
  match xs[i]? with
  | some x => pure x
  | none => fault .index

/-- `xs[first..last]` -/
def slice (xs : List α) (first last : Nat) : Guarded σ ε (List α) :=
  if first ≤ last ∧ last ≤ xs.length then
    pure ((xs.take last).drop first)
  else
    fault .slice

/-- Addition, subtraction and multiplication of words of this many bits. -/
def add (bits a b : Nat) : Guarded σ ε Nat :=
  if a + b < 2 ^ bits then pure (a + b) else fault .overflow

def sub (a b : Nat) : Guarded σ ε Nat := if b ≤ a then pure (a - b) else fault .underflow

def mul (bits a b : Nat) : Guarded σ ε Nat :=
  if a * b < 2 ^ bits then pure (a * b) else fault .overflow

/-- A cast to fewer bits that changes nothing. -/
def narrow (bits a : Nat) : Guarded σ ε Nat :=
  if a < 2 ^ bits then pure a else fault .narrowing

/-- `1 << n` in this many bits. -/
def oneShifted (bits n : Nat) : Guarded σ ε Nat :=
  if n < bits then pure (2 ^ n) else fault .shift

/-- Room for `capacity` items where `limit` are the most there can be. -/
def reserve (capacity limit : Nat) : Guarded σ ε Unit :=
  if capacity ≤ limit then pure () else fault .reservation

section Steps

variable {xs : List α} {x : α} {i first last bits a b n capacity limit : Nat}

theorem index_eq (inside : xs[i]? = some x) : (index xs i : Guarded σ ε α) = pure x := by
  rw [index, inside]

theorem slice_eq (ordered : first ≤ last) (inside : last ≤ xs.length)
    : (slice xs first last : Guarded σ ε (List α)) = pure ((xs.take last).drop first) :=
  if_pos ⟨ordered, inside⟩

theorem add_eq (room : a + b < 2 ^ bits) : (add bits a b : Guarded σ ε Nat) = pure (a + b) :=
  if_pos room

theorem sub_eq (room : b ≤ a) : (sub a b : Guarded σ ε Nat) = pure (a - b) := if_pos room

theorem mul_eq (room : a * b < 2 ^ bits) : (mul bits a b : Guarded σ ε Nat) = pure (a * b) :=
  if_pos room

theorem narrow_eq (room : a < 2 ^ bits) : (narrow bits a : Guarded σ ε Nat) = pure a := if_pos room

theorem oneShifted_eq (room : n < bits) : (oneShifted bits n : Guarded σ ε Nat) = pure (2 ^ n) :=
  if_pos room

theorem reserve_eq (room : capacity ≤ limit)
    : (reserve capacity limit : Guarded σ ε Unit) = pure () :=
  if_pos room

end Steps

-----------------------------------------------------------------------------------------
-- Loops
-----------------------------------------------------------------------------------------

/-- A loop of `count` turns that may take `turns` of them. -/
def repeatWithin (body : α → Guarded σ ε α) : (turns count : Nat) → α → Guarded σ ε α
  | _, 0, value => pure value
  | 0, _ + 1, _ => fault .turns
  | turns + 1, count + 1, value => do
      let next ← body value
      repeatWithin body turns count next

/-- A loop over a list that may take `turns` turns. -/
def eachWithin (body : α → β → Guarded σ ε α) : (turns : Nat) → List β → α → Guarded σ ε α
  | _, [], value => pure value
  | 0, _ :: _, _ => fault .turns
  | turns + 1, x :: rest, value => do
      let next ← body value x
      eachWithin body turns rest next

/-- A loop with a turn for each item is a fold, by induction on the list. -/
theorem eachWithin_eq {body : α → β → Guarded σ ε α} {turns : Nat} {xs : List β} {value : α}
    (enough : xs.length ≤ turns)
    : eachWithin body turns xs value = xs.foldlM body value := by
  induction xs generalizing turns value with
  | nil => cases turns <;> rfl
  | cons x rest ih =>
      obtain ⟨turns, rfl⟩ := Nat.exists_eq_add_of_le' (Nat.one_le_of_lt enough)
      rw [List.length_cons, Nat.add_le_add_iff_right] at enough
      rw [eachWithin, List.foldlM_cons]
      exact bind_congr fun next => ih enough

-----------------------------------------------------------------------------------------
-- Following a computation without faults
-----------------------------------------------------------------------------------------

/-- From this state the guarded computation ends exactly as the plain one does, whose values and
states it has as `value` and `view`. So it has no fault.
-/
def Follows (view : τ → σ) (value : β → α) (guarded : Guarded σ ε α)
    (plain : StateT τ (Except ε) β) (s : τ) : Prop :=
  (guarded.run (view s)).run
    = .ok ((plain.run s).map fun (result, after) => (value result, view after))

section Follows

variable {view : τ → σ} {value : β → α} {other : δ → γ} {s : τ}

theorem follows_pure (result : β)
    : Follows (ε := ε) view value (pure (value result)) (pure result) s :=
  rfl

theorem follows_throw (error : ε)
    : Follows view value (throw error : Guarded σ ε α) (throw error) s :=
  rfl

/-- Looking at the state is no step of the plain computation. -/
theorem follows_get {next : σ → Guarded σ ε α} {plain : StateT τ (Except ε) β}
    (rest : Follows view value (next (view s)) plain s)
    : Follows view value (get >>= next) plain s :=
  rest

theorem follows_ofExcept (result : Except ε β)
    : Follows view id (ofExcept result : Guarded σ ε β) (liftM result) s := by
  cases result <;> rfl

/-- What follows a plain computation ends like it, without a fault. -/
theorem Follows.outcome {guarded : Guarded σ ε α} {plain : StateT τ (Except ε) α}
    (follows : Follows view id guarded plain s)
    : guarded.outcome (view s) = .ok ((plain.run s).map Prod.fst) := by
  unfold Follows at follows
  rw [Guarded.outcome, follows]
  cases plain.run s <;> rfl

/-- The rule of sequencing. -/
theorem Follows.bind {guarded : Guarded σ ε α} {plain : StateT τ (Except ε) β}
    {next : α → Guarded σ ε γ} {later : β → StateT τ (Except ε) δ}
    (first : Follows view value guarded plain s)
    (rest : ∀ result after, plain.run s = .ok (result, after)
      → Follows view other (next (value result)) (later result) after)
    : Follows view other (guarded >>= next) (plain >>= later) s := by
  unfold Follows at first ⊢
  rw [StateT.run_bind, StateT.run_bind, ExceptT.run_bind, first]
  cases ended : plain.run s with
  | error error => rfl
  | ok taken => exact rest taken.1 taken.2 ended

/-- A loop in the plain computation. -/
def iterate (body : β → StateT τ (Except ε) β) : Nat → β → StateT τ (Except ε) β
  | 0, value => pure value
  | count + 1, value => do
      let next ← body value
      iterate body count next

/-- The rule of loops, by induction on the turns that are left: every turn that is completed leaves
less to be done, so there is at most one turn more than there was to do.
-/
theorem follows_repeat {body : α → Guarded σ ε α} {plain : β → StateT τ (Except ε) β}
    {measure : τ → Nat} {turns count : Nat} {result : β}
    (turn : ∀ result s, Follows view value (body (value result)) (plain result) s)
    (decreases : ∀ result s next after, (plain result).run s = .ok (next, after)
      → measure after < measure s)
    (enough : measure s < turns)
    : Follows view value (repeatWithin body turns count (value result)) (iterate plain count result)
        s := by
  induction turns generalizing count result s with
  | zero => omega
  | succ turns ih =>
      cases count with
      | zero => exact follows_pure result
      | succ count =>
          refine (turn result s).bind fun next after ended => ih ?_
          have less := decreases result s next after ended
          omega

end Follows

end Guarding
