import Mathlib.Data.List.Basic
import Mathlib.Tactic.SplitIfs

/-! Lists that are gone through up to the first item that stops it. -/

namespace Cutting

variable {α : Type} {stops : α → Bool} {xs ys : List α} {hit : α}

/-- The items up to the first that stops, and this one. -/
def through (stops : α → Bool) : List α → List α
  | [] => []
  | x :: rest => if stops x then [x] else x :: through stops rest

@[simp]
theorem through_nil : through stops [] = [] := rfl

theorem through_cons {x : α} : through stops (x :: xs)
    = if stops x then [x] else x :: through stops xs :=
  rfl

/-- Nothing more is gone through after a hit, by induction on the list. -/
theorem through_append_of_hit (found : xs.find? stops = some hit)
    : through stops (xs ++ ys) = through stops xs := by
  induction xs with
  | nil => cases found
  | cons x rest ih =>
      rw [List.cons_append, through_cons, through_cons]
      by_cases here : stops x = true
      · rw [if_pos here, if_pos here]
      · rw [List.find?_cons_of_neg here] at found
        rw [if_neg here, if_neg here, ih found]

/-- Without a hit all of it is gone through, by induction on the list. -/
theorem through_append_of_none (missed : xs.find? stops = none)
    : through stops (xs ++ ys) = xs ++ through stops ys := by
  induction xs with
  | nil => rfl
  | cons x rest ih =>
      have here : ¬ stops x = true := List.find?_eq_none.mp missed x List.mem_cons_self
      rw [List.find?_cons_of_neg here] at missed
      rw [List.cons_append, through_cons, if_neg here, ih missed, List.cons_append]

theorem through_of_none (missed : xs.find? stops = none) : through stops xs = xs := by
  have whole : through stops (xs ++ []) = xs ++ through stops [] := through_append_of_none missed
  rwa [List.append_nil, through_nil, List.append_nil] at whole

theorem through_begins (stops : α → Bool) (xs : List α) : through stops xs <+: xs := by
  induction xs with
  | nil => exact List.nil_prefix
  | cons x rest ih =>
      rw [through_cons]
      split_ifs
      · exact ⟨rest, rfl⟩
      · exact (List.prefix_cons_inj x).mpr ih

/-- What stops it is the last that is gone through, by induction on the list. -/
theorem eq_nil_of_stops {before after : List α}
    (split : through stops xs = before ++ hit :: after) (stop : stops hit = true)
    : after = [] := by
  induction xs generalizing before with
  | nil => simp at split
  | cons x rest ih =>
      rw [through_cons] at split
      split_ifs at split with here
      · cases before with
        | nil => exact (List.cons.inj split).2.symm
        | cons first more => simp at split
      · cases before with
        | nil =>
            obtain rfl := (List.cons.inj split).1
            exact absurd stop here
        | cons first more => exact ih (List.cons.inj split).2

end Cutting
