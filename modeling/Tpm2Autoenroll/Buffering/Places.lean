import Mathlib.Data.List.Basic

/-! Memory as what stands at each place, written a block at a time. -/

namespace Buffering

variable {α : Type}

/-- A block written from a place on. -/
def put (cells : Nat → α) (start : Nat) (block : List α) : Nat → α := fun i =>
  if i < start then cells i else (block[i - start]?).getD (cells i)

variable {cells : Nat → α} {start i : Nat} {block : List α}

/-- What is before the block stays. -/
theorem put_before (before : i < start) : put cells start block i = cells i := if_pos before

/-- What is inside it is of the block. -/
theorem put_mem (reached : start ≤ i) (inside : i < start + block.length)
    : put cells start block i ∈ block := by
  have place : i - start < block.length := by omega
  rw [put, if_neg (by omega), List.getElem?_eq_getElem place, Option.getD_some]
  exact List.getElem_mem place

/-- A block that is put right after places that are all alike, and is like them, makes more such
places.
-/
theorem forall_put (alike : α → Prop) (before : ∀ i < start, alike (cells i))
    (here : ∀ cell ∈ block, alike cell)
    : ∀ i < start + block.length, alike (put cells start block i) := by
  intro i inside
  rcases Nat.lt_or_ge i start with earlier | later
  · rw [put_before earlier]
    exact before i earlier
  · exact here _ (put_mem later inside)

/-- The places up to the end of a block hold what was there before it and the block. -/
theorem map_put
    : (List.range (start + block.length)).map (put cells start block)
      = (List.range start).map cells ++ block := by
  rw [List.range_add, List.map_append, List.map_map]
  refine congrArg₂ _ (List.map_congr_left fun i member => ?_) ?_
  · exact put_before (List.mem_range.mp member)
  · refine List.ext_getElem (by simp) fun i inside _ => ?_
    have place : i < block.length := by simpa using inside
    rw [List.getElem_map, List.getElem_range]
    show (if start + i < start then _ else _) = _
    rw [if_neg (by omega), Nat.add_sub_cancel_left, List.getElem?_eq_getElem place]
    rfl

end Buffering
