import Mathlib.Data.List.Sort
import Mathlib.Data.List.Destutter

/-! Strictly ascending lists over a linear order, and the one that sorting a list and dropping
adjacent repeats leads to.
-/

namespace Sorting

variable {α : Type} [LT α] [LE α] [Std.LawfulOrderLT α]

theorem nodup_of_ascending {list : List α} (ascending : list.Pairwise (· < ·)) : list.Nodup :=
  ascending.imp fun below same => absurd (same ▸ below) Std.lt_irrefl

variable [Std.IsLinearOrder α]

/-- An ascending list is determined by its members. -/
theorem eq_of_ascending {left right : List α} (leftAscending : left.Pairwise (· < ·))
    (rightAscending : right.Pairwise (· < ·)) (same : ∀ a, a ∈ left ↔ a ∈ right)
    : left = right := by
  have perm : left.Perm right :=
    (List.perm_ext_iff_of_nodup (nodup_of_ascending leftAscending)
      (nodup_of_ascending rightAscending)).mpr same
  refine perm.eq_of_pairwise ?_ leftAscending rightAscending
  intro a b _ _ below above
  exact absurd (Std.lt_trans below above) Std.lt_irrefl

/-- A sorted list without adjacent repeats is ascending, by induction on the list. -/
theorem ascending_of_sorted {list : List α} (sorted : list.Pairwise (· ≤ ·))
    (changing : list.IsChain (· ≠ ·))
    : list.Pairwise (· < ·) := by
  induction list with
  | nil => exact .nil
  | cons first rest ih =>
      obtain ⟨above, later⟩ := List.pairwise_cons.mp sorted
      have ascending := ih later changing.tail
      refine List.pairwise_cons.mpr ⟨fun b member => ?_, ascending⟩
      cases rest with
      | nil => simp at member
      | cons second others =>
          have different : first ≠ second := (List.isChain_cons_cons.mp changing).1
          have below : first < second := Std.lt_of_le_of_ne (above second (by simp)) different
          rcases List.mem_cons.mp member with rfl | member
          · exact below
          · exact Std.lt_trans below ((List.pairwise_cons.mp ascending).1 b member)

variable [DecidableLE α]

/-- Sorting by distinct keys leaves these in ascending order. -/
theorem ascending_insertionSort {β : Type} {key : β → α} {list : List β}
    (distinct : (list.map key).Nodup)
    : (list.insertionSort fun a b => key a ≤ key b).Pairwise fun a b => key a < key b := by
  have total : Std.Total fun a b => key a ≤ key b := ⟨fun _ _ => Std.le_total⟩
  have trans : IsTrans β fun a b => key a ≤ key b := ⟨fun _ _ _ => Std.le_trans⟩
  have perm := List.perm_insertionSort (fun a b => key a ≤ key b) list
  have apart := List.pairwise_map.mp ((perm.map key).nodup_iff.mpr distinct)
  exact (List.pairwise_insertionSort _ list).imp₂
    (fun _ _ low different => Std.lt_of_le_of_ne low different) apart

variable [DecidableEq α]

/-- Sorting, then dropping adjacent repeats. -/
def sortDedup (list : List α) : List α := (list.insertionSort (· ≤ ·)).destutter (· ≠ ·)

theorem sortDedup_ascending (list : List α) : (sortDedup list).Pairwise (· < ·) := by
  have total : Std.Total (α := α) (· ≤ ·) := ⟨fun _ _ => Std.le_total⟩
  have trans : IsTrans α (· ≤ ·) := ⟨fun _ _ _ => Std.le_trans⟩
  have sorted : (sortDedup list).Pairwise (· ≤ ·) :=
    (List.pairwise_insertionSort (· ≤ ·) list).sublist (List.destutter_sublist _ _)
  exact ascending_of_sorted sorted (List.isChain_destutter _ _)

omit [LT α] [LE α] [Std.LawfulOrderLT α] [Std.IsLinearOrder α] [DecidableLE α] in
/-- Only repeats are dropped, by induction on the list. -/
theorem mem_destutter' {a first : α} {list : List α}
    : a ∈ list.destutter' (· ≠ ·) first ↔ a = first ∨ a ∈ list := by
  induction list generalizing first with
  | nil => simp
  | cons next rest ih =>
      by_cases same : first = next
      · rw [List.destutter'_cons_neg _ (by simpa using same), ih, same]
        simp
      · rw [List.destutter'_cons_pos _ same, List.mem_cons, ih, List.mem_cons]

omit [LT α] [Std.LawfulOrderLT α] [Std.IsLinearOrder α] in
@[simp]
theorem mem_sortDedup {a : α} {list : List α} : a ∈ sortDedup list ↔ a ∈ list := by
  have dropped : ∀ sorted : List α, a ∈ sorted.destutter (· ≠ ·) ↔ a ∈ sorted := by
    intro sorted
    cases sorted with
    | nil => simp
    | cons first rest => rw [List.destutter_cons', mem_destutter', List.mem_cons]
  rw [sortDedup, dropped, List.mem_insertionSort]

omit [LT α] [Std.LawfulOrderLT α] [Std.IsLinearOrder α] in
@[simp]
theorem sortDedup_eq_nil {list : List α} : sortDedup list = [] ↔ list = [] := by
  simp [List.eq_nil_iff_forall_not_mem]

/-- Nothing is left to do for an ascending list. -/
theorem sortDedup_of_ascending {list : List α} (ascending : list.Pairwise (· < ·))
    : sortDedup list = list :=
  eq_of_ascending (sortDedup_ascending list) ascending fun _ => mem_sortDedup

end Sorting
