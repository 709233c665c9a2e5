import Mathlib.Data.List.TakeWhile

/-! Lists cut at a separator: the part before the first one and the part after the last one. -/

namespace Cutting

variable {α : Type} [BEq α] [LawfulBEq α] {sep : α} {first rest list part : List α}

theorem takeWhile_cut (clean : sep ∉ first)
    : (first ++ sep :: rest).takeWhile (· != sep) = first := by
  have passed : ∀ a ∈ first, (a != sep) = true := by
    intro a member
    exact bne_iff_ne.mpr fun same => clean (same ▸ member)
  rw [List.takeWhile_append_of_pos passed]
  simp

theorem dropWhile_cut (clean : sep ∉ first)
    : (first ++ sep :: rest).dropWhile (· != sep) = sep :: rest := by
  have passed : ∀ a ∈ first, (a != sep) = true := by
    intro a member
    exact bne_iff_ne.mpr fun same => clean (same ▸ member)
  rw [List.dropWhile_append_of_pos passed]
  simp

/-- The first separator is in one place only. -/
theorem cut_unique {other more : List α} (clean : sep ∉ first) (also : sep ∉ other)
    (same : first ++ sep :: rest = other ++ sep :: more)
    : first = other ∧ rest = more := by
  have fronts := congrArg (List.takeWhile (· != sep)) same
  rw [takeWhile_cut clean, takeWhile_cut also] at fronts
  subst fronts
  exact ⟨rfl, by simpa using same⟩

/-- The part after the last separator, if there is one. -/
def lastPart (sep : α) (list : List α) : List α := (list.reverse.takeWhile (· != sep)).reverse

theorem lastPart_cut {before : List α} (clean : sep ∉ part)
    : lastPart sep (before ++ sep :: part) = part := by
  have reversed : (before ++ sep :: part).reverse = part.reverse ++ sep :: before.reverse := by
    simp
  rw [lastPart, reversed, takeWhile_cut (by simpa using clean), List.reverse_reverse]

/-- It is what stands after a separator and has none in it. -/
theorem lastPart_eq (separated : sep ∈ list)
    : lastPart sep list = part ↔ sep ∉ part ∧ ∃ before, list = before ++ sep :: part := by
  constructor
  · rintro rfl
    obtain ⟨front, back, split, clean⟩ :=
      List.eq_append_cons_of_mem (List.mem_reverse.mpr separated)
    have whole : list = back.reverse ++ sep :: front.reverse := by
      have reversed := congrArg List.reverse split
      simpa using reversed
    rw [whole, lastPart_cut (by simpa using clean)]
    exact ⟨by simpa using clean, _, rfl⟩
  · rintro ⟨clean, before, rfl⟩
    exact lastPart_cut clean

/-- No piece between separators holds one, by induction on the list. -/
theorem notMem_of_mem_splitOn (member : part ∈ list.splitOn sep) : sep ∉ part := by
  induction list generalizing part with
  | nil =>
      rw [List.splitOn_nil, List.mem_singleton] at member
      simp [member]
  | cons head tail ih =>
      rw [List.splitOn_cons_eq_if_modifyHead] at member
      obtain ⟨first, rest, pieces⟩ := List.exists_cons_of_ne_nil (List.splitOn_ne_nil sep tail)
      rw [pieces] at ih member
      split_ifs at member with here
      · rcases List.mem_cons.mp member with rfl | later
        · simp
        · exact ih later
      · rcases List.mem_cons.mp member with rfl | later
        · intro found
          rcases List.mem_cons.mp found with rfl | inside
          · exact here (beq_self_eq_true _)
          · exact ih List.mem_cons_self inside
        · exact ih (List.mem_cons_of_mem _ later)

end Cutting
