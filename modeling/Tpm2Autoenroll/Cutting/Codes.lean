import Mathlib.Data.List.Basic

/-! Texts that are written one item after the other, each as a word of its own. -/

namespace Cutting

variable {α β : Type}

/-- The item that a text begins with can be read without regard to what follows it. -/
structure Readable (code : α → List β) (read : List β → Option α) : Prop where
  reads : ∀ a more, read (code a ++ more) = some a
  nonempty : ∀ a, code a ≠ []

/-- Then the text determines its items, by induction on them. -/
theorem Readable.injective {code : α → List β} {read : List β → Option α}
    (readable : Readable code read) {list other : List α}
    (same : list.flatMap code = other.flatMap code)
    : list = other := by
  induction list generalizing other with
  | nil =>
      cases other with
      | nil => rfl
      | cons a rest =>
          rw [List.flatMap_nil, List.flatMap_cons] at same
          exact absurd (List.append_eq_nil_iff.mp same.symm).1 (readable.nonempty a)
  | cons a rest ih =>
      cases other with
      | nil =>
          rw [List.flatMap_nil, List.flatMap_cons] at same
          exact absurd (List.append_eq_nil_iff.mp same).1 (readable.nonempty a)
      | cons b more =>
          rw [List.flatMap_cons, List.flatMap_cons] at same
          have first : some a = some b := by
            rw [← readable.reads a (rest.flatMap code), same, readable.reads]
          cases first
          rw [ih (List.append_cancel_left same)]

/-- Two ways to write the items give one text only when they agree on each of these, as long as a
text tells which way it began where they do not. By induction on the items.
-/
theorem flatMap_eq_iff {code other : α → List β} (list : List α)
    (apart : ∀ a, code a ≠ other a → ∀ more rest, code a ++ more ≠ other a ++ rest)
    : list.flatMap code = list.flatMap other ↔ ∀ a ∈ list, code a = other a := by
  induction list with
  | nil => simp
  | cons a rest ih =>
      rw [List.flatMap_cons, List.flatMap_cons, List.forall_mem_cons, ← ih]
      constructor
      · intro same
        have first : code a = other a := by
          by_contra different
          exact apart a different _ _ same
        rw [first] at same
        exact ⟨first, List.append_cancel_left same⟩
      · rintro ⟨first, later⟩
        rw [first, later]

end Cutting
