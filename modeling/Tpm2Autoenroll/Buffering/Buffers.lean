import Mathlib.Data.List.Basic
import Mathlib.Data.List.TakeDrop

/-! Buffers of a capacity that is allocated once. Only growing past it allocates again, so a
buffer that is filled in pieces and never past its capacity is never moved.
-/

namespace Buffering

variable {α : Type}

/-- What a buffer holds, within its capacity. -/
structure Buffer (α : Type) where
  items : List α
  capacity : Nat
  fits : items.length ≤ capacity

namespace Buffer

@[ext]
theorem ext {one other : Buffer α} (items : one.items = other.items)
    (capacity : one.capacity = other.capacity)
    : one = other := by
  cases one
  cases other
  congr

/-- An empty buffer with room for so many. -/
def withCapacity (capacity : Nat) : Buffer α := ⟨[], capacity, Nat.zero_le _⟩

def length (b : Buffer α) : Nat := b.items.length

/-- Cut off or filled up to a length. Past the capacity this takes a new allocation. -/
def resize (b : Buffer α) (len : Nat) (fill : α) : Buffer α where
  items := b.items.take len ++ List.replicate (len - b.length) fill
  capacity := max b.capacity len
  fits := by
    rw [List.length_append, List.length_take, List.length_replicate, length]
    omega

def truncate (b : Buffer α) (len : Nat) : Buffer α where
  items := b.items.take len
  capacity := b.capacity
  fits := Nat.le_trans (List.length_take_le' len b.items) b.fits

/-- Overwritten from a position on, never past the end. -/
def overwrite (b : Buffer α) (start : Nat) (data : List α) : Buffer α where
  items := (b.items.take start ++ data ++ b.items.drop (start + data.length)).take b.length
  capacity := b.capacity
  fits := Nat.le_trans (List.length_take_le _ _) b.fits

variable {b : Buffer α} {len start : Nat} {fill : α} {data : List α}

@[simp]
theorem length_resize : (b.resize len fill).length = len := by
  change (b.items.take len ++ List.replicate (len - b.items.length) fill).length = len
  rw [List.length_append, List.length_take, List.length_replicate]
  omega

/-- Within the capacity nothing is allocated. -/
theorem capacity_resize (fill : α) (room : len ≤ b.capacity)
    : (b.resize len fill).capacity = b.capacity :=
  Nat.max_eq_left room

/-- Growing keeps what was there. -/
theorem take_resize (longer : b.length ≤ len)
    : (b.resize len fill).items.take b.length = b.items := by
  change (b.items.take len ++ List.replicate (len - b.length) fill).take b.items.length = b.items
  rw [List.take_of_length_le longer, List.take_left']
  rfl

/-- Growing and cutting back to the old length changes nothing. -/
theorem truncate_resize (fill : α) (longer : b.length ≤ len) (room : len ≤ b.capacity)
    : (b.resize len fill).truncate b.length = b := by
  ext1
  · exact take_resize longer
  · exact capacity_resize fill room

/-- Growing, overwriting what is new from its start on and cutting off the rest appends. -/
theorem items_truncate_overwrite (longer : b.length + data.length ≤ len)
    : (((b.resize len fill).overwrite b.length data).truncate (b.length + data.length)).items
      = b.items ++ data := by
  have grown : (b.resize len fill).length = len := length_resize
  have kept : (b.resize len fill).items.take b.length = b.items :=
    take_resize (Nat.le_trans (Nat.le_add_right _ _) longer)
  have whole : (b.items ++ data).length = b.length + data.length := List.length_append
  change (((b.resize len fill).items.take b.length ++ data
    ++ (b.resize len fill).items.drop (b.length + data.length)).take (b.resize len fill).length).take
      (b.length + data.length) = b.items ++ data
  rw [grown, List.take_take, Nat.min_eq_left longer, kept, List.take_left' whole]

end Buffer

end Buffering
