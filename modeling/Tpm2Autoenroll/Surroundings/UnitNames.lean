import Tpm2Autoenroll.Model.Peer
import Tpm2Autoenroll.Model.Token

/-! How systemd reads the instance of a unit name back, and that no two volumes share a unit.
-/

namespace Tpm2Autoenroll

open Text (Bytes)

/-- systemd's `unit_name_unescape()`: `-` is a slash and `\xNN` is the byte NN. -/
def unitNameUnescape : Bytes → Option Bytes
  | [] => some []
  | 0x5c :: 0x78 :: hi :: lo :: rest => do
      let hi ← Token.hexDigit hi
      let lo ← Token.hexDigit lo
      return (hi * 16 + lo) :: (← unitNameUnescape rest)
  | b :: rest =>
      if b = 0x5c then none
      else (unitNameUnescape rest).map ((if b = 0x2d then 0x2f else b) :: ·)

/-- What can be read is read without regard to what follows it, by induction on it. -/
theorem unitNameUnescape_append {left right decoded : Bytes}
    (read : unitNameUnescape left = some decoded)
    : unitNameUnescape (left ++ right) = (unitNameUnescape right).map (decoded ++ ·) := by
  induction left using unitNameUnescape.induct generalizing decoded with
  | case1 =>
      cases read
      simp
  | case2 hi lo rest ih =>
      simp only [unitNameUnescape, List.cons_append] at read ⊢
      cases high : Token.hexDigit hi with
      | none => simp [high] at read
      | some h =>
          cases low : Token.hexDigit lo with
          | none => simp [high, low] at read
          | some l =>
              cases later : unitNameUnescape rest with
              | none => simp [high, low, later] at read
              | some others =>
                  simp only [high, low, later] at read
                  cases read
                  rw [ih later]
                  cases unitNameUnescape right <;> rfl
  | case3 rest escape =>
      rw [unitNameUnescape.eq_3 _ _ escape] at read
      simp at read
  | case4 b rest escape plain ih =>
      have step (later : Bytes) : unitNameUnescape (b :: later)
          = (unitNameUnescape later).map ((if b = 0x2d then 0x2f else b) :: ·) := by
        rw [unitNameUnescape.eq_3 _ _ fun _ _ _ same _ => plain same, if_neg plain]
      rw [step] at read
      obtain ⟨others, later, rfl⟩ := Option.map_eq_some_iff.mp read
      rw [List.cons_append, step, ih later, Option.map_map]
      rfl

namespace Peer

/-- Every byte that is written for itself, escaped or turned into a dash reads back. -/
theorem unitNameUnescape_byte (b : UInt8)
    : unitNameUnescape ((unitEscapeByte b).flatMap String.utf8EncodeChar) = some [b] := by
  have all : ∀ n < 256, unitNameUnescape
      ((unitEscapeByte (UInt8.ofNat n)).flatMap String.utf8EncodeChar)
      = some [UInt8.ofNat n] := by
    decide +kernel
  have this := all b.toNat b.toNat_lt
  rwa [UInt8.ofNat_toNat] at this

/-- By induction on the bytes. -/
theorem unitNameUnescape_bytes (bytes : Bytes)
    : unitNameUnescape ((bytes.flatMap unitEscapeByte).flatMap String.utf8EncodeChar)
      = some bytes := by
  induction bytes with
  | nil => rfl
  | cons b rest ih =>
      rw [List.flatMap_cons, List.flatMap_append,
        unitNameUnescape_append (unitNameUnescape_byte b), ih]
      rfl

/-- systemd reads an escaped name back. -/
theorem unitNameUnescape_unitEscape (bytes : Bytes)
    : unitNameUnescape (Text.asBytes (String.ofList (unitEscapeBytes bytes))) = some bytes := by
  rw [Text.asBytes_ofList]
  cases bytes with
  | nil => rfl
  | cons first rest =>
      have begun : unitNameUnescape ((if first = 0x2e then ['\\', 'x', '2', 'e']
          else unitEscapeByte first).flatMap String.utf8EncodeChar) = some [first] := by
        split_ifs with dot
        · rw [dot]
          decide
        · exact unitNameUnescape_byte first
      rw [unitEscapeBytes, List.flatMap_append, unitNameUnescape_append begun,
        unitNameUnescape_bytes]
      rfl

/-- An escaped name is a single path component. -/
theorem slash_not_mem_unitEscape (bytes : Bytes) : '/' ∉ unitEscapeBytes bytes := by
  have byte (b : UInt8) : '/' ∉ unitEscapeByte b := by
    have all : ∀ n < 256, (unitEscapeByte (UInt8.ofNat n)).contains '/' = false := by
      decide +kernel
    have this := all b.toNat b.toNat_lt
    rw [UInt8.ofNat_toNat] at this
    simpa using this
  cases bytes with
  | nil => simp [unitEscapeBytes]
  | cons first rest =>
      rw [unitEscapeBytes, List.mem_append, List.mem_flatMap]
      rintro (start | ⟨b, _, later⟩)
      · split_ifs at start
        · simp at start
        · exact byte first start
      · exact byte b later

/-- Different volumes have different units. -/
theorem unitFor_injective {v w : String} (same : unitFor v = unitFor w) : v = w := by
  have chars : (unitEscape v).toList = (unitEscape w).toList := by
    have whole (name : String) : (unitFor name).toList
        = "systemd-cryptsetup@".toList ++ (unitEscape name).toList ++ ".service".toList := by
      rw [← String.toList_append, ← String.toList_append]
      rfl
    have lists := congrArg String.toList same
    rw [whole, whole] at lists
    exact List.append_cancel_left (List.append_cancel_right lists)
  have decoded := unitNameUnescape_unitEscape (Text.asBytes v)
  have escaped : unitEscape v = unitEscape w := String.toList_inj.mp chars
  rw [unitEscape, unitEscape] at escaped
  rw [escaped, unitNameUnescape_unitEscape] at decoded
  exact Text.asBytes_injective (Option.some.inj decoded).symm

/-- A text of `/proc/<pid>/cgroup` is accepted for at most one volume: it is accepted for the
unit its last path component is, no slash is in a unit's name, and systemd reads every volume's
name back from its unit, whatever its bytes.
-/
theorem one_volume_per_process
    : (∀ v w cgroup, inUnit cgroup (unitFor v) = true → inUnit cgroup (unitFor w) = true → v = w)
      ∧ (∀ bytes, unitNameUnescape (Text.asBytes (String.ofList (unitEscapeBytes bytes)))
          = some bytes)
      ∧ Function.Injective unitEscapeBytes
      ∧ ∀ bytes, '/' ∉ unitEscapeBytes bytes := by
  refine ⟨?_, unitNameUnescape_unitEscape, ?_, slash_not_mem_unitEscape⟩
  · intro v w cgroup first second
    unfold inUnit at first second
    split at first
    · cases first
    next path found =>
      have left : (path.splitOn '/').getLast? = some (unitFor v).toList := by simpa using first
      have right : (path.splitOn '/').getLast? = some (unitFor w).toList := by
        rw [found] at second
        simpa using second
      have units : (unitFor v).toList = (unitFor w).toList :=
        Option.some.inj (left.symm.trans right)
      exact unitFor_injective (String.toList_inj.mp units)
  · intro left right same
    have decoded := unitNameUnescape_unitEscape left
    rw [same, unitNameUnescape_unitEscape] at decoded
    exact (Option.some.inj decoded).symm

end Peer

end Tpm2Autoenroll
