import Tpm2Autoenroll.Model.TpmWire

/-! The reader of TPM responses against the writers of their fields: what was written is read
back, and what is read was there.
-/

namespace Tpm2Autoenroll.Tpm2

open Text (Bytes)

variable {α β : Type} {r after : Reader}

/-- What is left to read. -/
def Reader.rest (r : Reader) : Bytes := r.buf.drop r.pos

@[simp]
theorem Reader.rest_new (buf : Bytes) : (Reader.new buf).rest = buf := rfl

/-- The reading takes exactly these bytes for this value. -/
def Took (r : Reader) (bytes : Bytes) (after : Reader) : Prop :=
  r.rest = bytes ++ after.rest ∧ after.buf = r.buf

/-- Wherever these bytes come first, the reading takes them for this value. -/
def Reads (read : Read α) (bytes : Bytes) (value : α) : Prop :=
  ∀ r more, r.buf.length < 2 ^ 64 → r.rest = bytes ++ more
    → ∃ after, read.run r = .ok (value, after) ∧ after.rest = more ∧ after.buf = r.buf

/-- The same of a buffer of any length, as long as the position after it can be represented. -/
def Advances (read : Read α) (bytes : Bytes) (value : α) : Prop :=
  ∀ r more, r.pos + bytes.length < 2 ^ 64 → r.rest = bytes ++ more
    → ∃ after, read.run r = .ok (value, after) ∧ after.rest = more ∧ after.buf = r.buf
      ∧ after.pos = r.pos + bytes.length

/-- Within a buffer that can be represented every position can. -/
theorem Advances.reads {read : Read α} {bytes : Bytes} {value : α}
    (advances : Advances read bytes value)
    : Reads read bytes value := by
  intro r more small left
  have inside := r.inside
  have length : r.buf.length - r.pos = bytes.length + more.length := by
    rw [← List.length_drop, ← List.length_append]
    exact congrArg List.length left
  obtain ⟨after, run, rest, same, _⟩ := advances r more (by omega) left
  exact ⟨after, run, rest, same⟩

theorem Advances.pure (value : α) : Advances (pure value) [] value :=
  fun r _ _ left => ⟨r, rfl, left, rfl, rfl⟩

theorem Advances.bind {read : Read α} {next : α → Read β} {first second : Bytes} {value : α}
    {result : β} (head : Advances read first value) (tail : Advances (next value) second result)
    : Advances (read >>= next) (first ++ second) result := by
  intro r more room left
  rw [List.length_append] at room
  rw [List.append_assoc] at left
  obtain ⟨middle, run, rest, same, moved⟩ := head r _ (by omega) left
  obtain ⟨after, later, ended, kept, passed⟩ := tail middle more (by omega) rest
  refine ⟨after, ?_, ended, kept.trans same, ?_⟩
  · rw [StateT.run_bind, run]
    exact later
  · rw [passed, moved, List.length_append, Nat.add_assoc]

theorem Reads.pure (value : α) : Reads (pure value) [] value :=
  fun r _ _ left => ⟨r, rfl, left, rfl⟩

/-- A sequence of readings succeeds exactly when both do. -/
theorem run_bind_ok {read : Read α} {next : α → Read β} {result : β}
    : (read >>= next).run r = .ok (result, after)
      ↔ ∃ value middle, read.run r = .ok (value, middle)
        ∧ (next value).run middle = .ok (result, after) := by
  rw [StateT.run_bind]
  cases read.run r with
  | error e => simp [Bind.bind, Except.bind]
  | ok taken =>
      obtain ⟨value, middle⟩ := taken
      constructor
      · intro later
        exact ⟨value, middle, rfl, later⟩
      · rintro ⟨_, _, ⟨⟩, later⟩
        exact later

theorem run_liftM_ok {result : Except String α} {value : α}
    : (liftM result : Read α).run r = .ok (value, after) ↔ result = .ok value ∧ after = r := by
  cases result with
  | error e =>
      constructor
      · intro run
        cases run
      · rintro ⟨⟨⟩, _⟩
  | ok taken =>
      constructor
      · intro run
        cases run
        exact ⟨rfl, rfl⟩
      · rintro ⟨⟨⟩, rfl⟩
        rfl

theorem run_pure_ok {taken value : α}
    : (pure taken : Read α).run r = .ok (value, after) ↔ taken = value ∧ after = r := by
  constructor
  · intro run
    cases run
    exact ⟨rfl, rfl⟩
  · rintro ⟨rfl, rfl⟩
    rfl

-----------------------------------------------------------------------------------------
-- Bytes
-----------------------------------------------------------------------------------------

theorem readBytes_advances {bytes : Bytes} {n : Nat} (length : bytes.length = n)
    : Advances (readBytes n) bytes ⟨bytes, length⟩ := by
  intro r more room left
  have inside := r.inside
  have enough : n + more.length = r.buf.length - r.pos := by
    rw [← List.length_drop, ← length, ← List.length_append]
    exact (congrArg List.length left).symm
  have taken : (r.buf.drop r.pos).take n = bytes := by
    rw [show r.buf.drop r.pos = bytes ++ more from left, ← length, List.take_left]
  have remains : r.buf.drop (r.pos + n) = more := by
    rw [← List.drop_drop, show r.buf.drop r.pos = bytes ++ more from left, ← length,
      List.drop_left]
  rw [length] at room ⊢
  refine ⟨⟨r.buf, r.pos + n, by omega⟩, ?_, remains, rfl, rfl⟩
  simp only [StateT.run, readBytes, if_neg (show ¬ 2 ^ 64 ≤ r.pos + n by omega),
    dif_neg (show ¬ r.buf.length < r.pos + n by omega), taken]

theorem readBytes_reads {bytes : Bytes} {n : Nat} (length : bytes.length = n)
    : Reads (readBytes n) bytes ⟨bytes, length⟩ :=
  (readBytes_advances length).reads

theorem readBytes_took {n : Nat} {bytes : List.Vector UInt8 n}
    (run : (readBytes n).run r = .ok (bytes, after))
    : Took r bytes.toList after := by
  simp only [StateT.run, readBytes] at run
  split_ifs at run
  cases run
  refine ⟨?_, rfl⟩
  simp [Reader.rest, List.Vector.toList, ← List.drop_drop]

theorem readU8_advances (b : UInt8) : Advances readU8 [b] b := by
  have taken : Advances (readBytes 1) [b] ⟨[b], rfl⟩ := readBytes_advances rfl
  exact taken.bind (.pure b)

theorem readU8_reads (b : UInt8) : Reads readU8 [b] b := (readU8_advances b).reads

theorem readU8_took {b : UInt8} (run : readU8.run r = .ok (b, after)) : Took r [b] after := by
  obtain ⟨bytes, middle, taken, ended⟩ := run_bind_ok.mp run
  cases ended
  have took := readBytes_took taken
  match bytes, took with
  | ⟨[first], _⟩, took => exact took

/-- Two bytes in a row are the word they were written for. -/
theorem ofNat_putU16 (v : UInt16)
    : UInt16.ofNat ((UInt8.ofNat (v.toNat / 256)).toNat * 256
        + (UInt8.ofNat (v.toNat % 256)).toNat) = v := by
  have small := v.toNat_lt
  rw [UInt8.toNat_ofNat', UInt8.toNat_ofNat', ← UInt16.toNat_inj, UInt16.toNat_ofNat']
  omega

theorem putU16_ofNat (hi lo : UInt8)
    : putU16 (UInt16.ofNat (hi.toNat * 256 + lo.toNat)) = [hi, lo] := by
  have first := hi.toNat_lt
  have second := lo.toNat_lt
  have value : (UInt16.ofNat (hi.toNat * 256 + lo.toNat)).toNat = hi.toNat * 256 + lo.toNat := by
    rw [UInt16.toNat_ofNat']
    omega
  rw [putU16, value]
  congr 2
  · rw [show (hi.toNat * 256 + lo.toNat) / 256 = hi.toNat by omega, UInt8.ofNat_toNat]
  · rw [show (hi.toNat * 256 + lo.toNat) % 256 = lo.toNat by omega, UInt8.ofNat_toNat]

theorem readU16_reads (v : UInt16) : Reads readU16 (putU16 v) v := by
  intro r more small left
  have length : (putU16 v).length = 2 := rfl
  obtain ⟨after, run, rest, same⟩ := readBytes_reads length r more small left
  refine ⟨after, run_bind_ok.mpr ⟨_, after, run, ?_⟩, rest, same⟩
  have first : List.Vector.get ⟨putU16 v, length⟩ 0 = UInt8.ofNat (v.toNat / 256) := rfl
  have second : List.Vector.get ⟨putU16 v, length⟩ 1 = UInt8.ofNat (v.toNat % 256) := rfl
  rw [first, second, ofNat_putU16]
  rfl

theorem readU16_took {v : UInt16} (run : readU16.run r = .ok (v, after))
    : Took r (putU16 v) after := by
  obtain ⟨⟨bytes, length⟩, middle, taken, ended⟩ := run_bind_ok.mp run
  have took := readBytes_took taken
  obtain ⟨hi, lo, rfl⟩ := List.length_eq_two.mp length
  have value : (Except.ok (UInt16.ofNat (hi.toNat * 256 + lo.toNat), middle) : Except String _)
      = .ok (v, after) := ended
  simp only [Except.ok.injEq, Prod.mk.injEq] at value
  obtain ⟨rfl, rfl⟩ := value
  rw [putU16_ofNat]
  exact took

/-- Four bytes in a row are the word they were written for. -/
theorem ofNat_putU32 (v : UInt32)
    : UInt32.ofNat ((UInt8.ofNat (v.toNat / 16777216)).toNat * 16777216
        + (UInt8.ofNat (v.toNat / 65536 % 256)).toNat * 65536
        + (UInt8.ofNat (v.toNat / 256 % 256)).toNat * 256
        + (UInt8.ofNat (v.toNat % 256)).toNat) = v := by
  have small := v.toNat_lt
  simp only [UInt8.toNat_ofNat']
  rw [← UInt32.toNat_inj, UInt32.toNat_ofNat']
  omega

theorem putU32_injective : Function.Injective putU32 := by
  intro left right same
  simp only [putU32, List.cons.injEq, and_true] at same
  obtain ⟨first, second, third, fourth⟩ := same
  rw [← ofNat_putU32 left, first, second, third, fourth, ofNat_putU32]

theorem putU32_ofNat (b0 b1 b2 b3 : UInt8)
    : putU32 (UInt32.ofNat (b0.toNat * 16777216 + b1.toNat * 65536 + b2.toNat * 256 + b3.toNat))
      = [b0, b1, b2, b3] := by
  have first := b0.toNat_lt
  have second := b1.toNat_lt
  have third := b2.toNat_lt
  have fourth := b3.toNat_lt
  generalize sum : b0.toNat * 16777216 + b1.toNat * 65536 + b2.toNat * 256 + b3.toNat = n
  have value : (UInt32.ofNat n).toNat = n := by
    rw [UInt32.toNat_ofNat']
    omega
  rw [putU32, value, show n / 16777216 = b0.toNat by omega,
    show n / 65536 % 256 = b1.toNat by omega, show n / 256 % 256 = b2.toNat by omega,
    show n % 256 = b3.toNat by omega]
  simp only [UInt8.ofNat_toNat]

theorem readU32_advances (v : UInt32) : Advances readU32 (putU32 v) v := by
  intro r more room left
  have length : (putU32 v).length = 4 := rfl
  obtain ⟨after, run, rest, same⟩ := readBytes_advances length r more room left
  refine ⟨after, run_bind_ok.mpr ⟨_, after, run, ?_⟩, rest, same⟩
  have b0 : List.Vector.get ⟨putU32 v, length⟩ 0 = UInt8.ofNat (v.toNat / 16777216) := rfl
  have b1 : List.Vector.get ⟨putU32 v, length⟩ 1 = UInt8.ofNat (v.toNat / 65536 % 256) := rfl
  have b2 : List.Vector.get ⟨putU32 v, length⟩ 2 = UInt8.ofNat (v.toNat / 256 % 256) := rfl
  have b3 : List.Vector.get ⟨putU32 v, length⟩ 3 = UInt8.ofNat (v.toNat % 256) := rfl
  rw [b0, b1, b2, b3, ofNat_putU32]
  rfl

theorem readU32_reads (v : UInt32) : Reads readU32 (putU32 v) v := (readU32_advances v).reads

/-- The handle that a response begins with. -/
theorem parseHandle_payload {handle : UInt32} {more : Bytes}
    (small : (putU32 handle ++ more).length < 2 ^ 64)
    : parseHandle (putU32 handle ++ more) = .ok handle := by
  obtain ⟨after, run, _⟩ := readU32_reads handle (.new _) more small rfl
  rw [parseHandle, run]
  rfl

theorem readU32_took {v : UInt32} (run : readU32.run r = .ok (v, after))
    : Took r (putU32 v) after := by
  obtain ⟨⟨bytes, length⟩, middle, taken, ended⟩ := run_bind_ok.mp run
  have took := readBytes_took taken
  obtain ⟨b0, rest, rfl⟩ := List.exists_cons_of_length_eq_add_one length
  obtain ⟨b1, b2, b3, rfl⟩ := List.length_eq_three.mp (Nat.succ.inj length)
  have value : (Except.ok (UInt32.ofNat (b0.toNat * 16777216 + b1.toNat * 65536
      + b2.toNat * 256 + b3.toNat), middle) : Except String _) = .ok (v, after) := ended
  simp only [Except.ok.injEq, Prod.mk.injEq] at value
  obtain ⟨rfl, rfl⟩ := value
  rw [putU32_ofNat]
  exact took

-----------------------------------------------------------------------------------------
-- Digests
-----------------------------------------------------------------------------------------

theorem readTpm2b_reads {bytes : Bytes} (short : bytes.length < 65536)
    : Reads readTpm2b (putTpm2b bytes) bytes := by
  have size : (UInt16.ofNat bytes.length).toNat = bytes.length := by
    rw [UInt16.toNat_ofNat']
    omega
  intro r more small left
  rw [putTpm2b, List.append_assoc] at left
  obtain ⟨sized, run, rest, same⟩ := readU16_reads _ r _ small left
  obtain ⟨after, taken, ended, kept⟩ := readBytes_reads size.symm sized more (same ▸ small) rest
  refine ⟨after, run_bind_ok.mpr ⟨_, sized, run, ?_⟩, ended, kept.trans same⟩
  exact run_bind_ok.mpr ⟨_, after, taken, rfl⟩

/-- Digests are read one after the other, by induction on them. -/
theorem readDigests_reads {digests : List Bytes} (short : ∀ d ∈ digests, d.length < 65536)
    : Reads (readDigests digests.length) (digests.flatMap putTpm2b) digests := by
  induction digests with
  | nil => exact .pure []
  | cons first rest ih =>
      obtain ⟨here, others⟩ := List.forall_mem_cons.mp short
      intro r more small left
      rw [List.flatMap_cons, List.append_assoc] at left
      obtain ⟨middle, run, remaining, same⟩ := readTpm2b_reads here r _ small left
      obtain ⟨after, later, ended, kept⟩ := ih others middle more (same ▸ small) remaining
      refine ⟨after, run_bind_ok.mpr ⟨_, middle, run, ?_⟩, ended, kept.trans same⟩
      exact run_bind_ok.mpr ⟨_, after, later, rfl⟩

end Tpm2Autoenroll.Tpm2
