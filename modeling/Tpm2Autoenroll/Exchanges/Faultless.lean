import Mathlib.Tactic.IntervalCases
import Tpm2Autoenroll.Exchanges.Readings
import Tpm2Autoenroll.Model.TpmParsing

/-! No response makes a parser fault: each of them ends, step by step, as the parser without steps
does, whose reader cannot leave its buffer.
-/

namespace Tpm2Autoenroll.Tpm2

open Guarding
open Text (Bytes)

/-- A reader without what it knows of its position. -/
def Reader.cursor (r : Reader) : Checked.Cursor := ⟨r.buf, r.pos⟩

@[simp]
theorem Reader.cursor_buf (r : Reader) : r.cursor.buf = r.buf := rfl

@[simp]
theorem Reader.cursor_pos (r : Reader) : r.cursor.pos = r.pos := rfl

namespace Checked

variable {σ : Type} {r : Reader}

-----------------------------------------------------------------------------------------
-- Reader
-----------------------------------------------------------------------------------------

theorem bytes_follows (n : Nat)
    : Follows Reader.cursor List.Vector.toList (bytes n) (readBytes n) r := by
  refine follows_get ?_
  rw [Reader.cursor_buf, Reader.cursor_pos]
  unfold Follows
  simp only [StateT.run, readBytes]
  by_cases overflowed : 2 ^ 64 ≤ r.pos + n
  · rw [if_pos overflowed, if_pos overflowed]
    rfl
  · rw [if_neg overflowed, if_neg overflowed]
    by_cases ended : r.buf.length < r.pos + n
    · rw [dif_pos ended, if_pos ended]
      rfl
    · rw [dif_neg ended, if_neg ended, slice_eq (Nat.le_add_right _ _) (Nat.le_of_not_lt ended),
        pure_bind, List.drop_take, Nat.add_sub_cancel_left]
      rfl

/-- Four bytes are there to be put together. -/
theorem fromBeBytes_eq {b : Bytes} {start : Nat} {b0 b1 b2 b3 : UInt8} {rest : Bytes}
    (found : b.drop start = b0 :: b1 :: b2 :: b3 :: rest)
    : (fromBeBytes b start : Guarded σ String Nat)
      = pure (b0.toNat * 16777216 + b1.toNat * 65536 + b2.toNat * 256 + b3.toNat) := by
  have offset (i : Nat) : b[start + i]? = (b0 :: b1 :: b2 :: b3 :: rest)[i]? := by
    rw [← found, List.getElem?_drop]
  rw [fromBeBytes, index_eq (show b[start]? = some b0 from offset 0), pure_bind,
    index_eq (offset 1), pure_bind, index_eq (offset 2), pure_bind, index_eq (offset 3), pure_bind]

theorem u8_follows : Follows Reader.cursor id u8 readU8 r := by
  refine (bytes_follows 1).bind fun b after _ => ?_
  obtain ⟨b, length⟩ := b
  obtain ⟨b0, rfl⟩ := List.length_eq_one_iff.mp length
  rfl

theorem u16_follows : Follows Reader.cursor id u16 readU16 r := by
  refine (bytes_follows 2).bind fun b after _ => ?_
  obtain ⟨b, length⟩ := b
  obtain ⟨b0, b1, rfl⟩ := List.length_eq_two.mp length
  rfl

theorem u32_follows : Follows Reader.cursor id u32 readU32 r := by
  refine (bytes_follows 4).bind fun b after _ => ?_
  obtain ⟨b, length⟩ := b
  obtain ⟨b0, rest, rfl⟩ := List.exists_cons_of_length_eq_add_one length
  obtain ⟨b1, b2, b3, rfl⟩ := List.length_eq_three.mp (Nat.succ.inj length)
  rfl

theorem tpm2b_follows : Follows Reader.cursor id tpm2b readTpm2b r := by
  refine u16_follows.bind fun size after _ => ?_
  rw [← bind_pure (bytes _)]
  exact (bytes_follows size.toNat).bind fun b after _ => follows_pure b.toList

-----------------------------------------------------------------------------------------
-- Loops over what is left
-----------------------------------------------------------------------------------------

/-- A reading that goes on to another reading goes on where the first one ended. -/
theorem took_remaining {after : Reader} {taken : Bytes} (took : Took r taken after)
    : after.remaining + taken.length = r.remaining := by
  have length := congrArg List.length took.1
  simp only [Reader.rest, List.length_append, List.length_drop] at length
  simp only [Reader.remaining]
  omega

/-- The loop over the properties as turns, by induction on their number. -/
theorem readProperties_iterate (count : Nat) (seen : Properties)
    : readProperties count seen
      = iterate
          (fun seen => do
            let property ← readU32
            let value ← readU32
            return seen.record property value)
          count seen := by
  induction count generalizing seen with
  | zero => rfl
  | succ count ih => simp only [readProperties, iterate, bind_assoc, pure_bind, ih]

/-- Every turn takes eight bytes. -/
theorem properties_follow {turns count : Nat} {seen : Properties} (enough : r.remaining < turns)
    : Follows Reader.cursor id (repeatWithin readProperty turns count seen)
        (readProperties count seen) r := by
  rw [readProperties_iterate]
  refine follows_repeat (fun seen s => ?_) (fun seen s next after run => ?_) enough
  · exact u32_follows.bind fun property after _ => u32_follows.bind fun value after _ =>
      follows_pure _
  · obtain ⟨property, middle, first, run⟩ := run_bind_ok.mp run
    obtain ⟨value, last, second, run⟩ := run_bind_ok.mp run
    obtain ⟨_, rfl⟩ := run_pure_ok.mp run
    have before := took_remaining (readU32_took first)
    have between := took_remaining (readU32_took second)
    simp only [putU32, List.length_cons, List.length_nil] at before between
    omega

/-- The loop over the digests as turns, by induction on their number. -/
theorem readDigests_iterate (count : Nat) (digests : List Bytes)
    : iterate
        (fun digests => do
          let digest ← readTpm2b
          return digests ++ [digest])
        count digests
      = do
        let more ← readDigests count
        return digests ++ more := by
  induction count generalizing digests with
  | zero => simp only [iterate, readDigests, pure_bind, List.append_nil]
  | succ count ih =>
      simp only [readDigests, iterate, bind_assoc, pure_bind, ih, List.append_assoc,
        List.singleton_append]

/-- Every turn takes the two bytes of a size at least. -/
theorem digests_follow {turns count : Nat} (enough : r.remaining < turns)
    : Follows Reader.cursor id (repeatWithin readDigest turns count []) (readDigests count) r := by
  have same := readDigests_iterate count []
  simp only [List.nil_append, bind_pure] at same
  rw [← same]
  refine follows_repeat (fun digests s => ?_) (fun digests s next after run => ?_) enough
  · exact tpm2b_follows.bind fun digest after _ => follows_pure _
  · obtain ⟨digest, last, taken, run⟩ := run_bind_ok.mp run
    obtain ⟨_, rfl⟩ := run_pure_ok.mp run
    obtain ⟨size, middle, first, taken⟩ := run_bind_ok.mp taken
    obtain ⟨b, last, second, taken⟩ := run_bind_ok.mp taken
    obtain ⟨_, rfl⟩ := run_pure_ok.mp taken
    have before := took_remaining (readU16_took first)
    have between := took_remaining (readBytes_took second)
    simp only [putU16, List.length_cons, List.length_nil] at before
    omega

-----------------------------------------------------------------------------------------
-- Loops over a bitmap
-----------------------------------------------------------------------------------------

/-- The mask of a bit is one of its bits. -/
theorem mask_eq {bit : Nat} (small : bit < 8)
    : UInt8.ofNat (2 ^ bit) = (1 : UInt8) <<< UInt8.ofNat bit := by
  interval_cases bit <;> rfl

/-- The register at a position. -/
def register (byte bit : Nat) : Except String UInt8 :=
  let pcr := byte * 8 + bit
  if pcr > 23 then .error s!"PCR {pcr} is out of range" else .ok (UInt8.ofNat pcr)

/-- A bit that is set adds its register. -/
theorem readBit_eq {bits : UInt8} {byte bit : Nat} {returned : List UInt8} (small : byte < 256)
    (inside : bit < 8)
    : (readBit bits byte returned bit : Guarded σ String (List UInt8))
      = if bits &&& ((1 : UInt8) <<< UInt8.ofNat bit) != 0 then
          ofExcept (register byte bit) >>= fun pcr => pure (returned ++ [pcr])
        else
          pure returned := by
  rw [readBit, oneShifted_eq inside, pure_bind, mask_eq inside, mul_eq (by omega), pure_bind,
    add_eq (by omega), pure_bind]
  by_cases set : bits &&& ((1 : UInt8) <<< UInt8.ofNat bit) = 0
  · rw [if_neg (not_not_intro set), if_neg (by rw [set]; decide)]
  · rw [if_pos set, if_pos (bne_iff_ne.mpr set), register]
    by_cases large : byte * 8 + bit > 23
    · rw [if_pos large, if_pos large]
      rfl
    · rw [if_neg large, if_neg large, narrow_eq (by omega), pure_bind]
      rfl

/-- The registers of one byte, after those that are known; by induction on the positions. -/
theorem readBits_eq {bits : UInt8} {byte : Nat} {returned : List UInt8} {positions : List Nat}
    (small : byte < 256) (within : ∀ bit ∈ positions, bit < 8)
    : (positions.foldlM (readBit bits byte) returned : Guarded σ String (List UInt8))
      = ofExcept ((positions.filter fun bit =>
          bits &&& ((1 : UInt8) <<< UInt8.ofNat bit) != 0).mapM (register byte))
        >>= fun here => pure (returned ++ here) := by
  induction positions generalizing returned with
  | nil =>
      rw [List.foldlM_nil, List.filter_nil, List.mapM_nil]
      exact congrArg pure (List.append_nil returned).symm
  | cons bit rest ih =>
      obtain ⟨here, others⟩ := List.forall_mem_cons.mp within
      rw [List.foldlM_cons, readBit_eq small here, List.filter_cons]
      split_ifs with set
      · rw [List.mapM_cons]
        cases register byte bit with
        | error e => rfl
        | ok pcr =>
            refine (ih others).trans ?_
            cases (rest.filter _).mapM (register byte) with
            | error e => rfl
            | ok more =>
                simp only [List.append_assoc]
                rfl
      · rw [pure_bind, ih others]

/-- The registers of a bitmap, after those that are known; by induction on its bytes. -/
theorem readBytes_eq {turns byte : Nat} {returned : List UInt8} {bitmap : Bytes}
    (enough : 8 ≤ turns) (small : byte + bitmap.length ≤ 256)
    : ((bitmap.zipIdx byte).foldlM
        (fun returned entry => eachWithin (readBit entry.1 entry.2) turns (List.range 8) returned)
        returned : Guarded σ String (List UInt8))
      = ofExcept (bitmapPcrs byte bitmap) >>= fun here => pure (returned ++ here) := by
  induction bitmap generalizing byte returned with
  | nil => exact congrArg pure (List.append_nil returned).symm
  | cons bits rest ih =>
      rw [List.length_cons] at small
      rw [List.zipIdx_cons, List.foldlM_cons, eachWithin_eq (by simpa using enough),
        readBits_eq (by omega) (fun bit member => List.mem_range.mp member), bitmapPcrs]
      change _ = ofExcept ((setBits bits).mapM (register byte) >>= _) >>= _
      change (ofExcept ((setBits bits).mapM (register byte)) >>= _) >>= _ = _
      cases (setBits bits).mapM (register byte) with
      | error e => rfl
      | ok here =>
          refine (ih (by omega)).trans ?_
          cases bitmapPcrs (byte + 1) rest with
          | error e => rfl
          | ok more =>
              simp only [List.append_assoc]
              rfl

/-- The loops over a bitmap have turns enough when there are eight and one for each byte. -/
theorem readBitmap_eq {turns : Nat} {bitmap : Bytes} (enough : 8 ≤ turns)
    (whole : bitmap.length ≤ turns) (small : bitmap.length ≤ 256)
    : (readBitmap turns bitmap : Guarded σ String (List UInt8))
      = ofExcept (bitmapPcrs 0 bitmap) := by
  rw [readBitmap, eachWithin_eq (by simpa using whole), readBytes_eq enough (by omega)]
  exact bind_pure _

-----------------------------------------------------------------------------------------
-- Parsers
-----------------------------------------------------------------------------------------

theorem readLockout_follows : Follows Reader.cursor id readLockout Tpm2.readLockout r := by
  refine u8_follows.bind fun more r1 _ => ?_
  refine u32_follows.bind fun capability r2 _ => ?_
  simp only [id]
  split_ifs
  · exact follows_throw _
  · refine u32_follows.bind fun count r3 _ => follows_get ?_
    refine (properties_follow (Nat.lt_succ_of_le (Nat.sub_le _ _))).bind fun seen r4 _ => ?_
    simp only [id]
    cases seen.permanent with
    | none => exact follows_throw _
    | some permanent => exact follows_pure _

/-- A payload with a bitmap has eleven bytes before it, so turns enough for its bits. -/
theorem bitmap_room {payload : Bytes} {counter selections : UInt32} {hash : UInt16} {size : UInt8}
    {bitmap : List.Vector UInt8 size.toNat} {r1 r2 r3 r4 r5 : Reader}
    (first : readU32.run (.new payload) = .ok (counter, r1))
    (second : readU32.run r1 = .ok (selections, r2)) (third : readU16.run r2 = .ok (hash, r3))
    (fourth : readU8.run r3 = .ok (size, r4))
    (fifth : (readBytes size.toNat).run r4 = .ok (bitmap, r5))
    : 11 + size.toNat ≤ r5.buf.length := by
  have one := readU32_took first
  have two := readU32_took second
  have three := readU16_took third
  have four := readU8_took fourth
  have five := readBytes_took fifth
  have whole : r5.buf = payload := by rw [five.2, four.2, three.2, two.2, one.2, Reader.new]
  have length : (Reader.new payload).remaining = payload.length := rfl
  have left := took_remaining one
  have left2 := took_remaining two
  have left3 := took_remaining three
  have left4 := took_remaining four
  have left5 := took_remaining five
  simp only [putU32, putU16, List.length_cons, List.length_nil, List.Vector.toList_length]
    at left left2 left3 left4 left5
  rw [whole]
  omega

/-- Half of what is left is reserved at most, and every loop has turns enough. -/
theorem readPcrRead_follows {payload : Bytes}
    : Follows Reader.cursor id readPcrRead Tpm2.readPcrRead (.new payload) := by
  refine u32_follows.bind fun counter r1 first => ?_
  refine u32_follows.bind fun selections r2 second => ?_
  simp only [id]
  split_ifs
  · exact follows_throw _
  · refine u16_follows.bind fun hash r3 third => ?_
    refine u8_follows.bind fun size r4 fourth => ?_
    refine (bytes_follows size.toNat).bind fun bitmap r5 fifth => follows_get ?_
    have room := bitmap_room first second third fourth fifth
    have sized : bitmap.toList.length = size.toNat := bitmap.toList_length
    have small := size.toNat_lt
    rw [Reader.cursor_buf, readBitmap_eq (by omega) (by omega) (by omega)]
    refine (follows_ofExcept _).bind fun returned r6 _ => ?_
    refine u32_follows.bind fun count r7 _ => ?_
    rw [remaining, bind_assoc]
    refine follows_get ?_
    rw [Reader.cursor_buf, Reader.cursor_pos, sub_eq r7.inside, pure_bind]
    refine follows_get ?_
    rw [Reader.cursor_buf, Reader.cursor_pos, List.length_drop, reserve_eq (Nat.min_le_right _ _),
      pure_bind]
    refine follows_get ?_
    refine (digests_follow (Nat.lt_succ_of_le (Nat.sub_le _ _))).bind fun digests r8 _ => ?_
    exact follows_pure _

/-- A header is looked at only where there are bytes enough for one. -/
theorem responsePayload_eq (buf : Bytes)
    : responsePayload buf = .ok (Tpm2.responsePayload buf) := by
  match buf with
  | [] | [_] | [_, _] | [_, _, _] | [_, _, _, _] | [_, _, _, _, _] | [_, _, _, _, _, _]
  | [_, _, _, _, _, _, _] | [_, _, _, _, _, _, _, _] | [_, _, _, _, _, _, _, _, _] => rfl
  | b0 :: b1 :: s0 :: s1 :: s2 :: s3 :: c0 :: c1 :: c2 :: c3 :: payload =>
      have enough : ¬ (b0 :: b1 :: s0 :: s1 :: s2 :: s3 :: c0 :: c1 :: c2 :: c3 :: payload).length
          < 10 := by simp
      rw [responsePayload, readPayload, if_neg enough, fromBeBytes_eq rfl, pure_bind,
        Tpm2.responsePayload]
      dsimp only
      by_cases size : s0.toNat * 16777216 + s1.toNat * 65536 + s2.toNat * 256 + s3.toNat
          = (b0 :: b1 :: s0 :: s1 :: s2 :: s3 :: c0 :: c1 :: c2 :: c3 :: payload).length
      · rw [if_neg (not_not_intro size), if_neg (not_not_intro size), fromBeBytes_eq rfl, pure_bind,
          slice_eq (by simp) le_rfl, List.take_length]
        split_ifs <;> rfl
      · rw [if_pos size, if_pos size]
        rfl

end Checked

/-- No response makes a parser fault, whatever its bytes are. Each parser ends with a value or an
error, without an index or a slice out of range, a sum, product or difference that wraps or a cast
that changes its value; no loop takes more turns than the payload has bytes and one; and no more is
reserved than half of what is left of the payload.
-/
theorem parsers_faultless (bytes : Bytes)
    : Checked.responsePayload bytes = .ok (responsePayload bytes)
      ∧ Checked.parseProperties bytes = .ok (parseProperties bytes)
      ∧ Checked.parsePcrRead bytes = .ok (parsePcrRead bytes)
      ∧ Checked.parseDigest bytes = .ok (parseDigest bytes) := by
  refine ⟨Checked.responsePayload_eq bytes, ?_, ?_, ?_⟩
  · exact (Checked.readLockout_follows (r := .new bytes)).outcome
  · exact Checked.readPcrRead_follows.outcome
  · exact (Checked.tpm2b_follows (r := .new bytes)).outcome

end Tpm2Autoenroll.Tpm2
