import Tpm2Autoenroll.Exchanges.Readings
import Tpm2Autoenroll.Surroundings.Selections

/-! The PCR_Read responses: what the daemon reads from any of them, and that a response is read
as the registers and digests it was written for.
-/

namespace Tpm2Autoenroll.Tpm2

open Text (Bytes)

-----------------------------------------------------------------------------------------
-- Bitmaps
-----------------------------------------------------------------------------------------

theorem mem_setBits {bits : UInt8} {bit : Nat}
    : bit ∈ setBits bits ↔ bit < 8 ∧ bits.toNat.testBit bit = true := by
  have all : ∀ n < 256, ∀ bit < 8,
      (UInt8.ofNat n &&& ((1 : UInt8) <<< UInt8.ofNat bit) != 0) = n.testBit bit := by
    decide +kernel
  rw [setBits, List.mem_filter, List.mem_range]
  refine and_congr_right fun small => ?_
  have this := all bits.toNat bits.toNat_lt bit small
  rw [UInt8.ofNat_toNat] at this
  rw [this]

theorem setBits_ascending (bits : UInt8) : (setBits bits).Pairwise (· < ·) :=
  List.pairwise_lt_range.filter _

/-- The positions of all set bits of a bitmap whose first byte has this number. -/
def setPositions : Nat → Bytes → List Nat
  | _, [] => []
  | byte, bits :: rest => (setBits bits).map (byte * 8 + ·) ++ setPositions (byte + 1) rest

/-- PCR n is bit n % 8 of byte n / 8, by induction on the bitmap. -/
theorem mem_setPositions {byte n : Nat} {bitmap : Bytes}
    : n ∈ setPositions byte bitmap
      ↔ byte ≤ n / 8
        ∧ ∃ bits, bitmap[n / 8 - byte]? = some bits ∧ bits.toNat.testBit (n % 8) = true := by
  induction bitmap generalizing byte with
  | nil => simp [setPositions]
  | cons bits rest ih =>
      rw [setPositions, List.mem_append, List.mem_map, ih]
      constructor
      · rintro (⟨bit, member, rfl⟩ | ⟨after, found⟩)
        · obtain ⟨small, set⟩ := mem_setBits.mp member
          have here : (byte * 8 + bit) / 8 = byte := by omega
          have offset : (byte * 8 + bit) % 8 = bit := by omega
          rw [here, offset]
          exact ⟨le_rfl, bits, by simp, set⟩
        · have next : n / 8 - byte = n / 8 - (byte + 1) + 1 := by omega
          rw [next]
          exact ⟨by omega, found⟩
      · rintro ⟨from_here, other, found, set⟩
        by_cases here : n / 8 = byte
        · rw [here, Nat.sub_self] at found
          obtain rfl : bits = other := by simpa using found
          exact Or.inl ⟨n % 8, mem_setBits.mpr ⟨by omega, set⟩, by omega⟩
        · have next : n / 8 - byte = n / 8 - (byte + 1) + 1 := by omega
          rw [next] at found
          exact Or.inr ⟨by omega, other, by simpa using found, set⟩

/-- By induction on the bitmap. -/
theorem setPositions_ascending {byte : Nat} {bitmap : Bytes}
    : (setPositions byte bitmap).Pairwise (· < ·) := by
  induction bitmap generalizing byte with
  | nil => exact .nil
  | cons bits rest ih =>
      refine List.pairwise_append.mpr ⟨?_, ih, ?_⟩
      · exact (setBits_ascending bits).map _ fun _ _ below => Nat.add_lt_add_left below _
      · intro n member m later
        obtain ⟨bit, inside, rfl⟩ := List.mem_map.mp member
        have small := (mem_setBits.mp inside).1
        have above := (mem_setPositions.mp later).1
        omega

/-- The bits of one byte are taken until one is out of range, by induction on them. -/
theorem mapM_inRange {byte : Nat} {bits : List Nat} {here : List UInt8}
    : (bits.mapM fun bit =>
          let pcr := byte * 8 + bit
          if pcr > 23 then (.error s!"PCR {pcr} is out of range" : Except String UInt8)
          else .ok (UInt8.ofNat pcr)) = .ok here
      ↔ (∀ n ∈ bits.map (byte * 8 + ·), n ≤ 23)
        ∧ here = (bits.map (byte * 8 + ·)).map UInt8.ofNat := by
  induction bits generalizing here with
  | nil => simp [Pure.pure, Except.pure, eq_comm]
  | cons bit rest ih =>
      rw [List.mapM_cons]
      by_cases large : byte * 8 + bit > 23
      · simp [large, Bind.bind, Except.bind]
      · have small : byte * 8 + bit ≤ 23 := by omega
        simp only [large, if_false]
        rw [List.map_cons, List.forall_mem_cons, List.map_cons]
        constructor
        · intro taken
          cases later : rest.mapM fun bit =>
              let pcr := byte * 8 + bit
              if pcr > 23 then (.error s!"PCR {pcr} is out of range" : Except String UInt8)
              else .ok (UInt8.ofNat pcr) with
          | error e =>
              rw [later] at taken
              cases taken
          | ok others =>
              obtain ⟨within, listed⟩ := ih.mp later
              rw [later] at taken
              cases taken
              exact ⟨⟨small, within⟩, by rw [listed]⟩
        · rintro ⟨⟨_, within⟩, rfl⟩
          rw [ih.mpr ⟨within, rfl⟩]
          rfl

/-- The registers of a bitmap are its set bits, as long as none is past the last register; by
induction on the bitmap.
-/
theorem bitmapPcrs_ok {byte : Nat} {bitmap : Bytes} {pcrs : List UInt8}
    : bitmapPcrs byte bitmap = .ok pcrs
      ↔ (∀ n ∈ setPositions byte bitmap, n ≤ 23)
        ∧ pcrs = (setPositions byte bitmap).map UInt8.ofNat := by
  induction bitmap generalizing byte pcrs with
  | nil => simp [bitmapPcrs, setPositions, eq_comm]
  | cons bits rest ih =>
      rw [setPositions, List.forall_mem_append, List.map_append, bitmapPcrs]
      constructor
      · intro taken
        cases first : (setBits bits).mapM fun bit =>
            let pcr := byte * 8 + bit
            if pcr > 23 then (.error s!"PCR {pcr} is out of range" : Except String UInt8)
            else .ok (UInt8.ofNat pcr) with
        | error e =>
            rw [first] at taken
            cases taken
        | ok here =>
            rw [first] at taken
            cases second : bitmapPcrs (byte + 1) rest with
            | error e =>
                rw [second] at taken
                cases taken
            | ok others =>
                rw [second] at taken
                cases taken
                obtain ⟨within, listed⟩ := mapM_inRange.mp first
                obtain ⟨others_within, others_listed⟩ := ih.mp second
                exact ⟨⟨within, others_within⟩, by rw [listed, others_listed]⟩
      · rintro ⟨⟨within, others_within⟩, rfl⟩
        rw [mapM_inRange.mpr ⟨within, rfl⟩, ih.mpr ⟨others_within, rfl⟩]
        rfl

/-- Positions of registers stay ascending as registers. -/
theorem ofNat_ascending {positions : List Nat} (ascending : positions.Pairwise (· < ·))
    (within : ∀ n ∈ positions, n ≤ 23)
    : (positions.map UInt8.ofNat).Pairwise (· < ·) := by
  refine List.pairwise_map.mpr (ascending.imp_of_mem ?_)
  intro a b first second below
  have := within b second
  rw [UInt8.lt_iff_toNat_lt, UInt8.toNat_ofNat', UInt8.toNat_ofNat']
  omega

theorem mem_map_ofNat {positions : List Nat} {pcr : UInt8} (within : ∀ n ∈ positions, n ≤ 23)
    : pcr ∈ positions.map UInt8.ofNat ↔ pcr.toNat ∈ positions := by
  rw [List.mem_map]
  constructor
  · rintro ⟨n, member, rfl⟩
    have := within n member
    rw [UInt8.toNat_ofNat', Nat.mod_eq_of_lt (by omega)]
    exact member
  · intro member
    exact ⟨pcr.toNat, member, UInt8.ofNat_toNat⟩

-----------------------------------------------------------------------------------------
-- Responses
-----------------------------------------------------------------------------------------

/-- The fields of a response, in the order they are read. -/
theorem readPcrRead_ok {r after : Reader} {returned : List UInt8} {digests : List Bytes}
    : readPcrRead.run r = .ok ((returned, digests), after)
      ↔ ∃ counter r1, readU32.run r = .ok (counter, r1)
        ∧ ∃ r2, readU32.run r1 = .ok (1, r2)
        ∧ ∃ hash r3, readU16.run r2 = .ok (hash, r3)
        ∧ ∃ size r4, readU8.run r3 = .ok (size, r4)
        ∧ ∃ bitmap r5, (readBytes size.toNat).run r4 = .ok (bitmap, r5)
        ∧ bitmapPcrs 0 bitmap.toList = .ok returned
        ∧ ∃ count r6, readU32.run r5 = .ok (count, r6)
        ∧ (readDigests count.toNat).run r6 = .ok (digests, after) := by
  rw [readPcrRead, run_bind_ok]
  refine exists_congr fun counter => exists_congr fun r1 => and_congr_right fun _ => ?_
  rw [run_bind_ok]
  constructor
  · rintro ⟨selections, r2, second, rest⟩
    by_cases one : selections = 1
    · subst one
      refine ⟨r2, second, ?_⟩
      simp only [ne_eq, not_true_eq_false, if_false, run_bind_ok, run_liftM_ok, run_pure_ok,
        Prod.mk.injEq] at rest
      obtain ⟨hash, r3, third, size, r4, fourth, bitmap, r5, fifth, _, _, ⟨named, rfl⟩, count, r6,
        sixth, _, _, seventh, ⟨rfl, rfl⟩, rfl⟩ := rest
      exact ⟨hash, r3, third, size, r4, fourth, bitmap, _, fifth, named, count, r6, sixth, seventh⟩
    · rw [if_pos one] at rest
      cases rest
  · rintro ⟨r2, second, hash, r3, third, size, r4, fourth, bitmap, r5, fifth, named, count, r6,
      sixth, seventh⟩
    refine ⟨1, r2, second, ?_⟩
    simp only [ne_eq, not_true_eq_false, if_false, run_bind_ok, run_liftM_ok, run_pure_ok]
    exact ⟨hash, r3, third, size, r4, fourth, bitmap, r5, fifth, _, _, ⟨named, rfl⟩, count, r6,
      sixth, _, _, seventh, rfl, rfl⟩

theorem parsePcrRead_ok {payload : Bytes} {returned : List UInt8} {digests : List Bytes}
    : parsePcrRead payload = .ok (returned, digests)
      ↔ ∃ after, readPcrRead.run (.new payload) = .ok ((returned, digests), after) := by
  rw [parsePcrRead]
  cases readPcrRead.run (.new payload) with
  | error e => simp [Except.map]
  | ok taken =>
      obtain ⟨round, after⟩ := taken
      simp [Except.map]

/-- A response with one selection, of this bitmap, and these digests. -/
def pcrReadPayload (counter : UInt32) (hash : UInt16) (bitmap : Bytes) (digests : List Bytes)
    : Bytes :=
  putU32 counter ++ putU32 1 ++ putU16 hash ++ [UInt8.ofNat bitmap.length] ++ bitmap
    ++ putU32 (UInt32.ofNat digests.length) ++ digests.flatMap putTpm2b

/-- By induction on the digests. -/
theorem length_putTpm2b {digests : List Bytes} (short : ∀ d ∈ digests, d.length < 65536)
    : (digests.flatMap putTpm2b).length ≤ digests.length * 65537 := by
  induction digests with
  | nil => simp
  | cons first rest ih =>
      obtain ⟨here, others⟩ := List.forall_mem_cons.mp short
      have later := ih others
      have size : (putTpm2b first).length = 2 + first.length := by
        simp [putTpm2b, putU16]
        omega
      rw [List.flatMap_cons, List.length_append, size, List.length_cons]
      omega

/-- A response is read as the registers of its bitmap and the digests it was written for. -/
theorem parsePcrRead_payload {counter : UInt32} {hash : UInt16} {bitmap : Bytes}
    {digests : List Bytes} (size : bitmap.length < 256) (count : digests.length < 2 ^ 32)
    (short : ∀ d ∈ digests, d.length < 65536) (within : ∀ n ∈ setPositions 0 bitmap, n ≤ 23)
    : parsePcrRead (pcrReadPayload counter hash bitmap digests)
      = .ok ((setPositions 0 bitmap).map UInt8.ofNat, digests) := by
  have small : (Reader.new (pcrReadPayload counter hash bitmap digests)).buf.length < 2 ^ 64 := by
    have := length_putTpm2b short
    simp only [Reader.new, pcrReadPayload, List.length_append, putU32, putU16, List.length_cons,
      List.length_nil]
    omega
  have sized : (UInt8.ofNat bitmap.length).toNat = bitmap.length := by
    rw [UInt8.toNat_ofNat']
    omega
  have counted : (UInt32.ofNat digests.length).toNat = digests.length := by
    rw [UInt32.toNat_ofNat']
    omega
  have whole : (Reader.new (pcrReadPayload counter hash bitmap digests)).rest
      = putU32 counter ++ (putU32 1 ++ (putU16 hash ++ ([UInt8.ofNat bitmap.length]
        ++ (bitmap ++ (putU32 (UInt32.ofNat digests.length) ++ digests.flatMap putTpm2b))))) := by
    simp only [Reader.rest_new, pcrReadPayload, List.append_assoc]
  obtain ⟨r1, first, left, same1⟩ := readU32_reads counter _ _ small whole
  rw [← same1] at small
  obtain ⟨r2, second, left, same2⟩ := readU32_reads 1 _ _ small left
  rw [← same2] at small
  obtain ⟨r3, third, left, same3⟩ := readU16_reads hash _ _ small left
  rw [← same3] at small
  obtain ⟨r4, fourth, left, same4⟩ := readU8_reads _ _ _ small left
  rw [← same4] at small
  obtain ⟨r5, fifth, left, same5⟩ := readBytes_reads sized.symm _ _ small left
  rw [← same5] at small
  obtain ⟨r6, sixth, left, same6⟩ := readU32_reads _ _ _ small left
  rw [← same6] at small
  obtain ⟨after, seventh, _⟩ := readDigests_reads short r6 [] small (by rw [left, List.append_nil])
  rw [← counted] at seventh
  refine parsePcrRead_ok.mpr ⟨after, readPcrRead_ok.mpr ?_⟩
  exact ⟨counter, r1, first, r2, second, hash, r3, third, _, r4, fourth, _, r5, fifth,
    bitmapPcrs_ok.mpr ⟨within, rfl⟩, _, r6, sixth, seventh⟩

/-- A three-byte bitmap has the registers that are its set bits. -/
theorem bitmapHas_iff {first second third pcr : UInt8} (small : pcr ≤ 23)
    : bitmapHas (first, second, third) pcr = true
      ↔ pcr.toNat ∈ setPositions 0 [first, second, third] := by
  have below : pcr.toNat ≤ 23 := UInt8.le_iff_toNat_le.mp small
  have byte : pcr.toNat / 8 = 0 ∨ pcr.toNat / 8 = 1 ∨ pcr.toNat / 8 = 2 := by omega
  rw [mem_setPositions]
  rcases byte with h | h | h <;> simp [bitmapHas, h]

/-- The registers of a selection are the set bits of its bitmap. -/
theorem setPositions_foldl {indices : List UInt8} {first second third : UInt8}
    (inRange : ∀ pcr ∈ indices, pcr ≤ 23)
    (made : indices.foldl setPcrBit (0, 0, 0) = (first, second, third))
    : (∀ n ∈ setPositions 0 [first, second, third], n ≤ 23)
      ∧ (setPositions 0 [first, second, third]).map UInt8.ofNat = Sorting.sortDedup indices := by
  have within : ∀ n ∈ setPositions 0 [first, second, third], n ≤ 23 := by
    intro n member
    obtain ⟨_, bits, found, _⟩ := mem_setPositions.mp member
    have inside : n / 8 - 0 < [first, second, third].length :=
      (List.getElem?_eq_some_iff.mp found).1
    simp only [List.length_cons, List.length_nil] at inside
    omega
  have selects (pcr : UInt8) (small : pcr ≤ 23)
      : pcr.toNat ∈ setPositions 0 [first, second, third] ↔ pcr ∈ indices := by
    have unset : bitmapHas (0, 0, 0) pcr = false := by
      unfold bitmapHas
      dsimp only
      split <;> exact Nat.zero_testBit _
    rw [← bitmapHas_iff small, ← made, bitmapHas_foldl inRange small, unset]
    simp
  refine ⟨within, Sorting.eq_of_ascending (ofNat_ascending setPositions_ascending within)
    (Sorting.sortDedup_ascending indices) fun pcr => ?_⟩
  rw [mem_map_ofNat within, Sorting.mem_sortDedup]
  constructor
  · intro member
    exact (selects pcr (UInt8.le_iff_toNat_le.mpr (within _ member))).mp member
  · intro member
    exact (selects pcr (inRange pcr member)).mpr member

/-- Whatever is read names registers in range and in ascending order. -/
theorem pcrRead_ascending {payload : Bytes} {returned : List UInt8} {digests : List Bytes}
    (parsed : parsePcrRead payload = .ok (returned, digests))
    : returned.Pairwise (· < ·) ∧ ∀ pcr ∈ returned, pcr ≤ 23 := by
  obtain ⟨after, run⟩ := parsePcrRead_ok.mp parsed
  obtain ⟨_, _, _, _, _, _, _, _, _, _, _, bitmap, _, _, named, _⟩ := readPcrRead_ok.mp run
  obtain ⟨within, rfl⟩ := bitmapPcrs_ok.mp named
  refine ⟨ofNat_ascending setPositions_ascending within, fun pcr member => ?_⟩
  exact UInt8.le_iff_toNat_le.mpr (within _ ((mem_map_ofNat within).mp member))

/-- PCR_Read responses are read as what they say. What was written for a selection and a list of
digests is read as the registers sorted without repeats and those digests; so is any bitmap of
up to 255 bytes that names no register past the last one; and whatever is read at all had one
selection, names registers in range and in ascending order, and takes PCR n from bit n % 8 of
byte n / 8.
-/
theorem pcrRead_decoding
    : (∀ bank counter indices digests, (∀ pcr ∈ indices, pcr ≤ 23) → digests.length < 2 ^ 32
        → (∀ d ∈ digests, d.length < 65536)
        → parsePcrRead (putU32 counter ++ putPcrSelection bank indices
            ++ putU32 (UInt32.ofNat digests.length) ++ digests.flatMap putTpm2b)
          = .ok (Sorting.sortDedup indices, digests))
      ∧ (∀ counter hash bitmap digests, bitmap.length < 256 → digests.length < 2 ^ 32
        → (∀ d ∈ digests, d.length < 65536)
        → (∀ n bits, bitmap[n / 8]? = some bits → bits.toNat.testBit (n % 8) = true → n ≤ 23)
        → ∃ returned, parsePcrRead (pcrReadPayload counter hash bitmap digests)
          = .ok (returned, digests))
      ∧ ∀ payload returned digests, parsePcrRead payload = .ok (returned, digests)
        → returned.Pairwise (· < ·)
          ∧ (∀ pcr ∈ returned, pcr ≤ 23)
          ∧ ∃ counter hash size bitmap rest,
            payload = putU32 counter ++ putU32 1 ++ putU16 hash ++ [size] ++ bitmap ++ rest
            ∧ bitmap.length = size.toNat
            ∧ ∀ n, (∃ bits, bitmap[n / 8]? = some bits ∧ bits.toNat.testBit (n % 8) = true)
              ↔ ∃ pcr ∈ returned, pcr.toNat = n := by
  refine ⟨?_, ?_, ?_⟩
  · intro bank counter indices digests inRange count short
    obtain ⟨⟨first, second, third⟩, made⟩ : ∃ bitmap, indices.foldl setPcrBit (0, 0, 0) = bitmap :=
      ⟨_, rfl⟩
    obtain ⟨within, sorted⟩ := setPositions_foldl inRange made
    have written : putU32 counter ++ putPcrSelection bank indices
        ++ putU32 (UInt32.ofNat digests.length) ++ digests.flatMap putTpm2b
        = pcrReadPayload counter bank.id [first, second, third] digests := by
      simp only [pcrReadPayload, putPcrSelection, made, List.append_assoc]
      rfl
    rw [written, parsePcrRead_payload (by simp) count short within, sorted]
  · intro counter hash bitmap digests size count short within
    refine ⟨_, parsePcrRead_payload size count short fun n member => ?_⟩
    obtain ⟨_, bits, found, set⟩ := mem_setPositions.mp member
    exact within n bits (by simpa using found) set
  · intro payload returned digests parsed
    obtain ⟨after, run⟩ := parsePcrRead_ok.mp parsed
    obtain ⟨counter, r1, first, r2, second, hash, r3, third, size, r4, fourth, bitmap, r5, fifth,
      named, _⟩ := readPcrRead_ok.mp run
    obtain ⟨within, rfl⟩ := bitmapPcrs_ok.mp named
    have layout : payload = putU32 counter ++ putU32 1 ++ putU16 hash ++ [size] ++ bitmap.toList
        ++ r5.rest := by
      have whole := (readU32_took first).1
      rw [Reader.rest_new, (readU32_took second).1, (readU16_took third).1, (readU8_took fourth).1,
        (readBytes_took fifth).1] at whole
      simpa only [List.append_assoc] using whole
    obtain ⟨ascending, inRange⟩ := pcrRead_ascending parsed
    refine ⟨ascending, inRange, counter, hash, size, bitmap.toList, r5.rest, layout,
      bitmap.toList_length, fun n => ?_⟩
    · have position : (∃ bits, bitmap.toList[n / 8]? = some bits
          ∧ bits.toNat.testBit (n % 8) = true) ↔ n ∈ setPositions 0 bitmap.toList := by
        simp [mem_setPositions]
      rw [position]
      constructor
      · intro member
        have small := within n member
        have same : (UInt8.ofNat n).toNat = n := by
          rw [UInt8.toNat_ofNat']
          omega
        exact ⟨UInt8.ofNat n, (mem_map_ofNat within).mpr (same.symm ▸ member), same⟩
      · rintro ⟨pcr, member, rfl⟩
        exact (mem_map_ofNat within).mp member

end Tpm2Autoenroll.Tpm2
