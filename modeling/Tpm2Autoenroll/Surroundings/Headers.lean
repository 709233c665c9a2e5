import Tpm2Autoenroll.Surroundings.Selections
import Tpm2Autoenroll.Surroundings.Tokens

/-! LUKS2 headers as systemd-cryptenroll leaves them, and what the daemon reads from them.
-/

namespace Tpm2Autoenroll

open Json (Value)
open Text (Bytes)
open Token (Tpm2Token)
open Tpm2 (Bank)

-----------------------------------------------------------------------------------------
-- What systemd-cryptenroll writes
-----------------------------------------------------------------------------------------

namespace Cryptenroll

/-- `hexmem`: two lower-case digits for each byte. -/
def hex (bytes : Bytes) : String := String.ofList (bytes.flatMap Text.hexByte)

/-- The fields of a token that is bound to a literal PCR policy and to nothing else. -/
def literalKeys : List String :=
  ["type", "keyslots", "tpm2-blob", "tpm2-pcrs", "tpm2-pcr-bank", "tpm2-primary-alg",
    "tpm2-policy-hash", "tpm2_srk"]

/-- systemd's JSON for such a token. -/
structure Rendered (pcrs : List UInt8) (bank : Bank) (hash : Bytes) (fields : Json.Map)
    : Prop where
  literal : ∀ key ∈ fields.keys, key ∈ literalKeys
  type : fields.get "type" = some (.string "systemd-tpm2")
  pcrs : fields.get "tpm2-pcrs"
    = some (.array (pcrs.map fun pcr => .number (.posInt pcr.toUInt64)))
  bank : fields.get "tpm2-pcr-bank" = some (.string bank.name)
  hash : fields.get "tpm2-policy-hash" = some (.string (hex hash))
    ∨ fields.get "tpm2-policy-hash" = some (.array [.string (hex hash)])

/-- The token that is read from it. -/
def literalToken (index : UInt32) (pcrs : List UInt8) (bank : Bank) (hash : Bytes)
    : Tpm2Token where
  index
  pcrs
  bank := some bank.name
  policyHash := hash
  pin := false
  advanced := none

/-- What becomes of a header: one new token at an index that was not in use, sealed to what the
command line selects, and of the tokens there were before at most some.
-/
def Enrolls (args : List String) (policy : Bank → List UInt8 → Bytes) (before after : Value)
    : Prop :=
  ∃ pcrs bank index fields,
    selection args = some (pcrs, bank)
    ∧ Rendered pcrs bank (policy bank pcrs) fields
    ∧ (∀ member ∈ Token.members before, Text.parseU32 member.1 ≠ some index)
    ∧ (Token.members after).keys.Nodup
    ∧ (toString index.toNat, .object fields) ∈ Token.members after
    ∧ ∀ member ∈ Token.members after, Token.isTpm2 member.2 = true
      → member = (toString index.toNat, .object fields) ∨ member ∈ Token.members before

-----------------------------------------------------------------------------------------
-- Reading it back
-----------------------------------------------------------------------------------------

/-- Digits in lower case stay as they are, by induction on the bytes. -/
theorem toLower_hex (bytes : Bytes)
    : (hex bytes).toList.map Char.toLower = bytes.flatMap Text.hexByte := by
  have all : ∀ n < 256, (Text.hexByte (UInt8.ofNat n)).map Char.toLower
      = Text.hexByte (UInt8.ofNat n) := by
    decide +kernel
  rw [hex, String.toList_ofList, List.map_flatMap]
  refine List.flatMap_congr fun b _ => ?_
  have this := all b.toNat b.toNat_lt
  rwa [UInt8.ofNat_toNat] at this

/-- The daemon reads systemd's token as the literal token it is. -/
theorem token_rendered {index : UInt32} {pcrs : List UInt8} {bank : Bank} {hash : Bytes}
    {fields : Json.Map} (ascending : pcrs.Pairwise (· < ·)) (inRange : ∀ pcr ∈ pcrs, pcr ≤ 23)
    (rendered : Rendered pcrs bank hash fields)
    : Token.token index (.object fields) = .ok (literalToken index pcrs bank hash) := by
  have absent (key : String) (other : key ∉ literalKeys) : fields.get key = none := by
    cases found : fields.get key with
    | none => rfl
    | some value =>
        have member := Json.Map.mem_of_get found
        exact absurd (rendered.literal key (List.mem_map_of_mem member)) other
  have shard : ∃ value, fields.get "tpm2-policy-hash" = some value ∧ Token.Shard value hash := by
    rcases rendered.hash with found | found
    · exact ⟨_, found, hex hash, toLower_hex hash, Or.inl rfl⟩
    · exact ⟨_, found, hex hash, toLower_hex hash, Or.inr rfl⟩
  have renders : Token.Renders ⟨some pcrs, some bank.name, hash, none, false⟩ fields := {
    type := rendered.type
    pcrs := rendered.pcrs ▸ .some ⟨rfl, inRange⟩
    bank := rendered.bank
    hash := shard
    pin := absent "tpm2-pin" (by decide)
    salted := by rw [absent "tpm2_salt" (by decide)]; rfl
  }
  have plain : ∀ key ∈ literalKeys, ¬ Token.Extra key := by
    decide
  have literal : Token.advanced (.object fields) = none := by
    rw [← Option.not_isSome_iff_eq_none, Token.advanced_isSome]
    rintro ⟨key, member, extra⟩
    exact plain key (rendered.literal key member) extra
  rw [renders.token, literal]
  simp [literalToken, Token.sortDedup_of_ascending ascending]

/-- A new member is systemd-tpm2 and is read as the literal token. -/
theorem readAs_rendered {index : UInt32} {pcrs : List UInt8} {bank : Bank} {hash : Bytes}
    {fields : Json.Map} {read : Tpm2Token} (ascending : pcrs.Pairwise (· < ·))
    (inRange : ∀ pcr ∈ pcrs, pcr ≤ 23) (rendered : Rendered pcrs bank hash fields)
    (readAs : Token.ReadAs (toString index.toNat, .object fields) read)
    : read = literalToken index pcrs bank hash := by
  obtain ⟨parsed, same⟩ := readAs
  have at_index : index = read.index :=
    Option.some.inj ((Text.parseU32_toString index).symm.trans parsed)
  rw [← at_index, token_rendered ascending inRange rendered] at same
  simpa using same.symm

/-- One member with distinct keys among members that all have its key is all of them. -/
theorem eq_singleton_of_keys {listed : Json.Map} {member : String × Value}
    (distinct : (listed.map Prod.fst).Nodup) (keyed : ∀ other ∈ listed, other.1 = member.1)
    (among : member ∈ listed)
    : listed = [member] := by
  match listed, among with
  | [only], among => rw [List.mem_singleton.mp among]
  | first :: second :: rest, _ =>
      have clash : first.1 = second.1 :=
        (keyed first (by simp)).trans (keyed second (by simp)).symm
      simp [clash] at distinct

variable {args : List String} {policy : Bank → List UInt8 → Bytes} {before after : Value}
  {pcrs : List UInt8} {bank : Bank}

/-- What the daemon reads after an enrollment holds the new token; if it read one token before,
the new one is the only one at another index.
-/
theorem Enrolls.read (enrolls : Enrolls args policy before after)
    (told : selection args = some (pcrs, bank))
    : ∃ index, ∀ tokens, Token.ofHeader after = .ok tokens
      → literalToken index pcrs bank (policy bank pcrs) ∈ tokens
        ∧ ∀ old, Token.ofHeader before = .ok [old]
          → Enroll.findNewToken tokens (some old.index)
            = some (literalToken index pcrs bank (policy bank pcrs)) := by
  obtain ⟨ascending, inRange⟩ := selection_valid told
  obtain ⟨pcrs', bank', index, fields, selected, rendered, unused, distinct, added, kept⟩ := enrolls
  obtain ⟨rfl, rfl⟩ : pcrs' = pcrs ∧ bank' = bank := by simpa [told, eq_comm] using selected
  have isTpm2 : Token.isTpm2 (.object fields) = true := by
    have type : (Value.object fields).get "type" = some (.string "systemd-tpm2") := rendered.type
    simp [Token.isTpm2, type, Value.asStr]
  refine ⟨index, fun tokens read => ?_⟩
  obtain ⟨listed, reads, sorted⟩ := Token.ofHeader_ok.mp read
  have perm : tokens.Perm listed := sorted ▸ List.perm_insertionSort _ listed
  have among : (toString index.toNat, Value.object fields)
      ∈ (Token.members after).filter fun member => Token.isTpm2 member.2 :=
    List.mem_filter.mpr ⟨added, isTpm2⟩
  constructor
  · obtain ⟨token, member, readAs⟩ := Token.exists_related reads among
    rw [readAs_rendered ascending inRange rendered readAs] at member
    exact perm.mem_iff.mpr member
  · intro old readBefore
    obtain ⟨listedBefore, readsBefore, sortedBefore⟩ := Token.ofHeader_ok.mp readBefore
    have permBefore : [old].Perm listedBefore :=
      sortedBefore ▸ List.perm_insertionSort _ listedBefore
    obtain rfl : listedBefore = [old] := List.perm_singleton.mp permBefore.symm
    obtain ⟨oldMember, rest, ⟨oldIndex, _⟩, nothing, oldOnly⟩ :=
      List.forall₂_cons_right_iff.mp readsBefore
    rw [List.forall₂_nil_right_iff.mp nothing] at oldOnly
    have oldAmong : oldMember ∈ Token.members before :=
      List.mem_of_mem_filter (oldOnly ▸ List.mem_cons_self)
    have fresh : index ≠ old.index := fun same => unused _ oldAmong (same ▸ oldIndex)
    -- The member under the new key is the only one that is read as a token at another index.
    have sorts : ∀ member token,
        member ∈ (Token.members after).filter (fun member => Token.isTpm2 member.2)
          ∧ Token.ReadAs member token
        → (decide (member.1 = toString index.toNat) = true
          ↔ decide (some token.index ≠ some old.index) = true) := by
      rintro member token ⟨inside, parsed, _⟩
      obtain ⟨listedAfter, tpm2⟩ := List.mem_filter.mp inside
      rcases kept member listedAfter (by simpa using tpm2) with rfl | earlier
      · have at_index : index = token.index :=
          Option.some.inj ((Text.parseU32_toString index).symm.trans parsed)
        simp [← at_index, fresh]
      · have same : member = oldMember := by
          have only : member ∈ (Token.members before).filter fun member => Token.isTpm2 member.2 :=
            List.mem_filter.mpr ⟨earlier, tpm2⟩
          rw [oldOnly] at only
          exact List.mem_singleton.mp only
        have at_old : token.index = old.index := by
          rw [same, oldIndex] at parsed
          exact (Option.some.inj parsed).symm
        have other : member.1 ≠ toString index.toNat := by
          intro clash
          exact unused member earlier (clash ▸ Text.parseU32_toString index)
        refine ⟨fun keyed => absurd (of_decide_eq_true keyed) other, fun apart => ?_⟩
        exact absurd (congrArg some at_old) (of_decide_eq_true apart)
    have both := (List.forall₂_and_left _ _).mpr ⟨fun _ inside => inside, reads⟩
    have sorted := List.rel_filter (fun {member token} related => sorts member token related) both
    have keyed : ((Token.members after).filter fun member => Token.isTpm2 member.2).filter
        (fun member => decide (member.1 = toString index.toNat))
        = [(toString index.toNat, .object fields)] := by
      refine eq_singleton_of_keys ?_ ?_ ?_
      · exact distinct.sublist ((List.filter_sublist.trans List.filter_sublist).map Prod.fst)
      · intro other inside
        simpa using (List.mem_filter.mp inside).2
      · exact List.mem_filter.mpr ⟨among, by simp⟩
    rw [keyed] at sorted
    obtain ⟨token, none, ⟨_, readAs⟩, nothing, only⟩ := List.forall₂_cons_left_iff.mp sorted
    rw [List.forall₂_nil_left_iff.mp nothing, readAs_rendered ascending inRange rendered readAs]
      at only
    have alone : (tokens.filter fun token => decide (some token.index ≠ some old.index)).Perm
        [literalToken index pcrs' bank' (policy bank' pcrs')] := by
      rw [← only]
      exact perm.filter _
    rw [Enroll.findNewToken, List.perm_singleton.mp alone]

end Cryptenroll

end Tpm2Autoenroll
