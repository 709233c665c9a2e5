import Tpm2Autoenroll.Serving.Scenes
import Tpm2Autoenroll.Surroundings.Selections
import Tpm2Autoenroll.Surroundings.Tokens

/-! Token fields of the wrong kind. A hash or a list of registers of the wrong kind is an error,
but a PIN flag or a bank of the wrong kind counts as one that is not there.
-/

namespace Tpm2Autoenroll.Token

open Json (Value)
open Tpm2 (Bank)

-----------------------------------------------------------------------------------------
-- What is not read
-----------------------------------------------------------------------------------------

/-- The member has no index for its key, or is broken. -/
def Unreadable (member : String × Value) : Prop :=
  Text.parseU32 member.1 = none ∨ ∃ fields, member.2 = .object fields ∧ Broken fields

theorem exists_readAs {member : String × Value} (tpm2 : isTpm2 member.2 = true)
    : (∃ read, ReadAs member read) ↔ ¬ Unreadable member := by
  obtain ⟨key, value⟩ := member
  obtain ⟨fields, rfl, _⟩ := isTpm2_iff.mp tpm2
  simp only [Unreadable, not_or, Value.object.injEq, exists_eq_left']
  constructor
  · rintro ⟨read, keyed, parsed⟩
    exact ⟨by simp [keyed], exists_token.mp ⟨read, parsed⟩⟩
  · rintro ⟨keyed, sound⟩
    obtain ⟨index, keyed⟩ := Option.ne_none_iff_exists'.mp keyed
    obtain ⟨read, parsed⟩ := exists_token.mpr sound
    exact ⟨read, .of_token keyed parsed⟩

/-- A header is not read when one of its systemd-tpm2 entries is not. -/
theorem parse_error {fromStr : Json.Reader} {json : String} {root : Value} {entries : Json.Map}
    (reads : fromStr json = .ok root) (listing : root.get "tokens" = some (.object entries))
    : (∃ e, parse fromStr json = .error e)
      ↔ ∃ member ∈ entries, isTpm2 member.2 = true ∧ Unreadable member := by
  have failed : (∃ e, parse fromStr json = .error e) ↔ ¬ ∃ tokens, parse fromStr json = .ok tokens
      := by
    cases parse fromStr json <;> simp
  rw [failed, not_iff_comm]
  push Not
  constructor
  · intro sound
    obtain ⟨order, related⟩ := exists_forall₂ fun member inside =>
      have ⟨among, tpm2⟩ := List.mem_filter.mp inside
      (exists_readAs tpm2).mpr (sound member among tpm2)
    exact ⟨_, (parse_entries reads listing).mpr ⟨order, related, rfl⟩⟩
  · rintro ⟨tokens, parsed⟩ member among tpm2
    obtain ⟨order, related, _⟩ := (parse_entries reads listing).mp parsed
    obtain ⟨token, _, readAs⟩ := exists_related related (List.mem_filter.mpr ⟨among, tpm2⟩)
    exact (exists_readAs tpm2).mp ⟨token, readAs⟩

-----------------------------------------------------------------------------------------
-- What is refused
-----------------------------------------------------------------------------------------

/-- The preflight refuses the token, whatever is configured. -/
def Refused (token : Tpm2Token) : Prop :=
  (Preflight.tokenRefusal token).isSome = true
  ∨ ∀ config : Volume, ∃ e, Preflight.sameSelection token config = .error e

/-- There is a PIN flag that is not a boolean, or a bank that is not a string. -/
def Malformed (fields : Json.Map) : Prop :=
  (∃ value, fields.get "tpm2-pin" = some value ∧ ∀ b, value ≠ .bool b)
  ∨ ∃ value, fields.get "tpm2-pcr-bank" = some value ∧ ∀ name, value ≠ .string name

/-- The fields hold a reason to refuse them that does not come from a malformed one. -/
def Deterring (fields : Json.Map) : Prop :=
  (∃ key ∈ fields.keys, Extra key ∨ key = "tpm2_salt")
  ∨ fields.get "tpm2-pin" = some (.bool true)
  ∨ (∃ name, fields.get "tpm2-pcr-bank" = some (.string name) ∧ Bank.fromName name = none)
  ∨ fields.get "tpm2-pcrs" = none
  ∨ fields.get "tpm2-pcrs" = some (.array [])

theorem tokenRefusal_isSome {token : Tpm2Token}
    : (Preflight.tokenRefusal token).isSome = true
      ↔ token.pin = true ∨ token.advanced.isSome = true := by
  rw [Preflight.tokenRefusal]
  split_ifs with pin <;> simp [pin]

theorem sameSelection_error {token : Tpm2Token} {config : Volume}
    : (∃ e, Preflight.sameSelection token config = .error e)
      ↔ ¬ (token.pcrs = config.pcrs.list ∧ token.bank.getD "sha256" = config.bank.name) := by
  rw [← Preflight.sameSelection_ok]
  cases Preflight.sameSelection token config with
  | error e => simp
  | ok => simp

/-- A bank is known by one name. -/
theorem name_of_fromName {name : String} {bank : Bank} (named : Bank.fromName name = some bank)
    : name = bank.name := by
  unfold Bank.fromName at named
  split_ifs at named with sha1 sha256 sha384 sha512 <;>
    · cases named
      assumption

/-- Every selection and every bank can be configured. -/
theorem exists_config {token : Tpm2Token} (ascending : token.pcrs.Pairwise (· < ·))
    (inRange : ∀ pcr ∈ token.pcrs, pcr ≤ 23)
    : (∀ config : Volume, ∃ e, Preflight.sameSelection token config = .error e)
      ↔ token.pcrs = [] ∨ Bank.fromName (token.bank.getD "sha256") = none := by
  simp only [sameSelection_error]
  constructor
  · intro refused
    by_contra possible
    obtain ⟨nonempty, known⟩ := not_or.mp possible
    obtain ⟨bank, named⟩ := Option.ne_none_iff_exists'.mp known
    exact refused
      ⟨"root", "/dev/vda2", "auto", ⟨token.pcrs, ascending, inRange, nonempty⟩, bank⟩
      ⟨rfl, name_of_fromName named⟩
  · rintro (empty | unknown) config ⟨pcrs, bank⟩
    · exact config.pcrs.nonempty (pcrs.symm.trans empty)
    · rw [bank, Cryptenroll.fromName_name] at unknown
      cases unknown

/-- Exactly a token of such fields is refused. -/
theorem refused_iff {index : UInt32} {fields : Json.Map} {read : Tpm2Token}
    (parsed : token index (.object fields) = .ok read)
    : Refused read ↔ Deterring fields := by
  obtain ⟨pcrs, value, hash, registers, _, _, same⟩ := token_ok.mp parsed
  have listed : read.pcrs = sortDedup (pcrs.getD []) := by rw [same]
  have ascending : read.pcrs.Pairwise (· < ·) := listed ▸ Sorting.sortDedup_ascending _
  have inRange : ∀ pcr ∈ read.pcrs, pcr ≤ 23 := by
    intro pcr member
    rw [listed] at member
    have among : pcr ∈ pcrs.getD [] := Sorting.mem_sortDedup.mp member
    generalize fields.get "tpm2-pcrs" = stored at registers
    cases registers with
    | none => cases among
    | some registers => exact registers.2 pcr among
  have unbound : read.pcrs = []
      ↔ fields.get "tpm2-pcrs" = none ∨ fields.get "tpm2-pcrs" = some (.array []) := by
    rw [listed]
    refine Sorting.sortDedup_eq_nil.trans ?_
    generalize fields.get "tpm2-pcrs" = stored at registers
    cases registers with
    | none => simp
    | some registers => simp [registers.1]
  have bank : Bank.fromName (read.bank.getD "sha256") = none
      ↔ ∃ name, fields.get "tpm2-pcr-bank" = some (.string name) ∧ Bank.fromName name = none := by
    have default : Bank.fromName "sha256" = some Bank.sha256 := rfl
    have held : read.bank = (fields.get "tpm2-pcr-bank").bind Value.asStr := by rw [same]
    rw [held]
    cases fields.get "tpm2-pcr-bank" with
    | none => simp [default]
    | some value => cases value <;> simp [Value.asStr, default]
  have pin : read.pin = true
      ↔ fields.get "tpm2-pin" = some (.bool true) ∨ "tpm2_salt" ∈ fields.keys := by
    have flag : ((fields.get "tpm2-pin").bind Value.asBool).getD false = true
        ↔ fields.get "tpm2-pin" = some (.bool true) := by
      cases fields.get "tpm2-pin" with
      | none => simp
      | some value => cases value <;> simp [Value.asBool]
    have salt : (fields.get "tpm2_salt").isSome = true ↔ "tpm2_salt" ∈ fields.keys :=
      Json.Map.containsKey_iff
    rw [same, Bool.or_eq_true, flag, salt]
  have advanced : read.advanced.isSome = true ↔ ∃ key ∈ fields.keys, Extra key := by
    rw [same]
    exact advanced_isSome
  have extra : (∃ key ∈ fields.keys, Extra key ∨ key = "tpm2_salt")
      ↔ (∃ key ∈ fields.keys, Extra key) ∨ "tpm2_salt" ∈ fields.keys := by
    simp [and_or_left, exists_or]
  rw [Refused, Deterring, tokenRefusal_isSome, exists_config ascending inRange, pin, advanced,
    unbound, bank, extra]
  simp only [or_assoc, or_comm, or_left_comm]

/-- A header in which a systemd-tpm2 entry has a field of the wrong kind is not read, or the entry
is refused: this holds of an entry exactly when the wrong field is not there after all, when an
entry of the header is not read, or when the entry holds another reason to refuse it.
-/
theorem malformed_fields {fromStr : Json.Reader} {json : String} {root : Value}
    {entries fields : Json.Map} {key : String} (reads : fromStr json = .ok root)
    (listing : root.get "tokens" = some (.object entries))
    (member : (key, .object fields) ∈ entries)
    (type : fields.get "type" = some (.string "systemd-tpm2"))
    : (Malformed fields
        → (∃ e, parse fromStr json = .error e)
          ∨ ∀ read, ReadAs (key, .object fields) read → Refused read)
      ↔ ¬ Malformed fields
        ∨ (∃ other ∈ entries, isTpm2 other.2 = true ∧ Unreadable other)
        ∨ Deterring fields := by
  have tpm2 : isTpm2 (.object fields) = true := isTpm2_iff.mpr ⟨fields, rfl, type⟩
  rw [imp_iff_not_or, parse_error reads listing]
  refine or_congr_right (or_congr_right' fun readable => ?_)
  constructor
  · intro refused
    have sound : ¬ Unreadable (key, .object fields) := fun unread =>
      readable ⟨_, member, tpm2, unread⟩
    obtain ⟨read, readAs⟩ := (exists_readAs tpm2).mpr sound
    exact (refused_iff readAs.2).mp (refused read readAs)
  · intro deterring read readAs
    exact (refused_iff readAs.2).mpr deterring

-----------------------------------------------------------------------------------------
-- A flag and a bank of the wrong kind
-----------------------------------------------------------------------------------------

section WrongKinds

/-- The fields of an entry with numbers for the PIN flag and for the bank, and these besides. -/
private def wrongKinds (more : Json.Map) : Json.Map :=
  [("tpm2-pcr-bank", .number (.posInt 5)), ("tpm2-pcrs", .array [.number (.posInt 11)]),
    ("tpm2-pin", .number (.posInt 1)), ("tpm2-policy-hash", .string "00"),
    ("type", .string "systemd-tpm2")] ++ more

private theorem wrongKinds_malformed (more : Json.Map) : Malformed (wrongKinds more) :=
  Or.inl ⟨.number (.posInt 1), rfl, fun b same => by cases same⟩

/-- The header of such an entry, and what it denotes. -/
private def wrongHeader (more : String) : String :=
  "\x7b\"tokens\":\x7b\"0\":\x7b\"tpm2-pcr-bank\":5,\"tpm2-pcrs\":[11],\"tpm2-pin\":1,"
    ++ "\"tpm2-policy-hash\":\"00\",\"type\":\"systemd-tpm2\"" ++ more ++ "\x7d\x7d\x7d"

private def wrongValue (more : Json.Map) : Value :=
  .object [("tokens", .object [("0", .object (wrongKinds more))])]

private def reader : Json.Reader := Scene.reader [
  (wrongHeader "", wrongValue []),
  (wrongHeader ",\"tpm2_salt\":\"Zm9v\"", wrongValue [("tpm2_salt", .string "Zm9v")])]

/-- A configured volume with PCR 11 in the bank sha256. -/
private def root : Volume :=
  ⟨"root", "/dev/vda2", "auto", ⟨[11], by simp, by simp, by simp⟩, .sha256⟩

/-- A machine with that header. -/
private def wrongScene : Scene :=
  { Scene.twoVolumes "yes" (fun _ => [0xaa]) with headers := [("/dev/vda2", wrongHeader "")] }

/-- Such a header is read as one with neither, and the preflight decides to re-enroll. -/
theorem wrong_kinds_reenrolled
    : ∃ read, parse reader (wrongHeader "") = .ok [read]
        ∧ Malformed (wrongKinds [])
        ∧ ReadAs ("0", .object (wrongKinds [])) read
        ∧ ¬ Refused read
        ∧ ∃ trace plan, (Preflight.check reader "root" root ⟨5, "/dev/vda2"⟩ ⟨4⟩).Runs trace
          (some (.reenroll plan)) := by
  refine ⟨⟨0, [11], none, [0], false, none⟩, ?_, wrongKinds_malformed [], ⟨?_, ?_⟩, ?_, ?_⟩
  · decide +kernel
  · decide +kernel
  · decide +kernel
  · rintro (refused | refused)
    · cases refused
    · obtain ⟨e, failed⟩ := refused root
      cases failed
  · have outcome : ((Preflight.check reader "root" root ⟨5, "/dev/vda2"⟩ ⟨4⟩).drive
        Scene.machine wrongScene).outcome = some (.reenroll ⟨some 0, [0], [0xaa]⟩) := by
      decide +kernel
    exact ⟨_, _, outcome ▸ Interaction.Prog.runs_drive _ wrongScene⟩

/-- With a salt besides, the entry is refused. -/
theorem malformed_fields_salted
    : (∃ e, parse reader (wrongHeader ",\"tpm2_salt\":\"Zm9v\"") = .error e)
      ∨ ∀ read, ReadAs ("0", .object (wrongKinds [("tpm2_salt", .string "Zm9v")])) read
        → Refused read := by
  have reads : reader (wrongHeader ",\"tpm2_salt\":\"Zm9v\"")
      = .ok (wrongValue [("tpm2_salt", .string "Zm9v")]) := by
    have other : wrongHeader "" ≠ wrongHeader ",\"tpm2_salt\":\"Zm9v\"" := by decide +kernel
    simp [reader, Scene.reader, other]
  refine (malformed_fields reads rfl (List.mem_singleton.mpr rfl) rfl).mpr ?_
    (wrongKinds_malformed _)
  exact Or.inr (Or.inr (Or.inl ⟨"tpm2_salt", by decide, Or.inr rfl⟩))

end WrongKinds

end Tpm2Autoenroll.Token
