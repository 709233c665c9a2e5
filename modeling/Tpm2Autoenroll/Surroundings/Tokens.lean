import Mathlib.Data.List.Forall2
import Tpm2Autoenroll.Model.Repair
import Tpm2Autoenroll.Surroundings.Digits

/-! Which headers are read, and as which tokens: every systemd-tpm2 entry as the enrollment that
systemd wrote there, or none of them.
-/

namespace Tpm2Autoenroll.Token

open Json (Value)
open Text (Bytes)

-----------------------------------------------------------------------------------------
-- Tokens
-----------------------------------------------------------------------------------------

/-- The keys of an enrollment that is bound to nothing but registers and a PIN. -/
def plainKeys : List String :=
  ["type", "keyslots", "tpm2-blob", "tpm2-pcrs", "tpm2-pcr-bank", "tpm2-primary-alg",
    "tpm2-policy-hash", "tpm2-pin", "tpm2_salt", "tpm2_srk"]

/-- The keys of a signed policy and of a pcrlock policy. -/
def policyKeys : List String :=
  ["tpm2_pubkey", "tpm2_pubkey_pcrs", "tpm2_pcrlock", "tpm2_pcrlock_nv"]

/-- A policy key, or one that systemd is not known to write. -/
def Extra (key : String) : Prop := key ∈ policyKeys ∨ key ∉ plainKeys ++ policyKeys

instance (key : String) : Decidable (Extra key) := inferInstanceAs (Decidable (_ ∨ _))

/-- A policy counts as advanced exactly when there is such a key. -/
theorem advanced_isSome {fields : Json.Map}
    : (advanced (.object fields)).isSome = true ↔ ∃ key ∈ fields.keys, Extra key := by
  have known (key : String) : key ∈ knownKeys ↔ key ∈ plainKeys ++ policyKeys := by
    simp only [knownKeys, plainKeys, policyKeys, List.cons_append, List.nil_append, List.mem_cons]
    tauto
  simp only [advanced, Value.asObject]
  cases unknown : fields.keys.find? fun key => !knownKeys.contains key with
  | some key =>
      have member := List.mem_of_find?_eq_some unknown
      have unlisted : key ∉ knownKeys := by simpa using List.find?_some unknown
      rw [known] at unlisted
      simpa using ⟨key, member, Or.inr unlisted⟩
  | none =>
      have all : ∀ key ∈ fields.keys, key ∈ plainKeys ++ policyKeys := by
        simpa [← known] using unknown
      have extra : (∃ key ∈ fields.keys, Extra key) ↔ ∃ key ∈ policyKeys, key ∈ fields.keys := by
        constructor
        · rintro ⟨key, member, policy | other⟩
          · exact ⟨key, policy, member⟩
          · exact absurd (all key member) other
        · rintro ⟨key, policy, member⟩
          exact ⟨key, member, Or.inl policy⟩
      rw [extra]
      simp only [policyKeys, List.mem_cons, List.not_mem_nil, or_false, exists_eq_or_imp,
        exists_eq_left, Bool.or_eq_true, Json.Map.containsKey_iff]
      split_ifs with signed locked
      · simp only [Option.isSome_some, true_iff]
        tauto
      · simp only [Option.isSome_some, true_iff]
        tauto
      · simp only [Option.isSome_none, Bool.false_eq_true, false_iff]
        tauto

/-- A sequence succeeds exactly when both of its parts do. -/
theorem bind_ok {ε α β : Type} {first : Except ε α} {next : α → Except ε β} {result : β}
    : (first >>= next) = .ok result ↔ ∃ value, first = .ok value ∧ next value = .ok result := by
  cases first <;> simp [bind, Except.bind]

/-- What it takes to read a token, and what it is read as. -/
theorem token_ok {index : UInt32} {fields : Json.Map} {read : Tpm2Token}
    : token index (.object fields) = .ok read
      ↔ ∃ pcrs value hash, Option.Rel Registers (fields.get "tpm2-pcrs") pcrs
        ∧ fields.get "tpm2-policy-hash" = some value ∧ Shard value hash
        ∧ read = {
          index
          pcrs := sortDedup (pcrs.getD [])
          bank := (fields.get "tpm2-pcr-bank").bind Value.asStr
          policyHash := hash
          pin := ((fields.get "tpm2-pin").bind Value.asBool).getD false
            || (fields.get "tpm2_salt").isSome
          advanced := advanced (.object fields)
        } := by
  have get (key : String) : Value.get (.object fields) key = fields.get key := rfl
  simp only [token, get]
  cases fields.get "tpm2-pcrs" <;> cases fields.get "tpm2-policy-hash" <;>
    simp only [bind_ok, pcrList_ok, singleShard_ok]
  case none.none | some.none =>
    constructor
    · rintro ⟨_, _, _, ⟨⟩, _⟩
    · rintro ⟨_, _, _, _, ⟨⟩, _⟩
  case none.some =>
    constructor
    · rintro ⟨_, ⟨⟩, hash, shard, ⟨⟩⟩
      exact ⟨none, _, hash, .none, rfl, shard, rfl⟩
    · rintro ⟨_, _, hash, ⟨⟩, ⟨⟩, shard, rfl⟩
      exact ⟨[], rfl, hash, shard, rfl⟩
  case some.some =>
    constructor
    · rintro ⟨_, ⟨pcrs, registers, rfl⟩, hash, shard, ⟨⟩⟩
      exact ⟨some pcrs, _, hash, .some registers, rfl, shard, rfl⟩
    · rintro ⟨_, _, hash, ⟨registers⟩, ⟨⟩, shard, rfl⟩
      exact ⟨_, ⟨_, registers, rfl⟩, hash, shard, rfl⟩

-----------------------------------------------------------------------------------------
-- Headers
-----------------------------------------------------------------------------------------

/-- The members of a header's "tokens". -/
def members (header : Value) : Json.Map := ((header.get "tokens").bind Value.asObject).getD []

/-- A member of "tokens" and the token it is read as. -/
def ReadAs (member : String × Value) (read : Tpm2Token) : Prop :=
  Text.parseU32 member.1 = some read.index ∧ token read.index member.2 = .ok read

theorem isTpm2_iff {value : Value}
    : isTpm2 value = true
      ↔ ∃ fields : Json.Map, value = .object fields
        ∧ fields.get "type" = some (.string "systemd-tpm2") := by
  cases value with
  | object fields =>
      have same : (Value.object fields).get "type" = Json.Map.get fields "type" := rfl
      simp only [isTpm2, same, Value.object.injEq, exists_eq_left']
      cases Json.Map.get fields "type" with
      | none => simp
      | some type => cases type <;> simp [Value.asStr]
  | _ => simp [isTpm2, Value.get, Value.asObject]

/-- A token keeps the index it is read for. -/
theorem token_index {index : UInt32} {value : Value} {read : Tpm2Token}
    (parsed : token index value = .ok read)
    : read.index = index := by
  simp only [token, bind, Except.bind] at parsed
  repeat' split at parsed
  all_goals cases parsed <;> rfl

theorem ReadAs.of_token {key : String} {value : Value} {index : UInt32} {read : Tpm2Token}
    (keyed : Text.parseU32 key = some index) (parsed : token index value = .ok read)
    : ReadAs (key, value) read := by
  rw [← token_index parsed] at keyed parsed
  exact ⟨keyed, parsed⟩

/-- Exactly the systemd-tpm2 members are read, each and in order; by induction on the members. -/
theorem collectTokens_ok {listed : Json.Map} {tokens : List Tpm2Token}
    : collectTokens listed = .ok tokens
      ↔ List.Forall₂ ReadAs (listed.filter fun member => isTpm2 member.2) tokens := by
  induction listed generalizing tokens with
  | nil =>
      rw [List.filter_nil, List.forall₂_nil_left_iff]
      simp [collectTokens, eq_comm]
  | cons member rest ih =>
      obtain ⟨key, value⟩ := member
      by_cases tpm2 : isTpm2 value = true
      · rw [List.filter_cons_of_pos (by simpa using tpm2), List.forall₂_cons_left_iff]
        simp only [collectTokens, tpm2, Bool.not_true, Bool.false_eq_true, if_false]
        cases parsed : Text.parseU32 key with
        | none =>
            simp [ReadAs, parsed, throw, throwThe, MonadExceptOf.throw]
        | some index =>
            simp only [bind_ok, ih]
            constructor
            · rintro ⟨first, read, others, later, ⟨⟩⟩
              exact ⟨first, others, .of_token parsed read, later, rfl⟩
            · rintro ⟨first, others, ⟨keyed, read⟩, later, rfl⟩
              obtain rfl := Option.some.inj (parsed.symm.trans keyed)
              exact ⟨first, read, others, later, rfl⟩
      · rw [List.filter_cons_of_neg (by simpa using tpm2), ← ih]
        simp [collectTokens, tpm2]

/-- What is read from a header is what its systemd-tpm2 members are read as, by index. -/
theorem ofHeader_ok {header : Value} {tokens : List Tpm2Token}
    : ofHeader header = .ok tokens
      ↔ ∃ listed, List.Forall₂ ReadAs ((members header).filter fun member => isTpm2 member.2) listed
        ∧ tokens = listed.insertionSort fun a b => a.index ≤ b.index := by
  unfold ofHeader members
  cases (header.get "tokens").bind Value.asObject with
  | none => simp [eq_comm]
  | some listed =>
      simp only [Option.getD_some, ← collectTokens_ok]
      cases collectTokens listed <;> simp [Except.map, eq_comm]

/-- What is read from the text of a header with these entries. -/
theorem parse_entries {fromStr : Json.Reader} {json : String} {root : Value} {entries : Json.Map}
    {tokens : List Tpm2Token} (reads : fromStr json = .ok root)
    (listing : root.get "tokens" = some (.object entries))
    : parse fromStr json = .ok tokens
      ↔ ∃ order, List.Forall₂ ReadAs (entries.filter fun member => isTpm2 member.2) order
        ∧ tokens = order.insertionSort fun a b => a.index ≤ b.index := by
  have listed : members root = entries := by simp [members, listing, Value.asObject]
  rw [parse, bind_ok]
  simp [reads, Except.mapError, ofHeader_ok, listed]

section Related

variable {α β : Type} {R : α → β → Prop}

/-- What a member is related to, by induction on the lists. -/
theorem exists_related {left : List α} {right : List β} (related : List.Forall₂ R left right)
    {a : α} (member : a ∈ left)
    : ∃ b ∈ right, R a b := by
  induction related with
  | nil => cases member
  | cons first _ ih =>
      rcases List.mem_cons.mp member with rfl | member
      · exact ⟨_, List.mem_cons_self, first⟩
      · obtain ⟨b, inside, here⟩ := ih member
        exact ⟨b, List.mem_cons_of_mem _ inside, here⟩

/-- Members that are all related to something, by induction on them. -/
theorem exists_forall₂ {left : List α} (each : ∀ a ∈ left, ∃ b, R a b)
    : ∃ right, List.Forall₂ R left right := by
  induction left with
  | nil => exact ⟨[], .nil⟩
  | cons a rest ih =>
      obtain ⟨⟨b, here⟩, others⟩ := List.forall_mem_cons.mp each
      obtain ⟨right, related⟩ := ih others
      exact ⟨b :: right, .cons here related⟩

end Related

-----------------------------------------------------------------------------------------
-- Enrollments
-----------------------------------------------------------------------------------------

/-- What systemd records about an enrollment. -/
structure Enrollment where
  /-- In any order and with repeats. -/
  pcrs : Option (List UInt8)
  bank : Option String
  hash : Bytes
  pin : Option Bool
  salted : Bool

/-- systemd's JSON for an enrollment. Any other fields may stand beside these. -/
structure Renders (enrollment : Enrollment) (fields : Json.Map) : Prop where
  type : fields.get "type" = some (.string "systemd-tpm2")
  pcrs : Option.Rel Registers (fields.get "tpm2-pcrs") enrollment.pcrs
  bank : fields.get "tpm2-pcr-bank" = enrollment.bank.map .string
  hash : ∃ value, fields.get "tpm2-policy-hash" = some value ∧ Shard value enrollment.hash
  pin : fields.get "tpm2-pin" = enrollment.pin.map .bool
  salted : (fields.get "tpm2_salt").isSome = enrollment.salted

/-- The token says what was recorded. -/
structure Faithful (enrollment : Enrollment) (fields : Json.Map) (read : Tpm2Token) : Prop where
  ascending : read.pcrs.Pairwise (· < ·)
  pcrs : ∀ pcr, pcr ∈ read.pcrs ↔ pcr ∈ enrollment.pcrs.getD []
  bank : read.bank = enrollment.bank
  hash : read.policyHash = enrollment.hash
  pin : read.pin = true ↔ enrollment.pin = some true ∨ enrollment.salted = true
  advanced : read.advanced.isSome = true ↔ ∃ key ∈ fields.keys, Extra key

/-- No policy hash in hexadecimal as one shard, or something else than registers where the
registers are.
-/
def Broken (fields : Json.Map) : Prop :=
  (∀ value hash, fields.get "tpm2-policy-hash" = some value → ¬ Shard value hash)
  ∨ ∃ value, fields.get "tpm2-pcrs" = some value ∧ ∀ pcrs, ¬ Registers value pcrs

/-- What is rendered is read. -/
theorem Renders.token {enrollment : Enrollment} {fields : Json.Map}
    (renders : Renders enrollment fields) (index : UInt32)
    : token index (.object fields) = .ok {
        index
        pcrs := sortDedup (enrollment.pcrs.getD [])
        bank := enrollment.bank
        policyHash := enrollment.hash
        pin := enrollment.pin.getD false || enrollment.salted
        advanced := advanced (.object fields)
      } := by
  obtain ⟨value, stored, shard⟩ := renders.hash
  refine token_ok.mpr ⟨_, value, _, renders.pcrs, stored, shard, ?_⟩
  have bank : (enrollment.bank.map Value.string).bind Value.asStr = enrollment.bank := by
    cases enrollment.bank <;> rfl
  have pin : (enrollment.pin.map Value.bool).bind Value.asBool = enrollment.pin := by
    cases enrollment.pin <;> rfl
  rw [renders.bank, renders.pin, renders.salted, bank, pin]

/-- What is read says what was rendered. -/
theorem Renders.faithful {enrollment : Enrollment} {fields : Json.Map} {index : UInt32}
    {read : Tpm2Token} (renders : Renders enrollment fields)
    (parsed : Token.token index (.object fields) = .ok read)
    : Faithful enrollment fields read := by
  rw [renders.token] at parsed
  obtain rfl := Except.ok.inj parsed
  have pin : (enrollment.pin.getD false || enrollment.salted) = true
      ↔ enrollment.pin = some true ∨ enrollment.salted = true := by
    cases enrollment.pin <;> simp
  exact {
    ascending := Sorting.sortDedup_ascending _
    pcrs := fun _ => Sorting.mem_sortDedup
    bank := rfl
    hash := rfl
    pin
    advanced := advanced_isSome
  }

/-- Exactly what is not broken is read. -/
theorem exists_token {fields : Json.Map} {index : UInt32}
    : (∃ read, token index (.object fields) = .ok read) ↔ ¬ Broken fields := by
  constructor
  · rintro ⟨read, parsed⟩ (noHash | ⟨listed, found, others⟩)
    · obtain ⟨_, value, hash, _, stored, shard, _⟩ := token_ok.mp parsed
      exact noHash value hash stored shard
    · obtain ⟨_, _, _, registers, _⟩ := token_ok.mp parsed
      rw [found] at registers
      cases registers with
      | some same => exact others _ same
  · intro sound
    obtain ⟨hashed, listed⟩ := not_or.mp sound
    push Not at hashed listed
    obtain ⟨value, hash, stored, shard⟩ := hashed
    have registers : ∃ pcrs, Option.Rel Registers (fields.get "tpm2-pcrs") pcrs := by
      cases found : fields.get "tpm2-pcrs" with
      | none => exact ⟨none, .none⟩
      | some value =>
          obtain ⟨pcrs, same⟩ := listed value found
          exact ⟨some pcrs, .some same⟩
    obtain ⟨pcrs, registers⟩ := registers
    exact ⟨_, token_ok.mpr ⟨pcrs, value, hash, registers, stored, shard, rfl⟩⟩

/-- The keys of entries are the indices of their tokens, by induction on the entries. -/
theorem keys_eq {entries : Json.Map} {listed : List Tpm2Token}
    (reads : List.Forall₂ ReadAs entries listed)
    (canonical : ∀ member ∈ entries, ∃ index : UInt32, member.1 = toString index.toNat)
    : entries.keys = listed.map fun token => toString token.index.toNat := by
  induction reads with
  | nil => rfl
  | @cons member token rest others first later ih =>
      obtain ⟨⟨index, key⟩, remaining⟩ := List.forall_mem_cons.mp canonical
      have parsed := first.1
      rw [key, Text.parseU32_toString] at parsed
      obtain rfl := Option.some.inj parsed
      rw [Json.Map.keys, List.map_cons, List.map_cons, key]
      exact congrArg _ (ih remaining)

/-- Header decoding is faithful. When the keys of the entries are distinct indices in decimal, and
every systemd-tpm2 entry renders an enrollment, then each of these is read as one token that says
what was recorded, and the tokens are in ascending order of their indices. When one
systemd-tpm2 entry is broken, nothing is read, whatever its neighbours are.
-/
theorem header_decoding (fromStr : Json.Reader) (json : String)
    : (∀ (root : Value) (entries : Json.Map), fromStr json = .ok root
        → root.get "tokens" = some (.object entries)
        → entries.keys.Nodup
        → (∀ member ∈ entries, ∃ (index : UInt32) (fields : Json.Map),
            member = (toString index.toNat, .object fields)
            ∧ (fields.get "type" = some (.string "systemd-tpm2")
              → ∃ enrollment, Renders enrollment fields))
        → ∃ tokens order, parse fromStr json = .ok tokens
          ∧ tokens.Pairwise (·.index < ·.index)
          ∧ tokens.Perm order
          ∧ List.Forall₂ (fun member token => ∃ fields : Json.Map,
              member = (toString token.index.toNat, .object fields)
              ∧ ∀ enrollment, Renders enrollment fields → Faithful enrollment fields token)
            (entries.filter fun member => isTpm2 member.2) order)
      ∧ ∀ (root : Value) (entries : Json.Map) (key : String) (fields : Json.Map),
        fromStr json = .ok root
        → root.get "tokens" = some (.object entries)
        → (key, .object fields) ∈ entries
        → fields.get "type" = some (.string "systemd-tpm2")
        → Broken fields
        → ∃ e, parse fromStr json = .error e := by
  constructor
  · intro root entries reads listing distinct each
    have readable : ∀ member ∈ entries.filter (fun member => isTpm2 member.2),
        ∃ token, ReadAs member token := by
      intro member inside
      obtain ⟨among, tpm2⟩ := List.mem_filter.mp inside
      obtain ⟨index, fields, rfl, rendered⟩ := each member among
      obtain ⟨_, same, type⟩ := isTpm2_iff.mp tpm2
      cases same
      obtain ⟨enrollment, renders⟩ := rendered type
      exact ⟨_, .of_token (Text.parseU32_toString index) (renders.token index)⟩
    obtain ⟨order, related⟩ := exists_forall₂ readable
    have canonical : ∀ member ∈ entries.filter (fun member => isTpm2 member.2),
        ∃ index : UInt32, member.1 = toString index.toNat := by
      intro member inside
      obtain ⟨index, _, rfl, _⟩ := each member (List.mem_of_mem_filter inside)
      exact ⟨index, rfl⟩
    have keys := keys_eq related canonical
    have once : (order.map Tpm2Token.index).Nodup := by
      refine List.Nodup.of_map (fun index : UInt32 => toString index.toNat) ?_
      rw [List.map_map]
      exact keys ▸ distinct.sublist (List.filter_sublist.map Prod.fst)
    have perm := List.perm_insertionSort (fun a b : Tpm2Token => a.index ≤ b.index) order
    refine ⟨_, order, (parse_entries reads listing).mpr ⟨order, related, rfl⟩, ?_, perm, ?_⟩
    · exact Sorting.ascending_insertionSort once
    · have both := (List.forall₂_and_left _ order).mpr
        ⟨fun _ inside => List.mem_of_mem_filter inside, related⟩
      refine both.imp fun member token ⟨among, keyed, read⟩ => ?_
      obtain ⟨index, fields, rfl, _⟩ := each member among
      rw [Text.parseU32_toString] at keyed
      obtain rfl := Option.some.inj keyed
      exact ⟨fields, rfl, fun enrollment renders => renders.faithful read⟩
  · intro root entries key fields reads listing member type broken
    cases parsed : parse fromStr json with
    | error e => exact ⟨e, rfl⟩
    | ok tokens =>
        exfalso
        obtain ⟨order, related, _⟩ := (parse_entries reads listing).mp parsed
        have tpm2 := isTpm2_iff.mpr ⟨fields, rfl, type⟩
        obtain ⟨token, _, _, taken⟩ :=
          exists_related related (List.mem_filter.mpr ⟨member, by simpa using tpm2⟩)
        exact exists_token.mp ⟨token, taken⟩ broken

/-- Registers in another order, capital digits in an array, and a token of another kind. -/
example : ofHeader (.object [("tokens", .object [
      ("1", .object [("type", .string "systemd-fido2")]),
      ("0", .object [("type", .string "systemd-tpm2"), ("tpm2-blob", .string "Zm9v"),
        ("tpm2-pcrs", .array [.number (.posInt 11), .number (.posInt 7), .number (.posInt 11)]),
        ("tpm2-pcr-bank", .string "sha256"),
        ("tpm2-policy-hash", .array [.string "abCDef01"])])])])
    = .ok [⟨0, [7, 11], some "sha256", [0xab, 0xcd, 0xef, 0x01], false, none⟩] := by
  decide +kernel

end Tpm2Autoenroll.Token
