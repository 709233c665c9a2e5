import Tpm2Autoenroll.Model.Daemon
import Tpm2Autoenroll.Serving.Requests
import Tpm2Autoenroll.Surroundings.Malformed

/-! The grammar of the configuration file: which entries are volumes and what these then say, each
entry by itself, and what that means for `check-config`.
-/

namespace Tpm2Autoenroll.Config

open Json (Value)
open Tpm2 (Bank)

-----------------------------------------------------------------------------------------
-- Registers
-----------------------------------------------------------------------------------------

/-- A number in an array of integers. -/
def Listed (value : Value) (n : UInt64) : Prop :=
  ∃ items, value = .array items ∧ .number (.posInt n) ∈ items

/-- A non-empty array of integers from 0 to 23. -/
def Selection (value : Value) : Prop :=
  ∃ items, value = .array items ∧ items ≠ []
    ∧ ∀ item ∈ items, ∃ n : UInt64, item = .number (.posInt n) ∧ n ≤ 23

/-- Exactly the integers are read as such. -/
theorem asU64_eq_some {item : Value} {n : UInt64}
    : item.asU64 = some n ↔ item = .number (.posInt n) := by
  cases item with
  | number given => cases given <;> simp [Value.asU64]
  | _ => simp [Value.asU64]

/-- A register number fits a byte. -/
theorem toUInt64_toUInt8 {n : UInt64} (inRange : n ≤ 23) : n.toUInt8.toUInt64 = n := by
  simp only [UInt64.le_iff_toNat_le, UInt64.reduceToNat] at inRange
  rw [← UInt64.toNat_inj, UInt8.toNat_toUInt64, UInt64.toNat_toUInt8]
  omega

/-- The loop takes arrays of register numbers and adds exactly these to what it has seen; by
induction on the array.
-/
theorem collectPcrs_ok {items : List Value} {seen collected : List UInt8}
    (result : collectPcrs items seen = .ok collected)
    : (∀ item ∈ items, ∃ n : UInt64, item = .number (.posInt n) ∧ n ≤ 23)
      ∧ ∀ pcr, pcr ∈ collected ↔ pcr ∈ seen ∨ .number (.posInt pcr.toUInt64) ∈ items := by
  induction items generalizing seen with
  | nil =>
      cases result
      simp
  | cons item rest ih =>
      cases number : item.asU64 with
      | none => simp [collectPcrs, number] at result
      | some n =>
          obtain rfl := asU64_eq_some.mp number
          by_cases large : n > maxPcr
          · simp [collectPcrs, number, large] at result
          · simp only [collectPcrs, number, large, if_false] at result
            have inRange : n ≤ 23 := UInt64.not_lt.mp large
            obtain ⟨others, members⟩ := ih result
            refine ⟨List.forall_mem_cons.mpr ⟨⟨n, rfl, inRange⟩, others⟩, fun pcr => ?_⟩
            have same : pcr = n.toUInt8 ↔ pcr.toUInt64 = n := by
              constructor
              · rintro rfl
                exact toUInt64_toUInt8 inRange
              · rintro rfl
                exact (UInt8.toUInt8_toUInt64 pcr).symm
            rw [members, mem_insertPcr, List.mem_cons, same]
            simp only [Value.number.injEq, Json.Number.posInt.injEq]
            tauto

/-- Arrays of register numbers are collected, by induction on the array. -/
theorem exists_collected {items : List Value}
    (valid : ∀ item ∈ items, ∃ n : UInt64, item = .number (.posInt n) ∧ n ≤ 23)
    (seen : List UInt8)
    : ∃ collected, collectPcrs items seen = .ok collected := by
  induction items generalizing seen with
  | nil => exact ⟨seen, rfl⟩
  | cons item rest ih =>
      obtain ⟨⟨n, rfl, inRange⟩, others⟩ := List.forall_mem_cons.mp valid
      obtain ⟨collected, result⟩ := ih others (insertPcr n.toUInt8 seen)
      refine ⟨collected, ?_⟩
      have small : ¬ n > maxPcr := UInt64.not_lt.mpr inRange
      simpa [collectPcrs, Value.asU64, small] using result

/-- What a selection holds that was read. -/
theorem pcrs_ok {value : Value} {selected : PcrSelection} (result : pcrs value = .ok selected)
    : Selection value ∧ ∀ pcr, pcr ∈ selected.list ↔ Listed value pcr.toUInt64 := by
  cases value with
  | array items =>
      simp only [pcrs, Value.asArray] at result
      split at result
      · cases result
      next list collected =>
        split_ifs at result with empty
        cases result
        obtain ⟨valid, members⟩ := collectPcrs_ok collected
        refine ⟨⟨items, rfl, ?_, valid⟩, fun pcr => ?_⟩
        · rintro rfl
          cases collected
          exact empty rfl
        · rw [members]
          simp [Listed]
  | _ => simp [pcrs, Value.asArray] at result

/-- Exactly the selections are read. -/
theorem exists_pcrs {value : Value}
    : (∃ selected, pcrs value = .ok selected) ↔ Selection value := by
  constructor
  · exact fun ⟨selected, result⟩ => (pcrs_ok result).1
  · rintro ⟨items, rfl, nonempty, valid⟩
    obtain ⟨collected, result⟩ := exists_collected valid []
    obtain ⟨item, rest, rfl⟩ := List.exists_cons_of_ne_nil nonempty
    obtain ⟨n, rfl, inRange⟩ := valid item List.mem_cons_self
    have held : n.toUInt8 ∈ collected := by
      refine ((collectPcrs_ok result).2 _).mpr (Or.inr ?_)
      rw [toUInt64_toUInt8 inRange]
      exact List.mem_cons_self
    have filled : collected ≠ [] := List.ne_nil_of_mem held
    simp only [pcrs, Value.asArray]
    split
    next e failed =>
      rw [result] at failed
      cases failed
    next list again =>
      rw [result] at again
      cases again
      exact ⟨_, dif_neg filled⟩

-----------------------------------------------------------------------------------------
-- Volumes
-----------------------------------------------------------------------------------------

/-- A name that can be a path component. -/
structure Usable (name : String) : Prop where
  nonempty : name ≠ ""
  noSlash : '/' ∉ name.toList
  notDot : name ≠ "."
  notDotDot : name ≠ ".."

def Absolute (path : String) : Prop := ∃ rest, path.toList = '/' :: rest

/-- The documented keys of a volume and the names of the banks. -/
def volumeKeys : List String := ["device", "tpm2_device", "pcrs", "pcr_bank"]

def bankNames : List String := ["sha1", "sha256", "sha384", "sha512"]

/-- What an entry of "volumes" has to look like. -/
structure Acceptable (name : String) (value : Value) : Prop where
  usable : Usable name
  known : ∃ fields : Json.Map, value = .object fields ∧ ∀ key ∈ fields.keys, key ∈ volumeKeys
  device : ∃ device, value.get "device" = some (.string device) ∧ Absolute device
  tpm2Device : value.get "tpm2_device" = none
    ∨ ∃ device, value.get "tpm2_device" = some (.string device)
      ∧ (device = "auto" ∨ Absolute device)
  pcrs : ∃ listed, value.get "pcrs" = some listed ∧ Selection listed
  bank : value.get "pcr_bank" = none
    ∨ ∃ bank ∈ bankNames, value.get "pcr_bank" = some (.string bank)

/-- The volume carries what its entry says, with the defaults for what the entry leaves out. -/
structure Carries (name : String) (value : Value) (volume : Volume) : Prop where
  name : volume.name = name
  device : value.get "device" = some (.string volume.device)
  tpm2Device : value.get "tpm2_device" = some (.string volume.tpm2Device)
    ∨ value.get "tpm2_device" = none ∧ volume.tpm2Device = "auto"
  ascending : volume.pcrs.list.Pairwise (· < ·)
  pcrs : ∃ listed, value.get "pcrs" = some listed
    ∧ ∀ n : UInt64, Listed listed n ↔ ∃ pcr ∈ volume.pcrs.list, pcr.toUInt64 = n
  bank : value.get "pcr_bank" = some (.string volume.bank.name)
    ∨ value.get "pcr_bank" = none ∧ volume.bank = .sha256

theorem startsWith_iff {path : String} : Text.startsWith path '/' = true ↔ Absolute path := by
  simp [Text.startsWith, Absolute, List.head?_eq_some_iff]

theorem isVolumeKey_iff {key : String} : isVolumeKey key = true ↔ key ∈ volumeKeys := by
  simp [isVolumeKey, volumeKeys, or_assoc]

/-- The names of the banks are the ones that are looked up. -/
theorem mem_bankNames {named : String}
    : named ∈ bankNames ↔ ∃ bank, Bank.fromName named = some bank := by
  simp only [bankNames, Bank.fromName, List.mem_cons, List.not_mem_nil, or_false]
  split_ifs <;> simp_all

theorem string_ok {fields : Json.Map} {key : String} {found : Option String}
    : string fields key = .ok found
      ↔ fields.get key = none ∧ found = none
        ∨ ∃ s, fields.get key = some (.string s) ∧ found = some s := by
  unfold string
  cases fields.get key with
  | none => simp [eq_comm]
  | some value => cases value <;> simp [Value.asStr, eq_comm]

/-- The last field that is read. -/
def bankOf (fields : Json.Map) : Except String Bank :=
  (string fields "pcr_bank").bind fun named =>
    match named with
    | none => .ok .sha256
    | some b =>
        match Bank.fromName b with
        | some bank => .ok bank
        | none => .error s!"unrecognised \"pcr_bank\" {Text.debug b}"

theorem bankOf_ok {fields : Json.Map} {bank : Bank}
    : bankOf fields = .ok bank
      ↔ fields.get "pcr_bank" = some (.string bank.name)
        ∨ fields.get "pcr_bank" = none ∧ bank = .sha256 := by
  unfold bankOf string
  cases fields.get "pcr_bank" with
  | none => simp [Except.bind, eq_comm]
  | some value =>
      cases value with
      | string named =>
          simp only [Value.asStr, Except.bind, Option.some.injEq, Value.string.injEq,
            reduceCtorEq, false_and, or_false]
          cases found : Bank.fromName named with
          | none =>
              simp only [reduceCtorEq, false_iff]
              rintro rfl
              rw [Cryptenroll.fromName_name] at found
              cases found
          | some other =>
              simp only [Except.ok.injEq]
              constructor
              · rintro rfl
                exact Token.name_of_fromName found
              · rintro rfl
                rw [Cryptenroll.fromName_name] at found
                exact (Option.some.inj found).symm
      | _ => simp [Value.asStr, Except.bind]

/-- The fields of a volume in the order they are read, once its name and its keys have passed. -/
theorem volume_object {name : String} {fields : Json.Map} (usable : Usable name)
    (known : fields.keys.find? (fun key => !isVolumeKey key) = none)
    : volume name (.object fields)
      = (string fields "device").bind fun device =>
          match device with
          | none => .error "no \"device\""
          | some device =>
              if !Text.startsWith device '/' then
                .error s!"\"device\" {Text.debug device} is not an absolute path"
              else
                (string fields "tpm2_device").bind fun given =>
                  let tpm2Device := given.getD "auto"
                  if tpm2Device ≠ "auto" ∧ !Text.startsWith tpm2Device '/' then
                    .error
                      s!"\"tpm2_device\" {Text.debug tpm2Device} is neither \"auto\" nor an absolute path"
                  else
                    match fields.get "pcrs" with
                    | none => .error "no \"pcrs\""
                    | some listed =>
                        (pcrs listed).bind fun selected =>
                          (bankOf fields).bind fun bank =>
                            .ok ⟨name, device, tpm2Device, selected, bank⟩ := by
  have passed : ¬ (name = "" ∨ '/' ∈ name.toList ∨ name = "." ∨ name = "..") := by
    rintro (bad | bad | bad | bad)
    · exact usable.nonempty bad
    · exact usable.noSlash bad
    · exact usable.notDot bad
    · exact usable.notDotDot bad
  unfold volume
  rw [if_neg passed]
  simp only [Value.asObject, pure_bind]
  rw [known]
  cases string fields "device" with
  | error e => rfl
  | ok device =>
      cases device with
      | none => rfl
      | some device =>
          simp only [bind, Except.bind, bankOf]
          split_ifs
          · rfl
          · cases string fields "tpm2_device" with
            | error e => rfl
            | ok given =>
                simp only
                split_ifs
                · rfl
                · cases fields.get "pcrs" with
                  | none => rfl
                  | some listed =>
                      simp only
                      cases pcrs listed with
                      | error e => rfl
                      | ok selected =>
                          cases string fields "pcr_bank" with
                          | error e => rfl
                          | ok named =>
                              cases named with
                              | none => rfl
                              | some b =>
                                  simp only
                                  cases Bank.fromName b <;> rfl

/-- A volume has a usable name and only documented keys. -/
theorem exists_object {name : String} {value : Value} {accepted : Volume}
    (result : volume name value = .ok accepted)
    : Usable name ∧ ∃ fields : Json.Map, value = .object fields
      ∧ fields.keys.find? (fun key => !isVolumeKey key) = none := by
  unfold volume at result
  split_ifs at result with bad
  · cases result
  · simp only [not_or] at bad
    refine ⟨⟨bad.1, bad.2.1, bad.2.2.1, bad.2.2.2⟩, ?_⟩
    cases value with
    | object fields =>
        refine ⟨fields, rfl, ?_⟩
        by_contra unknown
        obtain ⟨key, found⟩ := Option.ne_none_iff_exists'.mp unknown
        simp only [Value.asObject, found, pure_bind] at result
        cases result
    | _ => cases result

/-- What a volume is read from. -/
theorem volume_ok {name : String} {value : Value} {accepted : Volume}
    : volume name value = .ok accepted
      ↔ Usable name
        ∧ ∃ fields : Json.Map, value = .object fields ∧ (∀ key ∈ fields.keys, key ∈ volumeKeys)
          ∧ accepted.name = name
          ∧ fields.get "device" = some (.string accepted.device) ∧ Absolute accepted.device
          ∧ (fields.get "tpm2_device" = some (.string accepted.tpm2Device)
              ∧ (accepted.tpm2Device = "auto" ∨ Absolute accepted.tpm2Device)
            ∨ fields.get "tpm2_device" = none ∧ accepted.tpm2Device = "auto")
          ∧ (∃ listed, fields.get "pcrs" = some listed ∧ pcrs listed = .ok accepted.pcrs)
          ∧ (fields.get "pcr_bank" = some (.string accepted.bank.name)
            ∨ fields.get "pcr_bank" = none ∧ accepted.bank = .sha256) := by
  have documented (fields : Json.Map) : fields.keys.find? (fun key => !isVolumeKey key) = none
      ↔ ∀ key ∈ fields.keys, key ∈ volumeKeys := by
    simp [← isVolumeKey_iff]
  constructor
  · intro result
    obtain ⟨usable, fields, rfl, known⟩ := exists_object result
    refine ⟨usable, fields, rfl, (documented fields).mp known, ?_⟩
    rw [volume_object usable known] at result
    obtain ⟨device, deviceRead, result⟩ := Token.bind_ok.mp result
    rcases string_ok.mp deviceRead with ⟨_, rfl⟩ | ⟨path, held, rfl⟩
    · cases result
    · simp only at result
      split_ifs at result with relative
      obtain ⟨given, tpm2Read, result⟩ := Token.bind_ok.mp result
      split_ifs at result with odd
      cases listing : fields.get "pcrs" with
      | none => simp [listing] at result
      | some listed =>
          simp only [listing] at result
          obtain ⟨selected, pcrsRead, result⟩ := Token.bind_ok.mp result
          obtain ⟨bank, bankRead, result⟩ := Token.bind_ok.mp result
          cases result
          have absolute : Absolute path := startsWith_iff.mp (by simpa using relative)
          refine ⟨rfl, held, absolute, ?_, ⟨listed, rfl, pcrsRead⟩, bankOf_ok.mp bankRead⟩
          rcases string_ok.mp tpm2Read with ⟨absent, rfl⟩ | ⟨tpm2, present, rfl⟩
          · exact Or.inr ⟨absent, rfl⟩
          · refine Or.inl ⟨present, ?_⟩
            rw [Option.getD_some] at odd
            by_cases auto : tpm2 = "auto"
            · exact Or.inl auto
            · refine Or.inr (startsWith_iff.mp ?_)
              simpa [auto] using odd
  · rintro ⟨usable, fields, rfl, known, rfl, device, absolute, tpm2, ⟨listed, listing, pcrsRead⟩,
      bank⟩
    obtain ⟨given, tpm2Read, same, fine⟩ : ∃ given, string fields "tpm2_device" = .ok given
        ∧ given.getD "auto" = accepted.tpm2Device
        ∧ (accepted.tpm2Device = "auto" ∨ Absolute accepted.tpm2Device) := by
      rcases tpm2 with ⟨present, fine⟩ | ⟨absent, auto⟩
      · exact ⟨_, string_ok.mpr (Or.inr ⟨_, present, rfl⟩), rfl, fine⟩
      · exact ⟨_, string_ok.mpr (Or.inl ⟨absent, rfl⟩), auto.symm, Or.inl auto⟩
    rw [volume_object usable ((documented fields).mpr known)]
    refine Token.bind_ok.mpr ⟨_, string_ok.mpr (Or.inr ⟨_, device, rfl⟩), ?_⟩
    simp only [startsWith_iff.mpr absolute, Bool.not_true, Bool.false_eq_true, if_false]
    refine Token.bind_ok.mpr ⟨given, tpm2Read, ?_⟩
    have plain : ¬ (accepted.tpm2Device ≠ "auto"
        ∧ (!Text.startsWith accepted.tpm2Device '/') = true) := by
      rintro ⟨other, relative⟩
      have slash := startsWith_iff.mpr (fine.resolve_left other)
      simp [slash] at relative
    rw [same, if_neg plain, listing]
    exact Token.bind_ok.mpr ⟨_, pcrsRead, Token.bind_ok.mpr ⟨_, bankOf_ok.mpr bank, rfl⟩⟩

/-- A volume carries what its entry says, and the entry is acceptable. -/
theorem carries {name : String} {value : Value} {accepted : Volume}
    (result : volume name value = .ok accepted)
    : Acceptable name value ∧ Carries name value accepted := by
  obtain ⟨usable, fields, rfl, known, named, device, absolute, tpm2, ⟨listed, listing, selected⟩,
    bank⟩ := volume_ok.mp result
  obtain ⟨selection, members⟩ := pcrs_ok selected
  constructor
  · refine ⟨usable, ⟨fields, rfl, known⟩, ⟨_, device, absolute⟩, ?_, ⟨listed, listing, selection⟩, ?_⟩
    · rcases tpm2 with ⟨present, fine⟩ | ⟨absent, _⟩
      · exact Or.inr ⟨_, present, fine⟩
      · exact Or.inl absent
    · rcases bank with present | ⟨absent, _⟩
      · exact Or.inr ⟨_, mem_bankNames.mpr ⟨_, Cryptenroll.fromName_name _⟩, present⟩
      · exact Or.inl absent
  · refine ⟨named, device, ?_, accepted.pcrs.ascending, ⟨listed, listing, fun n => ?_⟩, bank⟩
    · rcases tpm2 with ⟨present, _⟩ | absent
      · exact Or.inl present
      · exact Or.inr absent
    · constructor
      · rintro ⟨items, rfl, member⟩
        obtain ⟨_, ⟨⟩, _, valid⟩ := selection
        obtain ⟨_, ⟨⟩, inRange⟩ := valid _ member
        refine ⟨n.toUInt8, (members _).mpr ?_, toUInt64_toUInt8 inRange⟩
        rw [toUInt64_toUInt8 inRange]
        exact ⟨items, rfl, member⟩
      · rintro ⟨pcr, held, rfl⟩
        exact (members pcr).mp held

/-- Exactly the acceptable entries are volumes. -/
theorem exists_volume {name : String} {value : Value}
    : (∃ accepted, volume name value = .ok accepted) ↔ Acceptable name value := by
  constructor
  · exact fun ⟨accepted, result⟩ => (carries result).1
  · intro acceptable
    obtain ⟨fields, rfl, known⟩ := acceptable.known
    obtain ⟨device, held, absolute⟩ := acceptable.device
    obtain ⟨listed, listing, selection⟩ := acceptable.pcrs
    obtain ⟨selected, pcrsRead⟩ := exists_pcrs.mpr selection
    obtain ⟨tpm2, tpm2Held⟩ : ∃ tpm2, Json.Map.get fields "tpm2_device" = some (.string tpm2)
          ∧ (tpm2 = "auto" ∨ Absolute tpm2)
        ∨ Json.Map.get fields "tpm2_device" = none ∧ tpm2 = "auto" := by
      rcases acceptable.tpm2Device with absent | ⟨tpm2, present, fine⟩
      · exact ⟨"auto", Or.inr ⟨absent, rfl⟩⟩
      · exact ⟨tpm2, Or.inl ⟨present, fine⟩⟩
    obtain ⟨bank, bankHeld⟩ : ∃ bank, Json.Map.get fields "pcr_bank" = some (.string bank.name)
        ∨ Json.Map.get fields "pcr_bank" = none ∧ bank = Bank.sha256 := by
      rcases acceptable.bank with absent | ⟨named, known, present⟩
      · exact ⟨.sha256, Or.inr ⟨absent, rfl⟩⟩
      · obtain ⟨bank, found⟩ := mem_bankNames.mp known
        exact ⟨bank, Or.inl (Token.name_of_fromName found ▸ present)⟩
    exact ⟨⟨name, device, tpm2, selected, bank⟩,
      volume_ok.mpr ⟨acceptable.usable, fields, rfl, known, rfl, held, absolute, tpm2Held,
        ⟨listed, listing, pcrsRead⟩, bankHeld⟩⟩

-----------------------------------------------------------------------------------------
-- Files
-----------------------------------------------------------------------------------------

/-- An object with the one key "volumes", and the entries of the object there. -/
def Entries (root : Value) (entries : Json.Map) : Prop :=
  ∃ members : Json.Map, root = .object members ∧ (∀ key ∈ members.keys, key = "volumes")
    ∧ members.get "volumes" = some (.object entries)

/-- What one entry adds, whatever stands beside it: a volume or why it is rejected. -/
def contribution (entry : String × Value) : Volume ⊕ String :=
  match volume entry.1 entry.2 with
  | .ok accepted => .inl accepted
  | .error e => .inr s!"volume {Text.debug entry.1}: {e}"

theorem contribution_ok {entry : String × Value} {accepted : Volume}
    (result : volume entry.1 entry.2 = .ok accepted)
    : contribution entry = .inl accepted := by
  simp [contribution, result]

theorem contribution_error {entry : String × Value} {e : String}
    (result : volume entry.1 entry.2 = .error e)
    : contribution entry = .inr s!"volume {Text.debug entry.1}: {e}" := by
  simp [contribution, result]

theorem contribution_inl {entry : String × Value} {accepted : Volume}
    : contribution entry = .inl accepted ↔ volume entry.1 entry.2 = .ok accepted := by
  cases result : volume entry.1 entry.2 <;> simp [contribution, result]

/-- The file's entries are taken one by one, by induction on them. -/
theorem foldl_add {entries : Json.Map} {loaded : Loaded}
    : entries.foldl (fun loaded member => loaded.add member.1 member.2) loaded
      = {
        volumes := loaded.volumes ++ (entries.map contribution).filterMap Sum.getLeft?
        rejected := loaded.rejected ++ (entries.map contribution).filterMap Sum.getRight?
      } := by
  induction entries generalizing loaded with
  | nil => simp
  | cons entry rest ih =>
      rw [List.foldl_cons, ih]
      cases result : volume entry.1 entry.2 with
      | ok accepted => simp [Loaded.add, contribution_ok result, result, List.filterMap_cons]
      | error e => simp [Loaded.add, contribution_error result, result, List.filterMap_cons]

/-- Exactly the files with entries parse, as what these add. -/
theorem parse_ok {fromStr : Json.Reader} {text : String} {root : Value} {loaded : Loaded}
    (reads : fromStr text = .ok root)
    : parse fromStr text = .ok loaded
      ↔ ∃ entries, Entries root entries
        ∧ loaded.volumes = (entries.map contribution).filterMap Sum.getLeft?
        ∧ loaded.rejected = (entries.map contribution).filterMap Sum.getRight? := by
  have refused {why : String} (none : ∀ entries, ¬ Entries root entries)
      : (Except.error why = .ok loaded)
        ↔ ∃ entries, Entries root entries
          ∧ loaded.volumes = (entries.map contribution).filterMap Sum.getLeft?
          ∧ loaded.rejected = (entries.map contribution).filterMap Sum.getRight? := by
    refine iff_of_false (by simp) ?_
    rintro ⟨entries, listed, _⟩
    exact none entries listed
  rw [parse, reads]
  simp only [Except.mapError, bind, Except.bind]
  cases root with
  | object members =>
      cases other : (Json.Map.keys members).find? fun key => key ≠ "volumes" with
      | some key =>
          have unknown : key ≠ "volumes" := by simpa using List.find?_some other
          simp only [Value.asObject, other]
          refine refused ?_
          rintro entries ⟨_, ⟨⟩, only, _⟩
          exact unknown (only key (List.mem_of_find?_eq_some other))
      | none =>
          have only : ∀ key ∈ Json.Map.keys members, key = "volumes" := by simpa using other
          have unlisted (none : ∀ entries, Json.Map.get members "volumes" ≠ some (.object entries))
              : ∀ entries, ¬ Entries (.object members) entries := by
            rintro entries ⟨_, ⟨⟩, _, found⟩
            exact none entries found
          simp only [Value.asObject, other, foldl_add]
          cases listing : Json.Map.get members "volumes" with
          | none => exact refused (unlisted fun entries => by simp [listing])
          | some listed =>
              cases listed with
              | object entries =>
                  constructor
                  · intro result
                    cases result
                    exact ⟨entries, ⟨members, rfl, only, listing⟩, rfl, rfl⟩
                  · rintro ⟨again, ⟨_, ⟨⟩, _, found⟩, volumes, rejected⟩
                    rw [listing] at found
                    cases found
                    obtain ⟨kept, refused⟩ := loaded
                    subst volumes rejected
                    rfl
              | _ => exact refused (unlisted fun entries => by simp [listing])
  | _ =>
      refine refused ?_
      rintro entries ⟨_, ⟨⟩, _⟩

theorem entries_unique {root : Value} {entries others : Json.Map} (listed : Entries root entries)
    (again : Entries root others)
    : entries = others := by
  obtain ⟨members, rfl, _, found⟩ := listed
  obtain ⟨_, ⟨⟩, _, also⟩ := again
  rw [found] at also
  cases also
  rfl

/-- What parses is JSON. -/
theorem exists_root {fromStr : Json.Reader} {text : String} {loaded : Loaded}
    (parsed : parse fromStr text = .ok loaded)
    : ∃ root, fromStr text = .ok root := by
  cases reads : fromStr text with
  | ok root => exact ⟨root, rfl⟩
  | error e => simp [parse, reads, Except.mapError, bind, Except.bind] at parsed

/-- Nothing is rejected when every entry is a volume, by induction on the entries. -/
theorem rejected_eq_nil {entries : Json.Map}
    : (entries.map contribution).filterMap Sum.getRight? = []
      ↔ List.Forall₂ (fun entry accepted => contribution entry = .inl accepted) entries
        ((entries.map contribution).filterMap Sum.getLeft?) := by
  induction entries with
  | nil => simp
  | cons entry rest ih =>
      cases result : volume entry.1 entry.2 with
      | ok accepted =>
          rw [List.map_cons, contribution_ok result]
          change (rest.map contribution).filterMap Sum.getRight? = []
            ↔ List.Forall₂ _ (entry :: rest) (accepted :: _)
          rw [ih, List.forall₂_cons, and_iff_right (contribution_ok result)]
      | error e =>
          have short := List.length_filterMap_le Sum.getLeft? (rest.map contribution)
          rw [List.map_cons, contribution_error result]
          constructor
          · intro impossible
            cases impossible
          · intro related
            have length := related.length_eq
            change rest.length + 1 = ((rest.map contribution).filterMap Sum.getLeft?).length at length
            rw [List.length_map] at short
            omega

-----------------------------------------------------------------------------------------
-- Checking a file
-----------------------------------------------------------------------------------------

/-- What a file is taken for, by what reading it gave. -/
def taken (fromStr : Json.Reader) (path : String) : Except String String → Except String Loaded
  | .error e => .error s!"{path}: {e}"
  | .ok text => (parse fromStr text).mapError fun e => s!"{path}: {e}"

theorem taken_ok {fromStr : Json.Reader} {path : String} {content : Except String String}
    {loaded : Loaded}
    : taken fromStr path content = .ok loaded
      ↔ ∃ text, content = .ok text ∧ parse fromStr text = .ok loaded := by
  cases content with
  | error e => simp [taken]
  | ok text => cases parsed : parse fromStr text <;> simp [taken, parsed, Except.mapError]

theorem read_eq {fromStr : Json.Reader} {path : String}
    : read fromStr path = ask (.readFile path) >>= fun content => pure (taken fromStr path content)
      := by
  refine congrArg _ (funext fun content => ?_)
  cases content <;> rfl

/-- `config::load` returns the volumes of what the file is taken for. -/
theorem load_runs {fromStr : Json.Reader} {path : String} {content : Except String String}
    {later : Trace} {result : Except String (List Volume)}
    (run : (load fromStr path).Runs (⟨.readFile path, content⟩ :: later) (some result))
    : result = (taken fromStr path content).map Loaded.volumes := by
  rw [load, read_eq, bind_assoc] at run
  obtain ⟨_, _, ⟨⟩, going⟩ := runs_ask.mp run
  rw [pure_bind] at going
  cases found : taken fromStr path content with
  | error e =>
      rw [found] at going
      exact (Interaction.Prog.runs_pure_some.mp going).2
  | ok loaded =>
      rw [found] at going
      obtain ⟨_, _, _, _, _, ended⟩ := Interaction.Prog.runs_bind_some.mp going
      exact (Interaction.Prog.runs_pure_some.mp ended).2

/-- `check-config` succeeds exactly when nothing of the file is rejected and something is not. -/
theorem checkConfig_runs {fromStr : Json.Reader} {path : String} {content : Except String String}
    {later : Trace} {code : ExitCode}
    (run : (checkConfig fromStr path).Runs (⟨.readFile path, content⟩ :: later) (some code))
    : code = .success
      ↔ ∃ loaded, taken fromStr path content = .ok loaded
        ∧ loaded.rejected = [] ∧ loaded.volumes ≠ [] := by
  rw [checkConfig, read_eq, bind_assoc] at run
  obtain ⟨_, _, ⟨⟩, going⟩ := runs_ask.mp run
  rw [pure_bind] at going
  cases found : taken fromStr path content with
  | error e =>
      rw [found] at going
      obtain ⟨_, _, _, ended⟩ := runs_ask.mp going
      obtain ⟨_, rfl⟩ := Interaction.Prog.runs_pure_some.mp ended
      simp
  | ok loaded =>
      rw [found] at going
      obtain ⟨_, _, _, _, _, checking⟩ := Interaction.Prog.runs_bind_some.mp going
      simp only [Except.ok.injEq, exists_eq_left']
      split_ifs at checking with rejected empty
      · obtain ⟨_, rfl⟩ := Interaction.Prog.runs_pure_some.mp checking
        simp [rejected]
      · obtain ⟨_, _, _, ended⟩ := runs_ask.mp checking
        obtain ⟨_, rfl⟩ := Interaction.Prog.runs_pure_some.mp ended
        simp [empty]
      · obtain ⟨_, _, _, _, _, ended⟩ := Interaction.Prog.runs_bind_some.mp checking
        obtain ⟨_, rfl⟩ := Interaction.Prog.runs_pure_some.mp ended
        simpa [empty] using rejected

/-- Validation accepts exactly the grammar, entry by entry: a file parses when it has entries; each
of these adds one thing, a volume or a rejection, by itself; the volumes are the acceptable
entries and carry what these say. `check-config` then succeeds exactly when there are entries
and each of them is among the volumes that `config::load` returns of the same file.
-/
theorem config_grammar (fromStr : Json.Reader)
    : (∀ text root, fromStr text = .ok root
        → ((∃ loaded, parse fromStr text = .ok loaded) ↔ ∃ entries, Entries root entries))
      ∧ (∀ text root entries loaded, fromStr text = .ok root → Entries root entries
        → parse fromStr text = .ok loaded
        → loaded.volumes = (entries.map contribution).filterMap Sum.getLeft?
          ∧ loaded.rejected = (entries.map contribution).filterMap Sum.getRight?)
      ∧ (∀ name value,
        (∃ accepted, contribution (name, value) = .inl accepted) ↔ Acceptable name value)
      ∧ (∀ name value accepted, contribution (name, value) = .inl accepted
        → Carries name value accepted)
      ∧ (∀ path trace code, (checkConfig fromStr path).Runs trace (some code)
        → ∃ (content : Except String String) (checked : Trace),
          trace = ⟨.readFile path, content⟩ :: checked
          ∧ ∀ loading result,
            (load fromStr path).Runs (⟨.readFile path, content⟩ :: loading) (some result)
            → (code = .success
              ↔ ∃ text root entries volumes, content = .ok text ∧ fromStr text = .ok root
                ∧ Entries root entries ∧ entries ≠ [] ∧ result = .ok volumes
                ∧ List.Forall₂ (fun entry accepted => contribution entry = .inl accepted) entries
                  volumes)) := by
  refine ⟨?_, ?_, ?_, ?_, ?_⟩
  · intro text root reads
    constructor
    · rintro ⟨loaded, parsed⟩
      obtain ⟨entries, listed, _⟩ := (parse_ok reads).mp parsed
      exact ⟨entries, listed⟩
    · rintro ⟨entries, listed⟩
      exact ⟨⟨_, _⟩, (parse_ok reads).mpr ⟨entries, listed, rfl, rfl⟩⟩
  · intro text root entries loaded reads listed parsed
    obtain ⟨others, again, volumes, rejected⟩ := (parse_ok reads).mp parsed
    obtain rfl := entries_unique listed again
    exact ⟨volumes, rejected⟩
  · intro name value
    simp only [contribution_inl]
    exact exists_volume
  · intro name value accepted contributed
    exact (carries (contribution_inl.mp contributed)).2
  · intro path trace code run
    obtain ⟨content, checked, rfl⟩ : ∃ (content : Except String String) (checked : Trace),
        trace = ⟨.readFile path, content⟩ :: checked := by
      rw [checkConfig, read_eq, bind_assoc] at run
      obtain ⟨content, checked, same, _⟩ := runs_ask.mp run
      exact ⟨content, checked, same⟩
    refine ⟨content, checked, rfl, fun loading result loads => ?_⟩
    rw [load_runs loads, checkConfig_runs run]
    simp only [taken_ok]
    constructor
    · rintro ⟨loaded, ⟨text, rfl, parsed⟩, rejected, some⟩
      obtain ⟨root, reads⟩ := exists_root parsed
      obtain ⟨entries, listed, volumes, refused⟩ := (parse_ok reads).mp parsed
      have found : taken fromStr path (.ok text) = .ok loaded := taken_ok.mpr ⟨text, rfl, parsed⟩
      refine ⟨text, root, entries, loaded.volumes, rfl, reads, listed, ?_, ?_, ?_⟩
      · rintro rfl
        exact some volumes
      · rw [found]
        rfl
      · rw [volumes]
        exact rejected_eq_nil.mp (refused.symm.trans rejected)
    · rintro ⟨text, root, entries, volumes, rfl, reads, listed, some, loaded, accepted⟩
      have kept : (entries.map contribution).filterMap Sum.getLeft? = volumes := by
        obtain ⟨parsed, found⟩ : ∃ parsed, parse fromStr text = .ok parsed :=
          ⟨⟨_, _⟩, (parse_ok reads).mpr ⟨entries, listed, rfl, rfl⟩⟩
        obtain ⟨others, again, same, _⟩ := (parse_ok reads).mp found
        obtain rfl := entries_unique listed again
        rw [taken_ok.mpr ⟨text, rfl, found⟩] at loaded
        exact same.symm.trans (Except.ok.inj loaded)
      refine ⟨⟨_, _⟩, ⟨text, rfl, (parse_ok reads).mpr ⟨entries, listed, rfl, rfl⟩⟩, ?_, ?_⟩
      · rw [← kept] at accepted
        exact rejected_eq_nil.mpr accepted
      · intro nothing
        have none : volumes = [] := kept.symm.trans nothing
        rw [none, List.forall₂_nil_right_iff] at accepted
        exact some accepted

end Tpm2Autoenroll.Config
