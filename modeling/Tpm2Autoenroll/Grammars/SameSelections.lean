import Tpm2Autoenroll.Grammars.Configs

/-! A header's selection against the configured one: the two lists are equal exactly when the same
registers are selected, in whatever order and with whatever repeats these were written.
-/

namespace Tpm2Autoenroll.Preflight

open Config (Listed)
open Json (Value)
open Token (Tpm2Token)

/-- The register numbers in a volume's entry and in a header's token. -/
def Configured (entry : Value) (n : UInt64) : Prop :=
  ∃ listed, entry.get "pcrs" = some listed ∧ Listed listed n

def Enrolled (token : Value) (n : UInt64) : Prop :=
  ∃ listed, token.get "tpm2-pcrs" = some listed ∧ Listed listed n

/-- The token is for this bank. One that has no bank is for sha256. -/
def NamesBank (token : Value) (bank : String) : Prop :=
  token.get "tpm2-pcr-bank" = some (.string bank)
  ∨ token.get "tpm2-pcr-bank" = none ∧ bank = "sha256"

/-- The token has something else than a name where its bank is. -/
def UnnamedBank (token : Value) : Prop :=
  ∃ bank, token.get "tpm2-pcr-bank" = some bank ∧ ∀ named, bank ≠ .string named

/-- The header's list holds the numbers that were written, whatever their order. -/
theorem mem_pcrList {value : Value} {listed : List UInt8}
    (result : Token.pcrList value = .ok listed) (pcr : UInt8)
    : pcr ∈ listed ↔ Listed value pcr.toUInt64 := by
  obtain ⟨pcrs, ⟨rfl, _⟩, rfl⟩ := Token.pcrList_ok.mp result
  refine Sorting.mem_sortDedup.trans ?_
  constructor
  · exact fun member => ⟨_, rfl, List.mem_map.mpr ⟨pcr, member, rfl⟩⟩
  · rintro ⟨_, ⟨⟩, member⟩
    obtain ⟨other, held, same⟩ := List.mem_map.mp member
    simp only [Value.number.injEq, Json.Number.posInt.injEq, UInt8.toUInt64_inj] at same
    exact same ▸ held

theorem pcrList_ascending {value : Value} {listed : List UInt8}
    (result : Token.pcrList value = .ok listed)
    : listed.Pairwise (· < ·) := by
  obtain ⟨pcrs, _, rfl⟩ := Token.pcrList_ok.mp result
  exact Sorting.sortDedup_ascending pcrs

/-- Every number that is accepted in a header fits a byte. -/
theorem exists_pcr {value : Value} {listed : List UInt8} {n : UInt64}
    (result : Token.pcrList value = .ok listed) (written : Listed value n)
    : ∃ pcr : UInt8, pcr.toUInt64 = n := by
  obtain ⟨pcrs, ⟨rfl, _⟩, _⟩ := Token.pcrList_ok.mp result
  obtain ⟨_, ⟨⟩, member⟩ := written
  obtain ⟨pcr, _, same⟩ := List.mem_map.mp member
  simp only [Value.number.injEq, Json.Number.posInt.injEq] at same
  exact ⟨pcr, same⟩

/-- The two lists are equal exactly when the same numbers were written. -/
theorem lists_eq_iff {configured enrolled : Value} {selected : PcrSelection} {listed : List UInt8}
    (accepted : Config.pcrs configured = .ok selected)
    (parsed : Token.pcrList enrolled = .ok listed)
    : listed = selected.list ↔ ∀ n, Listed enrolled n ↔ Listed configured n := by
  obtain ⟨selection, members⟩ := Config.pcrs_ok accepted
  constructor
  · rintro same n
    constructor
    · intro written
      obtain ⟨pcr, rfl⟩ := exists_pcr parsed written
      rw [← mem_pcrList parsed, same] at written
      exact (members pcr).mp written
    · rintro ⟨items, rfl, member⟩
      obtain ⟨_, ⟨⟩, _, valid⟩ := selection
      obtain ⟨_, ⟨⟩, inRange⟩ := valid _ member
      have held : n.toUInt8 ∈ selected.list := by
        rw [members, Config.toUInt64_toUInt8 inRange]
        exact ⟨items, rfl, member⟩
      rw [← same, mem_pcrList parsed, Config.toUInt64_toUInt8 inRange] at held
      exact held
  · intro same
    refine Sorting.eq_of_ascending (pcrList_ascending parsed) selected.ascending fun pcr => ?_
    rw [mem_pcrList parsed, same, members]

/-- Only objects are read as tokens. -/
theorem exists_fields {index : UInt32} {token : Value} {read : Tpm2Token}
    (parsed : Token.token index token = .ok read)
    : ∃ fields, token = .object fields := by
  cases token with
  | object fields => exact ⟨fields, rfl⟩
  | _ => cases parsed

/-- A token's registers are equal to the configured ones exactly when the same were written. -/
theorem pcrs_eq_iff {name : String} {entry token : Value} {config : Volume} {index : UInt32}
    {read : Tpm2Token} (accepted : Config.volume name entry = .ok config)
    (parsed : Token.token index token = .ok read)
    : read.pcrs = config.pcrs.list ↔ ∀ n, Enrolled token n ↔ Configured entry n := by
  obtain ⟨_, fields, rfl, _, _, _, _, _, ⟨configured, listing, selected⟩, _⟩ :=
    Config.volume_ok.mp accepted
  obtain ⟨header, rfl⟩ := exists_fields parsed
  obtain ⟨pcrs, _, _, registers, _, _, rfl⟩ := Token.token_ok.mp parsed
  have stored : (Value.object fields).get "pcrs" = some configured := listing
  have same (key : String) : (Value.object header).get key = Json.Map.get header key := rfl
  simp only [Configured, stored, Enrolled, same, Option.some.injEq, exists_eq_left']
  cases enrolled : Json.Map.get header "tpm2-pcrs" with
  | some value =>
      rw [enrolled] at registers
      cases registers with
      | some written =>
          simp only [Option.some.injEq, exists_eq_left']
          exact lists_eq_iff selected (Token.pcrList_ok.mpr ⟨_, written, rfl⟩)
  | none =>
      rw [enrolled] at registers
      cases registers
      obtain ⟨pcr, held⟩ := List.exists_mem_of_ne_nil _ config.pcrs.nonempty
      have nothing : Token.sortDedup (Option.getD none []) = [] := rfl
      rw [nothing]
      constructor
      · intro empty
        exact absurd empty.symm config.pcrs.nonempty
      · intro written
        obtain ⟨_, ⟨⟩, _⟩ := (written _).mpr (((Config.pcrs_ok selected).2 pcr).mp held)

/-- The bank that is compared is the one the token names, or sha256 where it names none. -/
theorem bank_eq_iff {token : Value} {index : UInt32} {read : Tpm2Token} {bank : String}
    (parsed : Token.token index token = .ok read)
    : read.bank.getD "sha256" = bank
      ↔ NamesBank token bank ∨ UnnamedBank token ∧ bank = "sha256" := by
  obtain ⟨header, rfl⟩ := exists_fields parsed
  obtain ⟨_, _, _, _, _, _, rfl⟩ := Token.token_ok.mp parsed
  have same : (Value.object header).get "tpm2-pcr-bank" = Json.Map.get header "tpm2-pcr-bank" := rfl
  simp only [NamesBank, UnnamedBank, same]
  cases Json.Map.get header "tpm2-pcr-bank" with
  | none => simp [eq_comm]
  | some value => cases value <;> simp [Value.asStr, eq_comm]

theorem sha256_iff {bank : Tpm2.Bank} : bank.name = "sha256" ↔ bank = .sha256 := by
  constructor
  · intro named
    have found := Cryptenroll.fromName_name bank
    rw [named] at found
    exact (Option.some.inj found).symm
  · rintro rfl
    rfl

/-- Selections are compared as sets. The lists of a configured and of an enrolled selection are
equal exactly when these hold the same numbers. The preflight's comparison then succeeds exactly
when the token has the registers and the bank that are configured, except where something else
than a name stands for a bank: that is taken for sha256.
-/
theorem selections_compared (configured enrolled entry token : Value) (name : String)
    (index : UInt32)
    : (∀ selected listed, Config.pcrs configured = .ok selected
        → Token.pcrList enrolled = .ok listed
        → (listed = selected.list ↔ ∀ n, Listed enrolled n ↔ Listed configured n))
      ∧ ∀ config read, Config.volume name entry = .ok config
        → Token.token index token = .ok read
        → ((sameSelection read config = .ok ()
              ↔ (∀ n, Enrolled token n ↔ Configured entry n) ∧ NamesBank token config.bank.name)
          ↔ ¬ (UnnamedBank token ∧ config.bank = .sha256
            ∧ ∀ n, Enrolled token n ↔ Configured entry n)) := by
  refine ⟨fun _ _ accepted parsed => lists_eq_iff accepted parsed, ?_⟩
  intro config read accepted parsed
  have apart : UnnamedBank token → ¬ NamesBank token config.bank.name := by
    rintro ⟨bank, held, unnamed⟩ (named | ⟨absent, _⟩)
    · exact unnamed _ (Option.some.inj (held.symm.trans named))
    · rw [absent] at held
      cases held
  rw [sameSelection_ok, pcrs_eq_iff accepted parsed, bank_eq_iff parsed, sha256_iff]
  constructor
  · intro compared ⟨unnamed, sha256, same⟩
    exact apart unnamed (compared.mp ⟨same, Or.inr ⟨unnamed, sha256⟩⟩).2
  · intro otherwise
    constructor
    · rintro ⟨same, named | ⟨unnamed, sha256⟩⟩
      · exact ⟨same, named⟩
      · exact absurd ⟨unnamed, sha256, same⟩ otherwise
    · exact fun ⟨same, named⟩ => ⟨same, Or.inl named⟩

section UnnamedBank

private def entry : Value :=
  .object [("device", .string "/dev/vda2"), ("pcrs", .array [.number (.posInt 11)])]

private def unnamed : Value :=
  .object [("tpm2-pcr-bank", .number (.posInt 5)), ("tpm2-pcrs", .array [.number (.posInt 11)]),
    ("tpm2-policy-hash", .string "00"), ("type", .string "systemd-tpm2")]

/-- A token with a number for its bank is not for the configured bank, and passes. -/
theorem unnamed_bank_passes
    : ∃ config read, Config.volume "root" entry = .ok config
        ∧ Token.token 0 unnamed = .ok read
        ∧ sameSelection read config = .ok ()
        ∧ ¬ NamesBank unnamed config.bank.name := by
  refine ⟨⟨"root", "/dev/vda2", "auto", ⟨[11], by simp, by simp, by simp⟩, .sha256⟩,
    ⟨0, [11], none, [0], false, none⟩, ?_, ?_, ?_, ?_⟩
  · decide +kernel
  · decide +kernel
  · decide +kernel
  · rintro (named | ⟨absent, _⟩)
    · cases named
    · cases absent

end UnnamedBank

end Tpm2Autoenroll.Preflight
