import Tpm2Autoenroll.Model.Json
import Tpm2Autoenroll.Model.Text
import Tpm2Autoenroll.Sorting.Ascending

/-! Decoding the `systemd-tpm2` tokens of a LUKS2 header, as `token.rs` does. Running
`cryptsetup luksDump` to obtain the header is in `Repair`.
-/

namespace Tpm2Autoenroll.Token

open Json (Value)
open Text (Bytes)

/-- A `systemd-tpm2` token as it sits in the header. -/
structure Tpm2Token where
  index : UInt32
  /-- May be empty: an enrollment against no PCRs at all is legal. -/
  pcrs : List UInt8
  /-- Absent in very old enrollments. -/
  bank : Option String
  policyHash : Bytes
  pin : Bool
  /-- Why the policy is more than a literal PCR policy. -/
  advanced : Option String
  deriving DecidableEq

/-- Every key `tpm2_make_luks2_json()` writes. -/
def knownKeys : List String :=
  ["type", "keyslots", "tpm2-blob", "tpm2-pcrs", "tpm2-pcr-bank", "tpm2-primary-alg",
    "tpm2-policy-hash", "tpm2-pin", "tpm2_pcrlock", "tpm2_pubkey_pcrs", "tpm2_pubkey",
    "tpm2_salt", "tpm2_srk", "tpm2_pcrlock_nv"]

/-- Signed and pcrlock policies, and any field this build does not recognise. -/
def advanced (value : Value) : Option String :=
  match value.asObject with
  | none => none
  | some obj =>
      match obj.keys.find? fun key => !knownKeys.contains key with
      | some key => some s!"a field this build does not recognise ({Text.debug key})"
      | none =>
          if obj.containsKey "tpm2_pubkey" || obj.containsKey "tpm2_pubkey_pcrs" then
            some "a signed PCR policy"
          else if obj.containsKey "tpm2_pcrlock" || obj.containsKey "tpm2_pcrlock_nv" then
            some "a pcrlock policy"
          else none

/-- The loop of `pcr_list` over the array, in the order the header lists it. -/
def collectPcrs : List Value → Except String (List UInt8)
  | [] => .ok []
  | item :: rest =>
      match item.asU64 with
      | none => .error "\"tpm2-pcrs\" contains a non-integer"
      | some n =>
          if n > 23 then .error s!"\"tpm2-pcrs\" contains {n}, which is not a PCR index"
          else (collectPcrs rest).map fun pcrs => n.toUInt8 :: pcrs

/-- `sort_unstable` followed by `Vec::dedup`, which drops adjacent repeats. -/
def sortDedup (pcrs : List UInt8) : List UInt8 :=
  (pcrs.insertionSort (· ≤ ·)).destutter (· ≠ ·)

/-- Nothing changes in a selection that is ascending already. -/
theorem sortDedup_of_ascending {pcrs : List UInt8} (ascending : pcrs.Pairwise (· < ·))
    : sortDedup pcrs = pcrs :=
  Sorting.sortDedup_of_ascending ascending

def pcrList (value : Value) : Except String (List UInt8) :=
  match value.asArray with
  | none => .error "\"tpm2-pcrs\" is not an array"
  | some items => (collectPcrs items).map sortDedup

/-- `char::to_digit(16)` for the character of one byte. -/
def hexDigit (b : UInt8) : Option UInt8 :=
  if 0x30 ≤ b && b ≤ 0x39 then some (b - 0x30)
  else if 0x61 ≤ b && b ≤ 0x66 then some (b - 0x57)
  else if 0x41 ≤ b && b ≤ 0x46 then some (b - 0x37)
  else none

/-- The loop of `unhex` over pairs of bytes. -/
def unhexPairs : Bytes → Option Bytes
  | [] => some []
  | hi :: lo :: rest => do
      let hi ← hexDigit hi
      let lo ← hexDigit lo
      return (hi * 16 + lo) :: (← unhexPairs rest)
  | [_] => none

def unhex (text : String) : Option Bytes :=
  let bytes := Text.asBytes text
  if bytes.length % 2 ≠ 0 then none else unhexPairs bytes

/-- A field systemd writes either as a hex string or as an array of them; more than one
shard is an error.
-/
def singleShard (value : Value) (field : String) : Except String Bytes :=
  let text : Except String String :=
    match value with
    | .string s => .ok s
    | .array [item] =>
        match item.asStr with
        | some s => .ok s
        | none => .error s!"{Text.debug field} contains a non-string"
    | .array items =>
        .error s!"{Text.debug field} has {items.length} shards; only one is supported"
    | _ => .error s!"{Text.debug field} is neither a string nor an array"
  text.bind fun text =>
    match unhex text with
    | some bytes => .ok bytes
    | none => .error s!"{Text.debug field} is not valid hex"

def token (index : UInt32) (value : Value) : Except String Tpm2Token := do
  let pcrs ← match value.get "tpm2-pcrs" with
    | some v => pcrList v
    | none => pure []
  let bank := (value.get "tpm2-pcr-bank").bind Value.asStr
  let policyHash ← match value.get "tpm2-policy-hash" with
    | some v => singleShard v "tpm2-policy-hash"
    | none => throw s!"token {index} has no \"tpm2-policy-hash\""
  -- systemd writes tpm2-pin only when true, and a salt only exists alongside a PIN.
  let pin :=
    ((value.get "tpm2-pin").bind Value.asBool).getD false || (value.get "tpm2_salt").isSome
  return { index, pcrs, bank, policyHash, pin, advanced := advanced value }

/-- Whether a header token is one of systemd's TPM2 tokens. -/
def isTpm2 (value : Value) : Bool :=
  (value.get "type").bind Value.asStr == some "systemd-tpm2"

/-- The loop of `parse` over the members of "tokens". -/
def collectTokens : Json.Map → Except String (List Tpm2Token)
  | [] => .ok []
  | (key, value) :: rest => do
      if !isTpm2 value then
        collectTokens rest
      else
        let some index := Text.parseU32 key
          | throw s!"token key {Text.debug key} is not a number"
        let first ← token index value
        return first :: (← collectTokens rest)

/-- The tokens of a header that has been read as JSON, in index order. -/
def ofHeader (root : Value) : Except String (List Tpm2Token) :=
  match (root.get "tokens").bind Value.asObject with
  -- A header with no tokens at all omits the object entirely.
  | none => .ok []
  | some tokens =>
      (collectTokens tokens).map fun out => out.insertionSort fun a b => a.index ≤ b.index

def parse (fromStr : Json.Reader) (json : String) : Except String (List Tpm2Token) := do
  let root ← (fromStr json).mapError fun e => s!"not valid JSON: {e}"
  ofHeader root

end Tpm2Autoenroll.Token
