import Tpm2Autoenroll.Model.Json
import Tpm2Autoenroll.Model.TpmWire

/-! The configuration file of `config.rs`: the volumes the daemon may act on and the policy
each is enrolled against.
-/

namespace Tpm2Autoenroll

/-- A configured PCR selection: ascending, without repeats, within range, never empty. -/
structure PcrSelection where
  list : List UInt8
  ascending : list.Pairwise (· < ·)
  inRange : ∀ pcr ∈ list, pcr ≤ 23
  nonempty : list ≠ []
  deriving DecidableEq

structure Volume where
  /-- The mapper name. Also what the socket is named after. -/
  name : String
  /-- The backing block device. -/
  device : String
  /-- "auto" or an absolute path. -/
  tpm2Device : String
  pcrs : PcrSelection
  bank : Tpm2.Bank
  deriving DecidableEq

namespace Config

open Json (Value)
open Tpm2 (Bank)

def defaultPath : String := "/etc/tpm2-autoenroll/config.json"

def maxPcr : UInt64 := 23

/-- `BTreeSet::insert`, with the set as its ascending list. -/
def insertPcr (pcr : UInt8) : List UInt8 → List UInt8
  | [] => [pcr]
  | first :: rest =>
      if pcr < first then pcr :: first :: rest
      else if pcr = first then first :: rest
      else first :: insertPcr pcr rest

/-- Insertion adds one member, by induction on the set. -/
theorem mem_insertPcr {pcr other : UInt8} {set : List UInt8}
    : other ∈ insertPcr pcr set ↔ other = pcr ∨ other ∈ set := by
  induction set with
  | nil => simp [insertPcr]
  | cons first rest ih =>
      simp only [insertPcr]
      split_ifs <;> simp_all [or_left_comm]

/-- Insertion keeps the set ascending, by induction on the set. -/
theorem insertPcr_ascending {pcr : UInt8} {set : List UInt8}
    (ascending : set.Pairwise (· < ·))
    : (insertPcr pcr set).Pairwise (· < ·) := by
  induction set with
  | nil => simp [insertPcr]
  | cons first rest ih =>
      obtain ⟨above, tail⟩ := List.pairwise_cons.mp ascending
      simp only [insertPcr]
      split_ifs with below same
      · refine List.pairwise_cons.mpr ⟨?_, ascending⟩
        intro other member
        rcases List.mem_cons.mp member with rfl | later
        · exact below
        · exact UInt8.lt_trans below (above other later)
      · exact ascending
      · refine List.pairwise_cons.mpr ⟨?_, ih tail⟩
        intro other member
        rcases mem_insertPcr.mp member with rfl | later
        · grind
        · exact above other later

/-- The loop of `pcrs` over the array, adding to the registers seen so far. -/
def collectPcrs : List Value → List UInt8 → Except String (List UInt8)
  | [], seen => .ok seen
  | item :: rest, seen =>
      match item.asU64 with
      | none => .error "\"pcrs\" contains a non-integer"
      | some n =>
          if n > maxPcr then .error s!"\"pcrs\" contains {n}, which is not a PCR index"
          else collectPcrs rest (insertPcr n.toUInt8 seen)

/-- The collected registers stay ascending and within range, by induction on the array. -/
theorem collectPcrs_valid {items : List Value} {seen collected : List UInt8}
    (result : collectPcrs items seen = .ok collected)
    (ascending : seen.Pairwise (· < ·)) (inRange : ∀ pcr ∈ seen, pcr ≤ 23)
    : collected.Pairwise (· < ·) ∧ ∀ pcr ∈ collected, pcr ≤ 23 := by
  induction items generalizing seen with
  | nil =>
      cases result
      exact ⟨ascending, inRange⟩
  | cons item rest ih =>
      cases number : item.asU64 with
      | none => simp [collectPcrs, number] at result
      | some n =>
          by_cases large : n > maxPcr
          · simp [collectPcrs, number, large] at result
          · simp only [collectPcrs, number, large, if_false] at result
            refine ih result (insertPcr_ascending ascending) ?_
            intro pcr member
            rcases mem_insertPcr.mp member with rfl | earlier
            · simp only [maxPcr, UInt64.lt_iff_toNat_lt, UInt8.le_iff_toNat_le,
                UInt64.toNat_toUInt8, UInt64.reduceToNat, UInt8.reduceToNat] at large ⊢
              omega
            · exact inRange pcr earlier

def pcrs (value : Value) : Except String PcrSelection :=
  match value.asArray with
  | none => .error "\"pcrs\" is not an array"
  | some items =>
      match collected : collectPcrs items [] with
      | .error e => .error e
      | .ok list =>
          if empty : list = [] then
            -- A policy over no PCRs unseals unconditionally.
            .error "\"pcrs\" is empty"
          else
            have valid := collectPcrs_valid collected (by simp) (by simp)
            .ok ⟨list, valid.1, valid.2, empty⟩

def string (obj : Json.Map) (key : String) : Except String (Option String) :=
  match obj.get key with
  | none => .ok none
  | some v =>
      match v.asStr with
      | some s => .ok (some s)
      | none => .error s!"{Text.debug key} is not a string"

def isVolumeKey (key : String) : Bool :=
  key == "device" || key == "tpm2_device" || key == "pcrs" || key == "pcr_bank"

def volume (name : String) (value : Value) : Except String Volume := do
  -- The name becomes a path component under the socket directory.
  if name = "" ∨ '/' ∈ name.toList ∨ name = "." ∨ name = ".." then
    throw "not a usable volume name"
  let some obj := value.asObject | throw "not an object"
  if let some key := obj.keys.find? fun key => !isVolumeKey key then
    throw s!"unrecognised key {Text.debug key}"
  let some device ← string obj "device" | throw "no \"device\""
  if !Text.startsWith device '/' then
    throw s!"\"device\" {Text.debug device} is not an absolute path"
  let tpm2Device := (← string obj "tpm2_device").getD "auto"
  if tpm2Device ≠ "auto" ∧ !Text.startsWith tpm2Device '/' then
    throw
      s!"\"tpm2_device\" {Text.debug tpm2Device} is neither \"auto\" nor an absolute path"
  let some listed := obj.get "pcrs" | throw "no \"pcrs\""
  let selected ← pcrs listed
  let bank ← match ← string obj "pcr_bank" with
    | some b =>
        match Bank.fromName b with
        | some bank => pure bank
        | none => throw s!"unrecognised \"pcr_bank\" {Text.debug b}"
    | none => pure Bank.sha256
  return { name, device, tpm2Device, pcrs := selected, bank }

/-- The volumes that passed validation, and why each rejected one did not. -/
structure Loaded where
  volumes : List Volume
  rejected : List String

/-- What one member of "volumes" adds. -/
def Loaded.add (loaded : Loaded) (name : String) (value : Value) : Loaded :=
  match volume name value with
  | .ok v => { loaded with volumes := loaded.volumes ++ [v] }
  | .error e =>
      { loaded with rejected := loaded.rejected ++ [s!"volume {Text.debug name}: {e}"] }

def parse (fromStr : Json.Reader) (text : String) : Except String Loaded := do
  let root ← (fromStr text).mapError fun e => s!"not valid JSON: {e}"
  let some obj := root.asObject | throw "top level is not an object"
  if let some key := obj.keys.find? fun key => key ≠ "volumes" then
    throw s!"unrecognised top-level key {Text.debug key}"
  let some listed := obj.get "volumes" | throw "no \"volumes\" key"
  let some volumes := listed.asObject | throw "\"volumes\" is not an object"
  return volumes.foldl (fun loaded member => loaded.add member.1 member.2) ⟨[], []⟩

/-- `0+1+7`, the way systemd writes a selection. -/
def pcrList (pcrs : List UInt8) : String := "+".intercalate (pcrs.map toString)

end Config

end Tpm2Autoenroll
