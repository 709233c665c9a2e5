import Mathlib.Data.List.Basic

/-! The JSON values that serde_json hands to the daemon, and the accessors it uses. The
reader itself is third-party code and stays a parameter of the model.
-/

namespace Tpm2Autoenroll.Json

/-- `serde_json::Number`; no code of the daemon looks inside a floating-point one. -/
inductive Number
  | posInt (n : UInt64)
  | negInt (n : Int)
  | float (bits : UInt64)
  deriving DecidableEq

/-- `serde_json::Value`. An object lists its members in the order of its map, which
holds each key once.
-/
inductive Value
  | null
  | bool (b : Bool)
  | number (n : Number)
  | string (s : String)
  | array (items : List Value)
  | object (members : List (String × Value))

/-- `serde_json::Map<String, Value>`. -/
abbrev Map := List (String × Value)

/-- The text reader, `serde_json::from_str`. -/
abbrev Reader := String → Except String Value

namespace Map

/-- `Map::get`. -/
def get (members : Map) (key : String) : Option Value :=
  (members.find? fun member => member.1 == key).map Prod.snd

/-- `Map::keys`. -/
def keys (members : Map) : List String := members.map Prod.fst

/-- `Map::contains_key`. -/
def containsKey (members : Map) (key : String) : Bool := (members.get key).isSome

end Map

namespace Value

/-- `Value::as_object`. -/
def asObject : Value → Option Map
  | .object members => some members
  | _ => none

/-- `Value::as_array`. -/
def asArray : Value → Option (List Value)
  | .array items => some items
  | _ => none

/-- `Value::as_str`. -/
def asStr : Value → Option String
  | .string s => some s
  | _ => none

/-- `Value::as_bool`. -/
def asBool : Value → Option Bool
  | .bool b => some b
  | _ => none

/-- `Value::as_u64`. -/
def asU64 : Value → Option UInt64
  | .number (.posInt n) => some n
  | _ => none

/-- `Value::get` with a key: a member of an object, nothing for any other value. -/
def get (value : Value) (key : String) : Option Value :=
  value.asObject.bind fun members => members.get key

end Value

/-- A key is present exactly when it is among the keys. -/
theorem Map.containsKey_iff {members : Map} {key : String}
    : members.containsKey key = true ↔ key ∈ members.keys := by
  simp [containsKey, get, keys]

/-- A member found under a key is one of the object's members. -/
theorem Map.mem_of_get {members : Map} {key : String} {value : Value}
    (found : members.get key = some value)
    : (key, value) ∈ members := by
  obtain ⟨⟨name, held⟩, located, rfl⟩ := Option.map_eq_some_iff.mp found
  have named : name = key := by simpa using List.find?_some located
  subst named
  exact List.mem_of_find?_eq_some located

end Tpm2Autoenroll.Json
