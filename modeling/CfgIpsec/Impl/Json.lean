import Mathlib.Data.Rat.Floor
import CfgIpsec.Framework.Rounding
import CfgIpsec.Impl.Node

/-!
# The nodes in JSON (`sad_entry.c`)

Of parson, which is not part of the repository, stands what the code calls
(`Parson`) and what it relies on (`Parson.Lawful`): an object is a map, a number a
`double`, a string UTF-8. A `Fault` is what the language does not define; the run
ends with it. That memory is freed is left out.
-/

namespace CfgIpsec.Impl

open Rounding

/-- Whether a string is UTF-8. -/
def validUtf8 (s : CStr) : Bool := (ByteArray.mk (s.bytes.map UInt8.ofBitVec).toArray).validateUTF8

/-- A `JSON_Value`, with the pointers to an array or an object that it is. -/
inductive JsonValue (Object Items : Type)
  | null
  | string (s : CStr)
  | number (x : Rat)
  | boolean (b : Bool)
  | array (items : Items)
  | object (o : Object)

namespace JsonValue

variable {Object Items : Type}

def string? : JsonValue Object Items → Option CStr
  | .string s => some s
  | _ => none

def number? : JsonValue Object Items → Option Rat
  | .number x => some x
  | _ => none

def boolean? : JsonValue Object Items → Option Bool
  | .boolean b => some b
  | _ => none

def items? : JsonValue Object Items → Option Items
  | .array items => some items
  | _ => none

end JsonValue

/-- What the code uses of parson. A `JSON_Object *` and a `JSON_Array *` are `none`
when they are `NULL`, and a `double` is the number that it is. -/
structure Parson where
  Object : Type
  Items : Type
  /-- `json_value_init_object`. -/
  init : Object
  /-- `json_object_set_string`. -/
  setString : Object → String → CStr → Object
  /-- `json_object_set_number`. -/
  setNumber : Object → String → Rat → Object
  /-- `json_object_set_boolean`. -/
  setBoolean : Object → String → Bool → Object
  /-- `json_object_get_value`. -/
  getValue : Object → String → Option (JsonValue Object Items)
  /-- `json_object_get_string`. -/
  getString : Option Object → String → Option CStr
  /-- `json_object_get_number`. -/
  getNumber : Option Object → String → Rat
  /-- `json_object_get_boolean`. -/
  getBoolean : Option Object → String → Int
  /-- `json_object_get_array`. -/
  getArray : Option Object → String → Option Items
  /-- `json_array_get_count`. -/
  getCount : Option Items → Nat
  /-- `json_array_get_object`. -/
  getObject : Option Items → Nat → Option Object

/-- What the code relies on: a key has the value that was set for it last, a string
is refused unless it is UTF-8, and what is absent or of another type is `NULL`, `0`
or `JSONError`. -/
structure Parson.Lawful (p : Parson) : Prop where
  getValue_init (key : String) : p.getValue p.init key = none
  getValue_setString (o : p.Object) (key : String) (s : CStr) (key' : String) :
    p.getValue (p.setString o key s) key' =
      if key' = key ∧ validUtf8 s = true then some (.string s) else p.getValue o key'
  getValue_setNumber (o : p.Object) (key : String) (x : Rat) (key' : String) :
    p.getValue (p.setNumber o key x) key' = if key' = key then some (.number x) else p.getValue o key'
  getValue_setBoolean (o : p.Object) (key : String) (b : Bool) (key' : String) :
    p.getValue (p.setBoolean o key b) key' = if key' = key then some (.boolean b) else p.getValue o key'
  getString_eq (o : Option p.Object) (key : String) :
    p.getString o key = (o.bind (p.getValue · key)).bind JsonValue.string?
  getNumber_eq (o : Option p.Object) (key : String) :
    p.getNumber o key = ((o.bind (p.getValue · key)).bind JsonValue.number?).getD 0
  getBoolean_eq (o : Option p.Object) (key : String) :
    p.getBoolean o key = ((o.bind (p.getValue · key)).bind JsonValue.boolean?).elim (-1) fun b => if b then 1 else 0
  getArray_eq (o : Option p.Object) (key : String) :
    p.getArray o key = (o.bind (p.getValue · key)).bind JsonValue.items?
  getCount_null : p.getCount none = 0

inductive Fault
  /-- A store to `sad_entries[i]` that is outside the array. -/
  | outside (i : Nat)
  /-- `strcpy` from the string of a key, which is `NULL`. -/
  | nullString (key : String)
  /-- A number that the type it is assigned to has no place for. -/
  | outOfRange
deriving DecidableEq

/-- What becomes of a number that its type has no place for, which the language does
not define: some value, or a fault. -/
structure Assign where
  outOfRange : (w : Nat) → Rat → Except Fault (BitVec w)

namespace Assign

/-- A number that is assigned to an unsigned integer of `w` bits. -/
def toUnsigned (e : Assign) (w : Nat) (x : Rat) : Except Fault (BitVec w) :=
  if -1 < x ∧ x < 2 ^ w then .ok (BitVec.ofNat w x.floor.toNat) else e.outOfRange w x

/-- A number that is assigned to an `int`. -/
def toInt (e : Assign) (x : Rat) : Except Fault (BitVec 32) :=
  if -2 ^ 31 - 1 < x ∧ x < 2 ^ 31 then .ok (BitVec.ofInt 32 (x.num.tdiv x.den)) else e.outOfRange 32 x

/-- What is not defined ends the run. -/
def strict : Assign := ⟨fun _ _ => .error .outOfRange⟩

/-- What is not defined is some value. -/
def lenient (value : (w : Nat) → Rat → BitVec w) : Assign := ⟨fun w x => .ok (value w x)⟩

end Assign

/-- An unsigned integer is converted to the nearest `double`. -/
def toDouble (x : Nat) : Rat := (roundEven 53 x : Nat)

namespace Parson

variable (p : Parson)

/-- `strcpy(…, json_object_get_string(o, key))`. -/
def copyString (o : Option p.Object) (key : String) : Except Fault CStr :=
  match p.getString o key with
  | some s => .ok s
  | none => .error (.nullString key)

/-- A boolean that is assigned to a `bool`. -/
def getBool (o : Option p.Object) (key : String) : Bool := p.getBoolean o key ≠ 0

/-- `serialize_sad_node`. -/
def serializeSadNode (n : SadEntryNode) : p.Object :=
  p.init
    |> (p.setString · "name" n.name)
    |> (p.setNumber · "req_id" (toDouble n.reqId.toNat))
    |> (p.setNumber · "spi" (toDouble n.spi.toNat))
    |> (p.setBoolean · "ext_seq_num" n.extSeqNum)
    |> (p.setBoolean · "seq_overflow" n.seqOverflow)
    |> (p.setNumber · "seq_number_counter" (toDouble n.seqNumberCounter.toNat))
    |> (p.setNumber · "anti_replay_window" (toDouble n.antiReplayWindow.toNat))
    |> (p.setString · "local_subnet" n.localSubnet)
    |> (p.setString · "remote_subnet" n.remoteSubnet)
    |> (p.setString · "tunnel_local" n.tunnelLocal)
    |> (p.setString · "tunnel_remote" n.tunnelRemote)
    |> (p.setNumber · "inner_protocol" (toDouble n.innerProtocol.toNat))
    |> (p.setNumber · "srcport" (toDouble n.srcport.toNat))
    |> (p.setNumber · "dstport" (toDouble n.dstport.toNat))
    |> (p.setNumber · "ipsec_mode" (toDouble n.ipsecMode.toNat))
    |> (p.setNumber · "protocol_parameters" (toDouble n.protocolParameters.toNat))
    |> (p.setNumber · "integrity_alg" (toDouble n.integrityAlg.toNat))
    |> (p.setNumber · "encryption_alg" (toDouble n.encryptionAlg.toNat))
    |> (p.setNumber · "encryption_key_length" (toDouble n.encryptionKeyLength.toNat))
    |> (p.setString · "encryption_key" n.encryptionKey)
    |> (p.setString · "integrity_key" n.integrityKey)
    |> (p.setString · "encryption_iv" n.encryptionIv)
    |> (p.setBoolean · "bypass_dscp" n.bypassDscp)
    |> (p.setBoolean · "ecn" n.ecn)
    |> (p.setBoolean · "tfc_pad" n.tfcPad)
    |> (p.setNumber · "df_bit" (toDouble n.dfBit.toNat))
    |> (p.setNumber · "lft_bytes_hard" (toDouble n.lftBytesHard.toNat))
    |> (p.setNumber · "lft_bytes_soft" (toDouble n.lftBytesSoft.toNat))
    |> (p.setNumber · "lft_bytes_current" (toDouble n.lftBytesCurrent.toNat))
    |> (p.setNumber · "lft_packets_hard" (toDouble n.lftPacketsHard.toNat))
    |> (p.setNumber · "lft_packets_soft" (toDouble n.lftPacketsSoft.toNat))
    |> (p.setNumber · "lft_packets_current" (toDouble n.lftPacketsCurrent.toNat))
    |> (p.setNumber · "lft_time_hard" (toDouble n.lftTimeHard.toNat))
    |> (p.setNumber · "lft_time_soft" (toDouble n.lftTimeSoft.toNat))
    |> (p.setNumber · "lft_time_current" (toDouble n.lftTimeCurrent.toNat))
    |> (p.setNumber · "lft_idle_hard" (toDouble n.lftIdleHard.toNat))
    |> (p.setNumber · "lft_idle_soft" (toDouble n.lftIdleSoft.toNat))
    |> (p.setNumber · "lft_idle_current" (toDouble n.lftIdleCurrent.toNat))

/-- `deserialize_sad_node`. -/
def deserializeSadNode (e : Assign) (malloc : SadEntryNode) (schema : Option p.Object) : Except Fault SadEntryNode := do
  let name ← p.copyString schema "name"
  let reqId ← e.toUnsigned 64 (p.getNumber schema "req_id")
  let spi ← e.toUnsigned 64 (p.getNumber schema "spi")
  let extSeqNum := p.getBool schema "ext_seq_num"
  let seqOverflow := p.getBool schema "seq_overflow"
  let seqNumberCounter ← e.toUnsigned 64 (p.getNumber schema "seq_number_counter")
  let antiReplayWindow ← e.toUnsigned 64 (p.getNumber schema "anti_replay_window")
  let localSubnet ← p.copyString schema "local_subnet"
  let remoteSubnet ← p.copyString schema "remote_subnet"
  let tunnelLocal ← p.copyString schema "tunnel_local"
  let tunnelRemote ← p.copyString schema "tunnel_remote"
  let innerProtocol ← e.toUnsigned 32 (p.getNumber schema "inner_protocol")
  let srcport ← e.toUnsigned 32 (p.getNumber schema "srcport")
  let dstport ← e.toUnsigned 32 (p.getNumber schema "dstport")
  let ipsecMode ← e.toUnsigned 16 (p.getNumber schema "ipsec_mode")
  let protocolParameters ← e.toUnsigned 16 (p.getNumber schema "protocol_parameters")
  let integrityAlg ← e.toUnsigned 32 (p.getNumber schema "integrity_alg")
  let encryptionAlg ← e.toUnsigned 32 (p.getNumber schema "encryption_alg")
  let encryptionKeyLength ← e.toUnsigned 32 (p.getNumber schema "encryption_key_length")
  let encryptionKey ← p.copyString schema "encryption_key"
  let integrityKey ← p.copyString schema "integrity_key"
  let encryptionIv ← p.copyString schema "encryption_iv"
  let bypassDscp := p.getBool schema "bypass_dscp"
  let ecn := p.getBool schema "ecn"
  let tfcPad := p.getBool schema "tfc_pad"
  let dfBit ← e.toUnsigned 16 (p.getNumber schema "df_bit")
  let lftBytesHard ← e.toUnsigned 64 (p.getNumber schema "lft_bytes_hard")
  let lftBytesSoft ← e.toUnsigned 64 (p.getNumber schema "lft_bytes_soft")
  let lftBytesCurrent ← e.toUnsigned 64 (p.getNumber schema "lft_bytes_current")
  let lftPacketsHard ← e.toUnsigned 64 (p.getNumber schema "lft_packets_hard")
  let lftPacketsSoft ← e.toUnsigned 64 (p.getNumber schema "lft_packets_soft")
  let lftPacketsCurrent ← e.toUnsigned 64 (p.getNumber schema "lft_packets_current")
  let lftTimeHard ← e.toUnsigned 64 (p.getNumber schema "lft_time_hard")
  let lftTimeSoft ← e.toUnsigned 64 (p.getNumber schema "lft_time_soft")
  let lftTimeCurrent ← e.toUnsigned 64 (p.getNumber schema "lft_time_current")
  let lftIdleHard ← e.toUnsigned 64 (p.getNumber schema "lft_idle_hard")
  let lftIdleSoft ← e.toUnsigned 64 (p.getNumber schema "lft_idle_soft")
  let lftIdleCurrent ← e.toUnsigned 64 (p.getNumber schema "lft_idle_current")
  pure { createSadNode malloc with
    name, reqId, spi, extSeqNum, seqOverflow, seqNumberCounter, antiReplayWindow, localSubnet, remoteSubnet,
    tunnelLocal, tunnelRemote, innerProtocol, srcport, dstport, ipsecMode, protocolParameters, integrityAlg,
    encryptionAlg, encryptionKeyLength, encryptionKey, integrityKey, encryptionIv, bypassDscp, ecn, tfcPad,
    dfBit, lftBytesHard, lftBytesSoft, lftBytesCurrent, lftPacketsHard, lftPacketsSoft, lftPacketsCurrent,
    lftTimeHard, lftTimeSoft, lftTimeCurrent, lftIdleHard, lftIdleSoft, lftIdleCurrent }

end Parson

end CfgIpsec.Impl
