import CfgIpsec.Impl.Json

/-!
# Messages that are received (`messages.c`)

The data of a message is an object that parson has made of it, and the nodes of its
entries are allocated as they are read.
-/

namespace CfgIpsec.Impl

/-- `new_config_msg`; an entry is `none` when its pointer was not set. -/
structure NewConfigMsg where
  entriesId : BitVec 32
  sadEntries : Vector (Option SadEntryNode) 2
deriving DecidableEq

/-- What the decoder meets: what `malloc` leaves in the nodes, and what becomes of
numbers that have no place. -/
structure DecodeEnv extends Assign where
  malloc : Nat → SadEntryNode

namespace Parson

variable (p : Parson)

/-- The loop of `decode_new_config_msg`, from `i` on, over as many elements. -/
def decodeEntries (e : DecodeEnv) (entries : Option p.Items) : Nat → Nat → NewConfigMsg → Except Fault NewConfigMsg
  | 0, _, msg => .ok msg
  | k + 1, i, msg => do
    let node ← p.deserializeSadNode e.toAssign (e.malloc i) (p.getObject entries i)
    if h : i < 2 then decodeEntries e entries k (i + 1) { msg with sadEntries := msg.sadEntries.set i (some node) }
    else .error (.outside i)

/-- `decode_new_config_msg`: the result, and the message. -/
def decodeNewConfigMsg (e : DecodeEnv) (schema : Option p.Object) (msg : NewConfigMsg) :
    Except Fault (Int × NewConfigMsg) := do
  let entriesId ← e.toInt (p.getNumber schema "entries_id")
  let msg := { msg with entriesId := entriesId }
  let entries := p.getArray schema "sad_entries"
  -- the count is a `size_t`, and `n_elements` an `int`
  let nElements := (BitVec.ofNat 32 (p.getCount entries)).toInt
  let msg ← p.decodeEntries e entries nElements.toNat 0 msg
  pure (0, msg)

end Parson

end CfgIpsec.Impl
