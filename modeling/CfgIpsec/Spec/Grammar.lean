import CfgIpsec.Framework.Tlv
import CfgIpsec.Impl.Wire

/-!
# The grammar of PF_KEY messages

After its header of two units, a message is a concatenation of extensions,
each with its length in units and its type in its first four bytes, of
pairwise different types between 1 and `SADB_EXT_MAX`.
-/

namespace CfgIpsec.Spec

open Impl Tlv

/-- How extensions tell their length and type. -/
def extFormat : Format Byte (BitVec 16) where
  unit := 8
  unit_pos := by decide
  size bs := (getLE bs 0 16).toNat
  type bs := getLE bs 2 16
  size_append ys h := by rw [getLE_append_left ys (by omega)]
  type_append ys h := by rw [getLE_append_left ys (by omega)]

/-- `sadb_msg_len`. -/
def msgUnits (msg : Bytes) : Nat := (getLE msg 4 16).toNat

/-- What a message has after its header. -/
def msgExts (msg : Bytes) : Bytes := (msg.drop 16).take (8 * (msgUnits msg - 2))

/-- `rs` are the extensions of which `ws` is the concatenation. -/
structure IsExts (ws : Bytes) (rs : List Bytes) : Prop where
  tiles : Tiles extFormat ws rs
  types : ∀ e ∈ rs, extFormat.type e ≠ 0 ∧ extFormat.type e ≤ SADB_EXT_MAX
  nodup : (rs.map extFormat.type).Nodup

theorem IsExts.unique {ws : Bytes} {rs rs' : List Bytes} (h : IsExts ws rs) (h' : IsExts ws rs') :
    rs = rs' := h.tiles.unique h'.tiles

end CfgIpsec.Spec
