import CfgIpsec.Spec.Reaches

/-!
# Which leaves of a SAD entry take effect

The leaves of an entry that say how its SA is to be (`SaLeaf`), the number, flag
or text that each has as its value (`SaLeaf.value`), and the field of a node
that is for it (`SaLeaf.field`).
-/

namespace CfgIpsec.Spec

open Impl
open CStr (lit)

inductive SaLeaf
  | reqid
  | spi
  | extSeqNum
  | seqOverflow
  | antiReplayWindowSize
  | localPrefix
  | remotePrefix
  | protocolParameters
  | mode
  | encryptionAlgorithm
  | integrityAlgorithm
  | dfBit
  | bypassDscp
  | ecn
  | localEnd
  | remoteEnd
deriving DecidableEq

namespace SaLeaf

def name : SaLeaf → CStr
  | reqid => lit "reqid"
  | spi => lit "spi"
  | extSeqNum => lit "ext-seq-num"
  | seqOverflow => lit "seq-overflow"
  | antiReplayWindowSize => lit "anti-replay-window-size"
  | localPrefix => lit "local-prefix"
  | remotePrefix => lit "remote-prefix"
  | protocolParameters => lit "protocol-parameters"
  | mode => lit "mode"
  | encryptionAlgorithm => lit "encryption-algorithm"
  | integrityAlgorithm => lit "integrity-algorithm"
  | dfBit => lit "df-bit"
  | bypassDscp => lit "bypass-dscp"
  | ecn => lit "ecn"
  | localEnd => lit "local"
  | remoteEnd => lit "remote"

/-- The node is the leaf. -/
def At (l : SaLeaf) (node : SchemaNode) : Prop := node.steps.getLast? = some (.child l.name)

instance (l : SaLeaf) : DecidablePred l.At := fun _ => inferInstanceAs (Decidable (_ = _))

/-- The value an entry has for a leaf; the last one, if there are several. -/
def valueIn (l : SaLeaf) (entry : List Setting) : Option SrData :=
  entry.reverse.findSome? fun s => if l.At s.node then some s.data else none

/-- The numbers that stand for the values of an enumeration. -/
def codes : SaLeaf → List (CStr × BitVec 16)
  | protocolParameters => [(lit "esp", IPSEC_PROTO_ESP)]
  | mode => [(lit "transport", IPSEC_MODE_TRANSPORT), (lit "tunnel", IPSEC_MODE_TUNNEL)]
  | dfBit => [(lit "clear", IPSEC_DF_BIT_CLEAR), (lit "set", IPSEC_DF_BIT_SET), (lit "copy", IPSEC_DF_BIT_COPY)]
  | _ => []

end SaLeaf

/-- What a leaf or a field of a node holds. -/
inductive Datum
  | number (x : Int)
  | flag (b : Bool)
  | text (s : CStr)
deriving DecidableEq

namespace SaLeaf

def value (l : SaLeaf) (d : SrData) : Datum :=
  match l with
  | extSeqNum | seqOverflow | bypassDscp | ecn => .flag (d.raw = 1)
  | localPrefix | remotePrefix | localEnd | remoteEnd => .text (d.text.getD (lit ""))
  | protocolParameters | mode | dfBit => .number ((d.text.bind fun s => List.lookup s l.codes).getD 0).toNat
  | reqid | spi | antiReplayWindowSize | encryptionAlgorithm | integrityAlgorithm => .number d.raw.toNat

def field (n : SadEntryNode) : SaLeaf → Datum
  | reqid => .number n.reqId.toNat
  | spi => .number n.spi.toNat
  | extSeqNum => .flag n.extSeqNum
  | seqOverflow => .flag n.seqOverflow
  | antiReplayWindowSize => .number n.antiReplayWindow.toNat
  | localPrefix => .text n.localSubnet
  | remotePrefix => .text n.remoteSubnet
  | protocolParameters => .number n.protocolParameters.toNat
  | mode => .number n.ipsecMode.toNat
  | encryptionAlgorithm => .number n.encryptionAlg.toInt
  | integrityAlgorithm => .number n.integrityAlg.toInt
  | dfBit => .number n.dfBit.toNat
  | bypassDscp => .flag n.bypassDscp
  | ecn => .flag n.ecn
  | localEnd => .text n.tunnelLocal
  | remoteEnd => .text n.tunnelRemote

end SaLeaf

/-- Every leaf that occurs in the entry has its value in its field. -/
def LeavesHeld (entry : List Setting) (n : SadEntryNode) : Prop :=
  ∀ (l : SaLeaf) (d : SrData), l.valueIn entry = some d → l.field n = l.value d

/-- The messages that add the SA have the window of the entry, if it is of 1 to
255 packets. -/
def WindowSent (entry : List Setting) (n : SadEntryNode) : Prop :=
  ∀ d, SaLeaf.antiReplayWindowSize.valueIn entry = some d → 1 ≤ d.raw.toNat → d.raw.toNat ≤ 255 →
    ∀ e msg, pfAddsad e n = some msg → (decode sadbSa msg SADB_EXT_SA).map (·.replay.toNat) = some d.raw.toNat

/-- The leaf takes effect with this value: a window only when it is of zero
packets, an algorithm when a `short` holds its number. -/
def SaLeaf.Reaches (l : SaLeaf) (d : SrData) : Prop :=
  match l with
  | antiReplayWindowSize => d.raw = 0
  | encryptionAlgorithm | integrityAlgorithm => d.raw.toNat < 2 ^ 15
  | _ => True

def LeavesReach (entry : List Setting) : Prop :=
  ∀ (l : SaLeaf) (d : SrData), l.valueIn entry = some d → l.Reaches d

end CfgIpsec.Spec
