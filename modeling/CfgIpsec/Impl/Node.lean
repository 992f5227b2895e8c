import CfgIpsec.Impl.Constants
import CfgIpsec.Impl.Libc

/-!
# The nodes of the SAD and SPD lists (`sad_entry.h`, `spd_entry.h`)

The lists themselves are Lean lists, so a node has no `next`. The creators
take what `malloc` left in the node and in the buffers it points to, and set
only the fields the code sets.
-/

namespace CfgIpsec.Impl

structure SadEntryNode where
  name : CStr
  reqId : BitVec 64
  spi : BitVec 64
  extSeqNum : Bool
  seqOverflow : Bool
  seqNumberCounter : BitVec 64
  antiReplayWindow : BitVec 64
  localSubnet : CStr
  remoteSubnet : CStr
  tunnelLocal : CStr
  tunnelRemote : CStr
  innerProtocol : BitVec 32
  srcport : BitVec 32
  dstport : BitVec 32
  ipsecMode : BitVec 16
  protocolParameters : BitVec 16
  integrityAlg : BitVec 32
  encryptionAlg : BitVec 32
  encryptionKeyLength : BitVec 32
  encryptionKey : CStr
  integrityKey : CStr
  encryptionIv : CStr
  bypassDscp : Bool
  ecn : Bool
  tfcPad : Bool
  dfBit : BitVec 16
  lftBytesHard : BitVec 64
  lftBytesSoft : BitVec 64
  lftBytesCurrent : BitVec 64
  lftPacketsHard : BitVec 64
  lftPacketsSoft : BitVec 64
  lftPacketsCurrent : BitVec 64
  lftTimeHard : BitVec 64
  lftTimeSoft : BitVec 64
  lftTimeCurrent : BitVec 64
  lftIdleHard : BitVec 64
  lftIdleSoft : BitVec 64
  lftIdleCurrent : BitVec 64
deriving DecidableEq, Inhabited

structure SpdEntryNode where
  name : CStr
  index : BitVec 32
  policyDir : BitVec 16
  reqId : BitVec 64
  localSubnet : CStr
  remoteSubnet : CStr
  tunnelLocal : CStr
  tunnelRemote : CStr
  innerProtocol : BitVec 32
  srcport : BitVec 32
  dstport : BitVec 32
  action : BitVec 16
  extSeqNum : Bool
  seqOverflow : Bool
  ipsecMode : BitVec 16
  protocolParameters : BitVec 16
  integrityAlg : BitVec 32
  encryptionAlg : BitVec 32
  antiReplayWindow : BitVec 64
  pfpFlag : Bool
  statefulFragCheck : Bool
  bypassDscp : Bool
  ecn : Bool
  tfcPad : Bool
  dfBit : BitVec 16
deriving DecidableEq, Inhabited

/-- `create_sad_node`: the strings and `encryption_key_length` stay as `malloc`
left them. -/
def createSadNode (malloc : SadEntryNode) : SadEntryNode :=
  { malloc with
    reqId := 0, spi := 0, extSeqNum := false, seqOverflow := false, seqNumberCounter := 0
    antiReplayWindow := 0, innerProtocol := 0, srcport := 0, dstport := 0, ipsecMode := 0
    protocolParameters := 0, integrityAlg := 0, encryptionAlg := 0, bypassDscp := false
    ecn := false, tfcPad := false, dfBit := 0
    lftBytesHard := 0, lftBytesSoft := 0, lftBytesCurrent := 0
    lftPacketsHard := 0, lftPacketsSoft := 0, lftPacketsCurrent := 0
    lftTimeHard := 0, lftTimeSoft := 0, lftTimeCurrent := 0
    lftIdleHard := 0, lftIdleSoft := 0, lftIdleCurrent := 0 }

/-- `create_spd_node`: the strings stay as `malloc` left them. -/
def createSpdNode (malloc : SpdEntryNode) : SpdEntryNode :=
  { malloc with
    index := 0, policyDir := 0, reqId := 0, innerProtocol := 0, srcport := 0, dstport := 0
    action := 0, extSeqNum := false, seqOverflow := false, ipsecMode := 0, protocolParameters := 0
    integrityAlg := 0, encryptionAlg := 0, antiReplayWindow := 0, pfpFlag := false
    statefulFragCheck := false, bypassDscp := false, ecn := false, tfcPad := false, dfBit := 0 }

/-- `strcpy(sad_node->name, name)`. -/
def SadEntryNode.setName (n : SadEntryNode) (name : CStr) : SadEntryNode := { n with name := name }

/-- `strcpy(spd_node->name, name)`. -/
def SpdEntryNode.setName (n : SpdEntryNode) (name : CStr) : SpdEntryNode := { n with name := name }

@[simp] theorem SadEntryNode.name_setName (n : SadEntryNode) (x : CStr) : (n.setName x).name = x := rfl
@[simp] theorem SpdEntryNode.name_setName (n : SpdEntryNode) (x : CStr) : (n.setName x).name = x := rfl

end CfgIpsec.Impl
