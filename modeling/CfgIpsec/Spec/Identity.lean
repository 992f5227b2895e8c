import Mathlib.Data.Multiset.Basic
import CfgIpsec.Framework.Ledger
import CfgIpsec.Impl.Entries
import CfgIpsec.Spec.Decode

/-!
# Which SA or policy a message is about

Identities as the kernel reads them from a request, and those the entries of
the lists ask for.
-/

namespace CfgIpsec.Spec

open Impl Ledger

/-- The messages of a type that were sent, by what they are about. -/
def sentIdents {ι : Type} (ident? : Bytes → Option ι) (type : BitVec 8) (sent : List Bytes) : Multiset ι :=
  ((sent.filter fun msg => msgType msg = type).filterMap ident? : List ι)

theorem sentIdents_append {ι : Type} (ident? : Bytes → Option ι) (type : BitVec 8) (ms ms' : List Bytes) :
    sentIdents ident? type (ms ++ ms') = sentIdents ident? type ms + sentIdents ident? type ms' := by
  rw [sentIdents, List.filter_append, List.filterMap_append]; rfl

theorem sentIdents_nil {ι : Type} (ident? : Bytes → Option ι) (type : BitVec 8) :
    sentIdents ident? type [] = 0 := rfl

theorem sentIdents_cons {ι : Type} {ident? : Bytes → Option ι} {type : BitVec 8} {msg : Bytes} {i : ι}
    (ms : List Bytes) (ht : msgType msg = type) (hi : ident? msg = some i) :
    sentIdents ident? type (msg :: ms) = {i} + sentIdents ident? type ms := by
  rw [sentIdents, List.filter_cons_of_pos (by simpa using ht), List.filterMap_cons_some hi]; rfl

theorem sentIdents_cons_of_ne {ι : Type} {ident? : Bytes → Option ι} {type : BitVec 8} {msg : Bytes}
    (ms : List Bytes) (ht : msgType msg ≠ type) :
    sentIdents ident? type (msg :: ms) = sentIdents ident? type ms := by
  rw [sentIdents, List.filter_cons_of_neg (by simpa using ht)]; rfl

/-- The address of a prefix in text. -/
def subnetIp (subnet : CStr) : BitVec 32 := (getIp subnet).elim INADDR_NONE inetAddr

/-- The text has two parts, an address and a mask. -/
def IsSubnet (s : CStr) : Prop := (getMask s).isSome ∧ (getIp s).isSome

/-- The messages about the entry can be made. -/
def SadRemovable (n : SadEntryNode) : Prop := IsSubnet n.localSubnet ∧ IsSubnet n.remoteSubnet

/-- The messages about the entry can be made. -/
def SpdRemovable (n : SpdEntryNode) : Prop := IsSubnet n.localSubnet ∧ IsSubnet n.remoteSubnet

/-! ## SAs -/

/-- The SA a message is about. -/
structure SaIdent where
  satype : BitVec 8
  spi : BitVec 32
  src : BitVec 32
  dst : BitVec 32
deriving DecidableEq

/-- The SA a message names. -/
def saIdent? (msg : Bytes) : Option SaIdent := do
  let sa ← decode sadbSa msg SADB_EXT_SA
  let src ← decode sadbAddress msg SADB_EXT_ADDRESS_SRC
  let dst ← decode sadbAddress msg SADB_EXT_ADDRESS_DST
  pure ⟨(sadbMsg.get msg).satype, sa.spi, src.sockaddr.addr, dst.sockaddr.addr⟩

/-- The SA of an entry between two addresses. -/
def saBetween (n : SadEntryNode) (src dst : BitVec 32) : SaIdent :=
  ⟨satypeOf n.protocolParameters, n.spi.setWidth 32, src, dst⟩

/-- The SA an entry asks for: between the tunnel's endpoints in tunnel mode,
else between its subnets. -/
def saWanted (n : SadEntryNode) : SaIdent :=
  if n.ipsecMode = IPSEC_MODE_TUNNEL then
    saBetween n (inetAddr n.tunnelLocal) (inetAddr n.tunnelRemote)
  else saBetween n (subnetIp n.localSubnet) (subnetIp n.remoteSubnet)

/-- The SAD list, and the SAs asked to be added and deleted. -/
def sadBook (s : Store SadEntryNode) : Book SadEntryNode SaIdent :=
  ⟨s.entries, sentIdents saIdent? SADB_ADD s.sent, sentIdents saIdent? SADB_DELETE s.sent⟩

/-- The ends of an entry are the same in tunnel mode as its subnets are. -/
def SameEnds (n : SadEntryNode) : Prop :=
  n.ipsecMode = IPSEC_MODE_TUNNEL →
    inetAddr n.tunnelLocal = subnetIp n.localSubnet ∧ inetAddr n.tunnelRemote = subnetIp n.remoteSubnet

instance (n : SadEntryNode) : Decidable (SameEnds n) := inferInstanceAs (Decidable (_ → _))

/-! ## Runs over the SAD list -/

/-- A call that changes the SAD list. -/
inductive SadOp
  | add (e : AddSadEnv) (it : SrChangeIter) (xpath name : CStr)
  | remove (e : RemoveSadEnv) (name : CStr)

def SadOp.step (s : Store SadEntryNode) : SadOp → Option (Store SadEntryNode)
  | .add e it xpath name => (addSadEntry e s it xpath name).map (·.2.2)
  | .remove e name => (removeSadEntry e s name).map (·.2)

/-- The entry that is removed, if any, has the same ends in either mode. -/
def RemovesSameEnds (s : Store SadEntryNode) : SadOp → Prop
  | .add .. => True
  | .remove _ name => ∀ n, getSadNode s.entries name = some n → SameEnds n

/-! ## Policies -/

/-- The policy a message is about. -/
structure SpIdent where
  dir : BitVec 8
  satype : BitVec 8
  action : BitVec 16
  proto : BitVec 8
  src : BitVec 32
  dst : BitVec 32
  srcLen : BitVec 8
  dstLen : BitVec 8
  sport : BitVec 16
  dport : BitVec 16
deriving DecidableEq

/-- The policy a message names. -/
def spIdent? (msg : Bytes) : Option SpIdent := do
  let policy ← decode sadbPolicy msg SADB_X_EXT_POLICY
  let src ← decode sadbAddress msg SADB_EXT_ADDRESS_SRC
  let dst ← decode sadbAddress msg SADB_EXT_ADDRESS_DST
  pure ⟨policy.dir, (sadbMsg.get msg).satype, policy.type, src.proto, src.sockaddr.addr, dst.sockaddr.addr,
    src.prefixlen, dst.prefixlen, src.sockaddr.port, dst.sockaddr.port⟩

/-- The length of a prefix in text. -/
def subnetLen (subnet : CStr) : BitVec 8 := (getMask subnet).elim 0 (·.setWidth 8)

/-- The policy of an entry in a direction. -/
def spIn (n : SpdEntryNode) (dir : BitVec 16) : SpIdent where
  dir := dir.setWidth 8
  satype := satypeOf n.protocolParameters
  action := n.action
  proto := n.innerProtocol.setWidth 8
  src := subnetIp n.localSubnet
  dst := subnetIp n.remoteSubnet
  srcLen := subnetLen n.localSubnet
  dstLen := subnetLen n.remoteSubnet
  sport := n.srcport.setWidth 16
  dport := n.dstport.setWidth 16

/-- The policies an entry asks for: an inbound one is also forwarded. -/
def spWants (n : SpdEntryNode) : Multiset SpIdent :=
  if n.policyDir = IPSEC_DIR_INBOUND then {spIn n IPSEC_DIR_INBOUND, spIn n IPSEC_DIR_FORWARD}
  else {spIn n n.policyDir}

/-- The SPD list, and the policies asked to be added and deleted. -/
def spdBook (s : Store SpdEntryNode) : Book SpdEntryNode SpIdent :=
  ⟨s.entries, sentIdents spIdent? SADB_X_SPDADD s.sent, sentIdents spIdent? SADB_X_SPDDELETE s.sent⟩

/-! ## Runs over the SPD list -/

/-- A call that changes the SPD list. -/
inductive SpdOp
  | add (e : AddSpdEnv) (it : SrChangeIter) (xpath name : CStr)
  | remove (e : RemoveSpdEnv) (name : CStr)

def SpdOp.step (s : Store SpdEntryNode) : SpdOp → Option (Store SpdEntryNode)
  | .add e it xpath name => (addSpdEntry e s it xpath name).map (·.2.2)
  | .remove e name => (removeSpdEntry e s name).map (·.2)

/-- The entries as they were configured: each as it was read, unless its name
was taken. -/
def SpdOp.configure (cfg : List SpdEntryNode) : SpdOp → List SpdEntryNode
  | .add e it xpath name =>
    if cfg.any (·.name = name) then cfg
    else match readSpdEntry it xpath ((createSpdNode e.node).setName name) with
      | some (.ok _, _, node) => cfg ++ [node]
      | _ => cfg
  | .remove _ name => cfg.eraseP (·.name = name)

/-- An entry but for the index the kernel gave it. -/
def unindexed (n : SpdEntryNode) : SpdEntryNode := { n with index := 0 }

/-- What holds of the SPD list and the policies asked for, when the entries of
the list were configured as `cfg`. -/
structure InStep (cfg : List SpdEntryNode) (s : Store SpdEntryNode) : Prop where
  names : (s.entries.map (·.name)).Nodup
  balanced : InBalance spWants (spdBook s)
  configured : s.entries.map unindexed = cfg.map unindexed

end CfgIpsec.Spec
