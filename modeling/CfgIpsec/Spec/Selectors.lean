import CfgIpsec.Impl.Addpolicy
import CfgIpsec.Spec.Replies
import CfgIpsec.Spec.Decode

/-!
# Policies in a dump

What the kernel tells of its policies (`SpdReply`), what of it the lookup of
`pf_addpolicy` can read (`Reply.Readable`), which policy has the direction and the
selector of a node (`Selects`), and which the lookup takes for the node's (`Near`).
-/

namespace CfgIpsec.Spec

open Impl

/-- A reply with the two addresses of a policy, and the policy with its
requests. -/
structure SpdReply extends Reply where
  src : Bytes
  src_mem : src ∈ exts
  src_type : extFormat.type src = SADB_EXT_ADDRESS_SRC
  src_size : sadbAddress.size ≤ src.length
  dst : Bytes
  dst_mem : dst ∈ exts
  dst_type : extFormat.type dst = SADB_EXT_ADDRESS_DST
  dst_size : sadbAddress.size ≤ dst.length
  policy : Bytes
  policy_mem : policy ∈ exts
  policy_type : extFormat.type policy = SADB_X_EXT_POLICY
  policy_size : sadbPolicy.size ≤ policy.length
  requests : List Bytes
  requests_eq : policy.drop sadbPolicy.size = requests.flatten
  whole : ∀ q ∈ requests, sadbIpsecrequest.size ≤ q.length ∧ q.length = (sadbIpsecrequest.get q).len.toNat

namespace SpdReply

variable (r : SpdReply)

def source : SadbAddress := sadbAddress.get r.src
def destination : SadbAddress := sadbAddress.get r.dst
def dir : Byte := (sadbPolicy.get r.policy).dir
def id : BitVec 32 := (sadbPolicy.get r.policy).id

/-- Both addresses are of IPv4. -/
def Ipv4 : Prop := r.source.sockaddr.family = AF_INET ∧ r.destination.sockaddr.family = AF_INET

instance : Decidable r.Ipv4 := inferInstanceAs (Decidable (_ ∧ _))

end SpdReply

/-- A node whose subnets are prefixes of IPv4. -/
structure Ipv4Node where
  node : SpdEntryNode
  localAddr : BitVec 32
  localLen : Nat
  local_text : IsPrefixText node.localSubnet (inetNtop localAddr) localLen
  remoteAddr : BitVec 32
  remoteLen : Nat
  remote_text : IsPrefixText node.remoteSubnet (inetNtop remoteAddr) remoteLen

/-- An address extension is one end of a selector. `sameProtocol` says which
number the kernel shows for an inner protocol. -/
structure IsEnd (sameProtocol : BitVec 32 → Byte → Prop) (a : SadbAddress) (addr : BitVec 32) (len : Nat)
    (port protocol : BitVec 32) : Prop where
  family : a.sockaddr.family = AF_INET
  addr : a.sockaddr.addr = addr
  prefixlen : a.prefixlen.toNat = len
  port : a.sockaddr.port.setWidth 32 = port
  protocol : sameProtocol protocol a.proto

/-- The policy has the direction and the full selector of the node. -/
structure Selects (sameProtocol : BitVec 32 → Byte → Prop) (n : Ipv4Node) (r : SpdReply) : Prop where
  dir : r.dir.setWidth 32 = n.node.policyDir.setWidth 32
  src : IsEnd sameProtocol r.source n.localAddr n.localLen n.node.srcport n.node.innerProtocol
  dst : IsEnd sameProtocol r.destination n.remoteAddr n.remoteLen n.node.dstport n.node.innerProtocol

/-- A dump in which exactly one policy has the direction and the selector of the
node. -/
structure SpdLookup where
  node : Ipv4Node
  dump : DumpOf SpdReply SpdReply.toReply
  sameProtocol : BitVec 32 → Byte → Prop
  before : List SpdReply
  own : SpdReply
  after : List SpdReply
  replies : dump.replies = before ++ own :: after
  selected : Selects sameProtocol node own
  others : ∀ r ∈ before ++ after, ¬Selects sameProtocol node r

/-- `pf_addpolicy` leaves the node with the id of that policy, when its lookup
meets the dump and whatever is in the socket after it. -/
def FindsOwn (e : PolicyEnv) (stack : Dump) (buf : Buffer) (l : SpdLookup) (rest : List (Option Bytes)) : Prop :=
  (pfAddpolicy { e with stack := stack, buf2 := buf, replies := l.dump.datagrams ++ rest } l.node.node).map
    (·.2.index) = some l.own.id

/-- The policy has the direction and the addresses of the node, and no ports. -/
def Near (n : Ipv4Node) (r : SpdReply) : Prop :=
  r.dir.setWidth 32 = n.node.policyDir.setWidth 32 ∧
    (r.source.sockaddr.addr = n.localAddr ∧ r.source.sockaddr.port = 0) ∧
    (r.destination.sockaddr.addr = n.remoteAddr ∧ r.destination.sockaddr.port = 0)

instance (n : Ipv4Node) (r : SpdReply) : Decidable (Near n r) := inferInstanceAs (Decidable (_ ∧ _ ∧ _))

/-- The first reply that is near the node or not of IPv4 is both near it and of
IPv4, and has the id of the node's policy; or there is none, and the node has
had that id before. -/
def NearFirst (l : SpdLookup) : Prop :=
  match l.dump.replies.find? (fun r => Near l.node r ∨ ¬r.Ipv4) with
  | some r => r.Ipv4 ∧ r.id = l.own.id
  | none => l.node.node.index = l.own.id

end CfgIpsec.Spec
