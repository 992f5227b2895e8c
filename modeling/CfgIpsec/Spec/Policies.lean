import CfgIpsec.Impl.Addpolicy

/-!
# The policy extension of a message

What the walk of `pf_addpolicy` over the requests inside a policy visits
(`Walks`), and what a policy extension has to carry of the node it was built
from (`CarriesPolicy`).
-/

namespace CfgIpsec.Spec

open Impl

/-- The walk over the requests of a policy of `extlen` bytes, from `off` on,
visits the requests at `offs` and ends at `stop`. -/
inductive Walks (buf : Bytes) (policy extlen : Nat) : Nat → List Nat → Nat → Prop
  | stop {off : Nat} (h : extlen ≤ off) : Walks buf policy extlen off [] off
  | visit {off stop : Nat} {offs : List Nat} {len : BitVec 16} (h : off < extlen)
      (hlen : getLE? buf (policy + off) 16 = some len) (rest : Walks buf policy extlen (off + len.toNat) offs stop) :
      Walks buf policy extlen off (off :: offs) stop

/-- What the walk notes of the request at `off`. -/
def noteRequest (buf : Bytes) (policy : Nat) (t : Dump) (off : Nat) : Option Dump := do
  let mode ← getLE? buf (policy + off + 4) 8
  let proto ← getLE? buf (policy + off + 2) 16
  pure { t with ipsecMode := mode.setWidth 32, protocolParameters := proto.setWidth 32 }

/-- The endpoints of a tunnel follow the head of the request `req`, and are all
that does. -/
structure HasEndpoints (n : SpdEntryNode) (req : Bytes) : Prop where
  len : (sadbIpsecrequest.get req).len = 48
  src : (sockaddrIn.get (req.drop 16)).addr = inetAddr n.tunnelLocal
  dst : (sockaddrIn.get (req.drop 32)).addr = inetAddr n.tunnelRemote

/-- The policy extension of `buf` at `policy` carries the node: the walk visits
one request and ends where the extension does, what it notes is of the node,
and the request has the node's `req_id` and, in tunnel mode only, its
endpoints. -/
structure CarriesPolicy (n : SpdEntryNode) (buf : Bytes) (policy : Nat) : Prop where
  walks : ∃ len, extLen buf policy = some len ∧
    Walks buf policy (8 * len.toNat) sadbPolicy.size [sadbPolicy.size] (8 * len.toNat)
  notes (t : Dump) : dumpVisit buf SADB_X_EXT_POLICY policy t = some { t with
    index := n.index
    action := n.action.setWidth 32
    policyDir := (n.policyDir.setWidth 8).setWidth 32
    ipsecMode := (n.ipsecMode.setWidth 8).setWidth 32
    protocolParameters := n.protocolParameters.setWidth 32 }
  reqid : (sadbIpsecrequest.get (buf.drop (policy + sadbPolicy.size))).reqid = n.reqId.setWidth 32
  level : (sadbIpsecrequest.get (buf.drop (policy + sadbPolicy.size))).level = IPSEC_LEVEL_UNIQUE ↔ n.reqId ≠ 0
  endpoints : HasEndpoints n (buf.drop (policy + sadbPolicy.size)) ↔ n.ipsecMode = IPSEC_MODE_TUNNEL

/-- Two address extensions name the same end of a policy. -/
structure SameEnd (a b : SadbAddress) : Prop where
  proto : a.proto = b.proto
  prefixlen : a.prefixlen = b.prefixlen
  addr : a.sockaddr.addr = b.sockaddr.addr
  port : a.sockaddr.port = b.sockaddr.port

end CfgIpsec.Spec
