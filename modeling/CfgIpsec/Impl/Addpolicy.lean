import CfgIpsec.Impl.Pfkey
import CfgIpsec.Impl.Walk

/-!
# Adding a policy (`pf_addpolicy`)

After the request `pf_addpolicy` asks the kernel for its policies and looks
for its own among the replies, to take over the index the kernel gave it. What
it notes of a reply stays from one reply to the next, and starts as what was
on the stack (`Dump`).
-/

namespace CfgIpsec.Impl

/-- What the loop notes of the replies. -/
structure Dump where
  localSubnet : CStr
  remoteSubnet : CStr
  protocolParameters : BitVec 32
  action : BitVec 32
  policyDir : BitVec 32
  ipsecMode : BitVec 32
  index : BitVec 32

/-- The loop over the requests inside the policy at `policy`, with `off` below
the length `extlen` of the extension in bytes. A request of no length holds it
forever. -/
def walkRequests (buf : Bytes) (policy extlen : Nat) : Nat → Nat → Dump → Option Dump
  | 0, _, _ => none
  | fuel + 1, off, t =>
    if off < extlen then do
      let mode ← getLE? buf (policy + off + 4) 8
      let proto ← getLE? buf (policy + off + 2) 16
      let len ← getLE? buf (policy + off) 16
      walkRequests buf policy extlen fuel (off + len.toNat)
        { t with ipsecMode := mode.setWidth 32, protocolParameters := proto.setWidth 32 }
    else some t

/-- What the loop does at each extension of a reply. -/
def dumpVisit (buf : Bytes) (type : BitVec 16) (ext : Nat) (t : Dump) : Option Dump :=
  if type = SADB_X_EXT_POLICY then do
    let index ← getLE? buf (ext + 8) 32
    let action ← getLE? buf (ext + 4) 16
    let dir ← getLE? buf (ext + 6) 8
    let len ← extLen buf ext
    walkRequests buf ext (8 * len.toNat) (8 * len.toNat + 1) sadbPolicy.size
      { t with index := index, action := action.setWidth 32, policyDir := dir.setWidth 32 }
  else if type = SADB_EXT_ADDRESS_SRC then do
    let s ← sockNtop buf (ext + 8)
    pure { t with localSubnet := s }
  else if type = SADB_EXT_ADDRESS_DST then do
    let s ← sockNtop buf (ext + 8)
    pure { t with remoteSubnet := s }
  else some t

/-- The loop over the replies: the index the node ends with. Without a further
reply `read` does not return. -/
def dumpLoop (n : SpdEntryNode) : List (Option Bytes) → Buffer → Dump → Option (BitVec 32)
  | [], _, _ => none
  | r :: replies, buf, t => do
    let (buf, msglen) := readInto buf r
    let t ← walkExts (dumpVisit buf.bytes) buf.bytes PFKEY_BUFFER_SIZE (msglen - sadbMsg.size) sadbMsg.size t
    let localIp ← getIp n.localSubnet
    let remoteIp ← getIp n.remoteSubnet
    if localIp = t.localSubnet ∧ remoteIp = t.remoteSubnet ∧ n.policyDir.setWidth 32 = t.policyDir then
      pure t.index
    else if msgSeq buf.bytes = 0 then pure n.index
    else dumpLoop n replies buf t

/-- What a call of `pf_addpolicy` meets: the stack its lookup starts on, and
what the kernel replies. -/
structure AddpolicyEnv extends PolicyEnv where
  stack : Dump
  buf2 : Buffer
  replies : List (Option Bytes)

/-- `pf_addpolicy`: the messages it sends, and the node with its index. -/
def pfAddpolicy (e : AddpolicyEnv) (n : SpdEntryNode) : Option (List Bytes × SpdEntryNode) := do
  let msg ← addpolicyMessage e.toPolicyEnv n
  let index ← dumpLoop n e.replies e.buf2 e.stack
  pure ([msg, spddumpMessage e.pid n], { n with index := index })

end CfgIpsec.Impl
