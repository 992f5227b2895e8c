import CfgIpsec.Impl.Pfkey
import CfgIpsec.Impl.Sysrepo
import CfgIpsec.Impl.Walk

/-!
# Current lifetimes (`pf_get_sad_lifetime_current_by_spi`)

The function asks the kernel for its SAs and looks for that of a node among the
replies. The counters of every reply it reads are written into the node.
-/

namespace CfgIpsec.Impl

/-- What the loop keeps: `i`, and the node. -/
structure Search where
  found : Bool
  node : SadEntryNode
deriving DecidableEq

/-- What the loop does at each extension of a reply. -/
def lifetimeVisit (buf : Bytes) (type : BitVec 16) (ext : Nat) (s : Search) : Option Search :=
  if type = SADB_EXT_SA then do
    let spi ← getBE? buf (ext + 4) 32
    if spi.setWidth 64 = s.node.spi then pure { s with found := true } else pure s
  else if type = SADB_EXT_LIFETIME_CURRENT then do
    let allocations ← getLE? buf (ext + 4) 32
    let bytes ← getLE? buf (ext + 8) 64
    let addtime ← getLE? buf (ext + 16) 64
    let usetime ← getLE? buf (ext + 24) 64
    pure { s with
      node := { s.node with
        lftPacketsCurrent := allocations.setWidth 64
        lftBytesCurrent := bytes
        lftTimeCurrent := addtime
        lftIdleCurrent := if usetime = 0 then 0 else usetime } }
  else some s

/-- The loop over the replies: the result and the node. Without a further reply
`read` does not return. -/
def lifetimeLoop : List (Option Bytes) → Buffer → Search → Option (Rc × SadEntryNode)
  | [], _, _ => none
  | r :: replies, buf, s => do
    let (buf, msglen) := readInto buf r
    let msg := sadbMsg.get buf.bytes
    if msglen ≠ 8 * msg.len.toNat then pure (.error .operationFailed, s.node)
    else if msg.version ≠ PF_KEY_V2 then pure (.error .operationFailed, s.node)
    else if msglen = sadbMsg.size then pure (.error .operationFailed, s.node)
    else
      let s ← walkExts (lifetimeVisit buf.bytes) buf.bytes PFKEY_BUFFER_SIZE (msglen - sadbMsg.size) sadbMsg.size s
      if s.found then pure (.ok (), s.node)
      else if msgSeq buf.bytes = 0 then pure (.error .notFound, s.node)
      else lifetimeLoop replies buf s

/-- The request for the SAs of the kernel. -/
def sadDumpMessage (pid : BitVec 32) : Bytes :=
  message { version := PF_KEY_V2, type := SADB_DUMP, satype := SADB_SATYPE_UNSPEC, pid := pid } []

/-- What a call meets: the process, its buffer and the replies of the kernel. -/
structure LifetimeEnv where
  pid : BitVec 32
  stack : Buffer
  replies : List (Option Bytes)

/-- `pf_get_sad_lifetime_current_by_spi`: the message it sends, its result, and
the node. -/
def pfGetSadLifetimeCurrentBySpi (e : LifetimeEnv) (node : SadEntryNode) : Option (Bytes × Rc × SadEntryNode) := do
  let (rc, node) ← lifetimeLoop e.replies e.stack ⟨false, node⟩
  pure (sadDumpMessage e.pid, rc, node)

end CfgIpsec.Impl
