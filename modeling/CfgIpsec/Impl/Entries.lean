import CfgIpsec.Impl.Addpolicy
import CfgIpsec.Impl.ReadSad
import CfgIpsec.Impl.ReadSpd

/-!
# The SAD and SPD lists (`sysrepo_entries.c`)

`Store` is a list of the daemon with the messages sent to the kernel for it so
far, oldest first. The entries of a list are found by name; adding appends.
-/

namespace CfgIpsec.Impl

/-- A list of nodes, and the messages sent to the kernel. -/
structure Store (α : Type) where
  entries : List α
  sent : List Bytes
deriving DecidableEq

/-- The empty list, with nothing sent. -/
def emptyStore {α : Type} : Store α := ⟨[], []⟩

/-- Messages are sent. -/
def Store.send {α : Type} (s : Store α) (msgs : List Bytes) : Store α :=
  { s with sent := s.sent ++ msgs }

section List

variable {α : Type} (name : α → CStr)

/-- The first node of the name (`get_sad_node`, `get_spd_node`). -/
def getNode (entries : List α) (x : CStr) : Option α := entries.find? fun n => name n = x

/-- What is written through a pointer to the first node of the name. -/
def setNode (x : CStr) (node : α) : List α → List α
  | [] => []
  | n :: entries => if name n = x then node :: entries else n :: setNode x node entries

/-- The search of `del_sad_node` and `del_spd_node` does not look for the end
of the list. -/
def delNode (x : CStr) : List α → Option (List α)
  | [] => none
  | n :: entries => if name n = x then some entries else (delNode x entries).map (n :: ·)

/-- `del_sad_node` and `del_spd_node`. -/
def delEntry (x : CStr) (entries : List α) : Option (Rc × List α) :=
  match entries with
  | [] => some (.error .operationFailed, [])
  | entries => (delNode name x entries).map fun entries => (.ok (), entries)

end List

/-! ## The SAD list -/

def getSadNode : List SadEntryNode → CStr → Option SadEntryNode := getNode (·.name)

/-- `get_sad_node_by_spi`. -/
def getSadNodeBySpi (entries : List SadEntryNode) (spi : BitVec 64) : Option SadEntryNode :=
  entries.find? fun n => n.spi = spi

def delSadNode : CStr → List SadEntryNode → Option (Rc × List SadEntryNode) := delEntry (·.name)

/-- What a call of `addSAD_entry` meets. -/
structure AddSadEnv where
  node : SadEntryNode
  add : MsgEnv
  get : MsgEnv

/-- What a call of `removeSAD_entry` meets. -/
structure RemoveSadEnv where
  get : MsgEnv
  del : MsgEnv

/-- `addSAD_entry`: the entry is appended before its message is sent. -/
def addSadEntry (e : AddSadEnv) (s : Store SadEntryNode) (it : SrChangeIter) (xpath name : CStr) :
    Option (Rc × SrChangeIter × Store SadEntryNode) := do
  let node := (createSadNode e.node).setName name
  match ← readSadEntry it xpath node with
  | (.error rc, it, _) => pure (.error rc, it, s)
  | (.ok _, it, node) => do
    let add ← pfAddsad e.add node
    let get ← pfGetsad e.get node
    pure (.ok (), it, { s with entries := s.entries ++ [node] }.send [add, get])

/-- `removeSAD_entry`. -/
def removeSadEntry (e : RemoveSadEnv) (s : Store SadEntryNode) (name : CStr) :
    Option (Rc × Store SadEntryNode) :=
  match getSadNode s.entries name with
  | none => some (.error .operationFailed, s)
  | some node => do
    let get ← pfGetsad e.get node
    let del ← pfDelsad e.del node
    let s := s.send [get, del]
    match ← delSadNode name s.entries with
    | (.ok _, entries) => pure (.ok (), { s with entries := entries })
    | (.error _, entries) => pure (.error .operationFailed, { s with entries := entries })

/-! ## The SPD list

For case 2, on Linux: an inbound policy is also installed in the direction of
forwarding, through the same node. -/

def getSpdNode : List SpdEntryNode → CStr → Option SpdEntryNode := getNode (·.name)

/-- `get_spd_node_by_index`. -/
def getSpdNodeByIndex (entries : List SpdEntryNode) (index : BitVec 32) : Option SpdEntryNode :=
  entries.find? fun n => n.index = index

def delSpdNode : CStr → List SpdEntryNode → Option (Rc × List SpdEntryNode) := delEntry (·.name)

/-- What a call of `addSPD_entry` meets. -/
structure AddSpdEnv where
  node : SpdEntryNode
  add : AddpolicyEnv
  forward : AddpolicyEnv

/-- What a call of `removeSPD_entry` meets. -/
structure RemoveSpdEnv where
  del : MsgEnv
  forward : MsgEnv

/-- The requests `addSPD_entry` makes for its node: the messages sent, and the
node they leave in the list. -/
def addPolicies (e : AddSpdEnv) (node : SpdEntryNode) : Option (List Bytes × SpdEntryNode) := do
  let (msgs, node) ← pfAddpolicy e.add node
  if node.policyDir = IPSEC_DIR_INBOUND then
    let node := { node with policyDir := IPSEC_DIR_FORWARD }
    let (msgs', node) ← pfAddpolicy e.forward node
    let node := { node with policyDir := IPSEC_DIR_INBOUND }
    pure (msgs ++ msgs', node)
  else pure (msgs, node)

/-- `addSPD_entry`: nothing is read for a name that is in the list. -/
def addSpdEntry (e : AddSpdEnv) (s : Store SpdEntryNode) (it : SrChangeIter) (xpath name : CStr) :
    Option (Rc × SrChangeIter × Store SpdEntryNode) :=
  if (getSpdNode s.entries name).isSome then some (.ok (), it, s)
  else do
    let node := (createSpdNode e.node).setName name
    match ← readSpdEntry it xpath node with
    | (.error rc, it, _) => pure (.error rc, it, s)
    | (.ok _, it, node) => do
      let (msgs, node) ← addPolicies e node
      pure (.ok (), it, { s with entries := s.entries ++ [node] }.send msgs)

/-- The requests `removeSPD_entry` makes for its node: the messages sent, and
the node they leave in the list. -/
def delPolicies (e : RemoveSpdEnv) (node : SpdEntryNode) : Option (List Bytes × SpdEntryNode) := do
  let del ← pfDelpolicy e.del node
  if node.policyDir = IPSEC_DIR_INBOUND then
    let node := { node with policyDir := IPSEC_DIR_FORWARD }
    let forward ← pfDelpolicy e.forward node
    let node := { node with policyDir := IPSEC_DIR_INBOUND }
    pure ([del, forward], node)
  else pure ([del], node)

/-- `removeSPD_entry`. -/
def removeSpdEntry (e : RemoveSpdEnv) (s : Store SpdEntryNode) (name : CStr) :
    Option (Rc × Store SpdEntryNode) :=
  match getSpdNode s.entries name with
  | none => some (.error .operationFailed, s)
  | some node => do
    let (msgs, node) ← delPolicies e node
    let (rc, entries) ← delSpdNode name (setNode (·.name) name node s.entries)
    pure (rc, { s with entries := entries }.send msgs)

end CfgIpsec.Impl
