import CfgIpsec.Framework.Linked
import CfgIpsec.Impl.Entries

/-!
# The lists in memory (`sysrepo_entries.c`, `spd_entry.c`, `sad_entry.c`)

The nodes of a list are blocks of `malloc` linked by `next`, from
`init_sad_node` or `init_spd_node` on. A walk that follows `NULL` or comes to
a block that is not allocated, and one that never ends, have no result
(`none`), and the call it is made in has none; neither does a call for which
`malloc` would return a block in use.
-/

namespace CfgIpsec.Impl

open Linked

/-- A list of the daemon in memory, and the messages sent to the kernel. -/
structure MemStore (α : Type) where
  heap : Heap α
  init : Ptr
  sent : List Bytes

/-- Nothing is allocated. -/
def MemStore.start {α : Type} : MemStore α := ⟨∅, none, []⟩

def MemStore.send {α : Type} (s : MemStore α) (msgs : List Bytes) : MemStore α := { s with sent := s.sent ++ msgs }

/-- A block that `malloc` returns for a node: where it is, and what it holds. -/
structure Malloc (α : Type) where
  addr : Addr
  node : α
  next : Ptr

/-- `create_sad_node`. -/
def createSadCell (m : Malloc SadEntryNode) : Cell SadEntryNode := ⟨createSadNode m.node, none⟩

/-- `create_spd_node`: `next` stays as `malloc` left it. -/
def createSpdCell (m : Malloc SpdEntryNode) : Cell SpdEntryNode := ⟨createSpdNode m.node, m.next⟩

section List

variable {α : Type} (name : α → CStr) (create : Malloc α → Cell α)

/-- A node is created. -/
def createNode (m : Malloc α) (s : MemStore α) : Option (MemStore α) :=
  if (s.heap.lookup m.addr).isSome then none else some { s with heap := s.heap.insert m.addr (create m) }

/-- What is written to the fields of a node. -/
def writeNode (a : Addr) (node : α) (s : MemStore α) : Option (MemStore α) :=
  (s.heap.setVal a node).map fun h => { s with heap := h }

/-- `add_sad_node` and `add_spd_node`. -/
def addNode (a : Addr) (s : MemStore α) : Option (MemStore α) :=
  if s.init = none then do
    let h ← s.heap.setNext a none
    pure { s with heap := h, init := some a }
  else do
    let node ← s.heap.last s.heap.bound s.init
    let h ← s.heap.setNext node (some a)
    pure { s with heap := h }

/-- `get_sad_node` and `get_spd_node`. -/
def getNodePtr (s : MemStore α) (x : CStr) : Option Ptr :=
  s.heap.find (fun n => name n = x) s.heap.bound s.init

/-- `show_sad_list` and `show_spd_list`: the nodes shown. -/
def showList (s : MemStore α) : Option (List α) := s.heap.values s.heap.bound s.init

/-- The list is shown, where a call does that before it returns. -/
def shown (s : MemStore α) : Option (MemStore α) := (showList s).map fun _ => s

/-- `del_sad_node` and `del_spd_node`. The node before the first is a new one,
which is freed when the first is taken out; the first itself is not freed. -/
def delMemNode (m : Malloc α) (x : CStr) (s : MemStore α) : Option (Rc × MemStore α) :=
  if s.init = none then some (.error .operationFailed, s)
  else do
    let s ← createNode create m s
    let (prev, node) ← s.heap.seek (fun n => name n = x) s.heap.bound m.addr s.init
    let c ← s.heap.lookup node
    if s.init = some node then
      let h ← s.heap.free prev
      pure (.ok (), { s with heap := h, init := c.next })
    else if name c.val = x then
      let h ← s.heap.setNext prev c.next
      let h ← h.free node
      pure (.ok (), { s with heap := h })
    else pure (.ok (), s)

end List

/-! ## The SAD list -/

/-- What a call of `addSAD_entry` meets. -/
structure AddSadMem extends AddSadEnv where
  addr : Addr
  next : Ptr

/-- `addSAD_entry`. -/
def addSadMem (e : AddSadMem) (s : MemStore SadEntryNode) (it : SrChangeIter) (xpath name : CStr) :
    Option (Rc × SrChangeIter × MemStore SadEntryNode) := do
  let s ← createNode createSadCell ⟨e.addr, e.node, e.next⟩ s
  let (rc, it, node) ← readSadEntry it xpath ((createSadNode e.node).setName name)
  let s ← writeNode e.addr node s
  match rc with
  | .error rc => pure (.error rc, it, s)
  | .ok _ => do
    let s ← addNode e.addr s
    let c ← s.heap.lookup e.addr
    let add ← pfAddsad e.add c.val
    let get ← pfGetsad e.get c.val
    let s ← shown (s.send [add, get])
    pure (.ok (), it, s)

/-- `removeSAD_entry`, with the node that `del_sad_node` creates. -/
def removeSadMem (e : RemoveSadEnv) (m : Malloc SadEntryNode) (s : MemStore SadEntryNode) (name : CStr) :
    Option (Rc × MemStore SadEntryNode) := do
  match ← getNodePtr (·.name) s name with
  | none => do
    let s ← shown s
    pure (.error .operationFailed, s)
  | some node => do
    let c ← s.heap.lookup node
    let get ← pfGetsad e.get c.val
    let del ← pfDelsad e.del c.val
    let (rc, s) ← delMemNode (·.name) createSadCell m name (s.send [get, del])
    let s ← shown s
    match rc with
    | .ok _ => pure (.ok (), s)
    | .error _ => pure (.error .operationFailed, s)

/-! ## The SPD list -/

/-- `get_spd_node_by_index`. -/
def getSpdNodePtrByIndex (s : MemStore SpdEntryNode) (index : BitVec 32) : Option Ptr :=
  s.heap.find (fun n => n.index = index) s.heap.bound s.init

/-- What a call of `addSPD_entry` meets. -/
structure AddSpdMem extends AddSpdEnv where
  addr : Addr
  next : Ptr

/-- `addSPD_entry`. -/
def addSpdMem (e : AddSpdMem) (s : MemStore SpdEntryNode) (it : SrChangeIter) (xpath name : CStr) :
    Option (Rc × SrChangeIter × MemStore SpdEntryNode) := do
  match ← getNodePtr (·.name) s name with
  | some _ => pure (.ok (), it, s)
  | none => do
    let s ← createNode createSpdCell ⟨e.addr, e.node, e.next⟩ s
    let (rc, it, node) ← readSpdEntry it xpath ((createSpdNode e.node).setName name)
    let s ← writeNode e.addr node s
    match rc with
    | .error rc => pure (.error rc, it, s)
    | .ok _ => do
      let s ← addNode e.addr s
      let c ← s.heap.lookup e.addr
      let (msgs, node) ← addPolicies e.toAddSpdEnv c.val
      let s ← writeNode e.addr node s
      let s ← shown (s.send msgs)
      pure (.ok (), it, s)

/-- `removeSPD_entry`, with the node that `del_spd_node` creates. -/
def removeSpdMem (e : RemoveSpdEnv) (m : Malloc SpdEntryNode) (s : MemStore SpdEntryNode) (name : CStr) :
    Option (Rc × MemStore SpdEntryNode) := do
  match ← getNodePtr (·.name) s name with
  | none => do
    let s ← shown s
    pure (.error .operationFailed, s)
  | some node => do
    let c ← s.heap.lookup node
    let (msgs, n) ← delPolicies e c.val
    let s ← writeNode node n s
    let (rc, s) ← delMemNode (·.name) createSpdCell m name s
    let s ← shown (s.send msgs)
    pure (rc, s)

end CfgIpsec.Impl
