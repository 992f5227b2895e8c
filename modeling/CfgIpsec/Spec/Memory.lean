import CfgIpsec.Framework.Run
import CfgIpsec.Impl.Memory
import CfgIpsec.Spec.Identity

/-!
# The lists that are kept in memory

A list in memory stands for a list of entries when the pointers lead over its
nodes, each once and in order, to `NULL` (`Represents`). A call changes both
alike: the one that works on memory (`SadMemOp`, `SpdMemOp`) and the one on the
list of entries that it is for. Some leave a node allocated that nothing leads to
any more (`Accounted`).
-/

namespace CfgIpsec.Spec

open Impl Linked

/-- From the first node on, the nodes of `s` follow one another, and then `q`. -/
structure RepresentsTo {α : Type} (q : Ptr) (m : MemStore α) (s : Store α) : Prop where
  chain : ∃ cs, Chain m.heap m.init cs q ∧ cs.map (·.2) = s.entries
  sent : m.sent = s.sent

/-- The list in memory is that of the entries of `s`. -/
abbrev Represents {α : Type} (m : MemStore α) (s : Store α) : Prop := RepresentsTo none m s

/-- The walks over a list in memory end, and see its entries. -/
structure Walkable {α : Type} (m : MemStore α) (entries : List α) : Prop where
  shows : showList m = some entries
  finds (test : α → Bool) : ∃ p, m.heap.find test m.heap.bound m.init = some p ∧
    p.bind (fun a => (m.heap.lookup a).map (·.val)) = entries.find? test

/-! ## Calls -/

/-- A call that changes the SAD list. -/
inductive SadMemOp
  | add (e : AddSadMem) (it : SrChangeIter) (xpath name : CStr)
  | remove (e : RemoveSadEnv) (m : Malloc SadEntryNode) (name : CStr)

def SadMemOp.step (m : MemStore SadEntryNode) : SadMemOp → Option (MemStore SadEntryNode)
  | .add e it xpath name => (addSadMem e m it xpath name).map (·.2.2)
  | .remove e b name => (removeSadMem e b m name).map (·.2)

/-- The call on the list of entries. -/
def SadMemOp.op : SadMemOp → SadOp
  | .add e it xpath name => .add e.toAddSadEnv it xpath name
  | .remove e _ name => .remove e name

/-- Where `malloc` puts the node of the call. -/
def SadMemOp.addr : SadMemOp → Addr
  | .add e .. => e.addr
  | .remove _ b _ => b.addr

/-- Removing the entries of a name takes out the first, and fails when there is
none. -/
structure RemovesFirst (m : MemStore SadEntryNode) (s : Store SadEntryNode) (name : CStr) : Prop where
  absent : (∀ n ∈ s.entries, n.name ≠ name) → ∀ e b, removeSadMem e b m name = some (.error .operationFailed, m)
  present : (∃ n ∈ s.entries, n.name = name) → ∀ e b, b.addr ∉ m.heap →
    ∃ pre n post msgs m', s.entries = pre ++ n :: post ∧ n.name = name ∧ (∀ k ∈ pre, k.name ≠ name) ∧
      removeSadMem e b m name = some (.ok (), m') ∧ Represents m' ⟨pre ++ post, s.sent ++ msgs⟩

/-- A call that changes the SPD list. -/
inductive SpdMemOp
  | add (e : AddSpdMem) (it : SrChangeIter) (xpath name : CStr)
  | remove (e : RemoveSpdEnv) (m : Malloc SpdEntryNode) (name : CStr)

def SpdMemOp.step (m : MemStore SpdEntryNode) : SpdMemOp → Option (MemStore SpdEntryNode)
  | .add e it xpath name => (addSpdMem e m it xpath name).map (·.2.2)
  | .remove e b name => (removeSpdMem e b m name).map (·.2)

/-- The call on the list of entries. -/
def SpdMemOp.op : SpdMemOp → SpdOp
  | .add e it xpath name => .add e.toAddSpdEnv it xpath name
  | .remove e _ name => .remove e name

/-- Where `malloc` puts the node of the call. -/
def SpdMemOp.addr : SpdMemOp → Addr
  | .add e .. => e.addr
  | .remove _ b _ => b.addr

/-- A call on the SPD list, with what it does to the list of its entries. -/
def SpdMemOp.stepBoth (s : MemStore SpdEntryNode × Store SpdEntryNode) (op : SpdMemOp) :
    Option (MemStore SpdEntryNode × Store SpdEntryNode) := do
  let m ← op.step s.1
  let t ← op.op.step s.2
  pure (m, t)

/-- Where the call on the list of entries returns, so does the one in memory,
when `malloc` returns a new block to it. -/
def SpdMemOp.Returns (s : MemStore SpdEntryNode × Store SpdEntryNode) (op : SpdMemOp) : Prop :=
  op.addr ∉ s.1.heap → (op.op.step s.2).isSome → (op.step s.1).isSome

/-- A node that is appended to a list with entries had `NULL` where its `next`
is, when `malloc` returned it. -/
def SpdMemOp.NullNext (s : MemStore SpdEntryNode × Store SpdEntryNode) : SpdMemOp → Prop
  | .add e it xpath name => s.2.entries ≠ [] → getSpdNode s.2.entries name = none → e.addr ∉ s.1.heap →
    (∃ it' s', addSpdEntry e.toAddSpdEnv s.2 it xpath name = some (.ok (), it', s')) → e.next = none
  | .remove .. => True

/-! ## Nodes that are lost -/

/-- The call creates the node of an entry. -/
def SadMemOp.creates (_ : MemStore SadEntryNode) : SadMemOp → Bool
  | .add .. => true
  | .remove .. => false

/-- The call is an addition that is refused, or a removal that is not. -/
def SadMemOp.loses (m : MemStore SadEntryNode) : SadMemOp → Bool
  | .add e it xpath name => (addSadMem e m it xpath name).any fun r => !r.1.isOk
  | .remove e b name => (removeSadMem e b m name).any fun r => r.1.isOk

/-- The call creates the node of an entry: the list has none of its name. -/
def SpdMemOp.creates (m : MemStore SpdEntryNode) : SpdMemOp → Bool
  | .add _ _ _ name => getNodePtr (·.name) m name = some none
  | .remove .. => false

/-- The call is an addition that is refused, or a removal that is not. -/
def SpdMemOp.loses (m : MemStore SpdEntryNode) : SpdMemOp → Bool
  | .add e it xpath name => (addSpdMem e m it xpath name).any fun r => !r.1.isOk
  | .remove e b name => (removeSpdMem e b m name).any fun r => r.1.isOk

/-- As many nodes are allocated as were created, and all but those lost are in
the list. -/
structure Accounted {α : Type} (m : MemStore α) (created lost : Nat) : Prop where
  allocated : m.heap.size = created
  shown : ∃ entries, showList m = some entries ∧ entries.length + lost = created

end CfgIpsec.Spec
