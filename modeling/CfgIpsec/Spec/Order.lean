import CfgIpsec.Spec.Capacity
import CfgIpsec.Spec.Protocols

/-!
# Changes of a SAD entry in any order

A change of an entry (`EntryChange`) is of any kind. What is asked of the changes
is that no leaf has two (`Once`), that the reader does not give up at an inner
protocol (`ProtocolAccepted`), and that the values are of their types (`Typed`).
-/

namespace CfgIpsec.Spec

open Impl
open CStr (lit)

/-- The quotes a name stands in. -/
inductive Quote
  | single
  | double
deriving DecidableEq

def Quote.byte : Quote → Byte
  | .single => 0x27
  | .double => 0x22

/-- The xpath of an entry, as sysrepo prints it. -/
def Quote.entryXpath (q : Quote) (name : CStr) : CStr :=
  lit "/ietf-i2nsf-ikeless:ipsec-ikeless/sad/sad-entry[name=" ++ .ofBuf [q.byte] ++ name ++ .ofBuf [q.byte] ++ lit "]"

/-- A change of a node below the entry at `x`. -/
structure EntryChange (x : CStr) where
  node : SchemaNode
  keys : List CStr
  data : SrData
  change : SrChange
  mem : node ∈ sadSchema
  noSlash : ∀ k ∈ keys, (0x2f : Byte) ∉ k.bytes
  value : change.value = some ⟨data, x ++ pathOf node.steps keys⟩

/-- The changes, as the reader steps through them. -/
def changeIter {x : CStr} (cs : List (EntryChange x)) : SrChangeIter := cs.map fun c => .ok c.change

/-- An entry may have many of the node: it is in a list other than those of port
ranges, of which there is one, or it is no leaf. -/
def repeats (node : SchemaNode) : Bool :=
  node.type = .inner || node.steps.any fun
    | .child _ => false
    | .item name => name ≠ lit "local-ports" ∧ name ≠ lit "remote-ports"

/-- No leaf has two changes. -/
def Once {x : CStr} (cs : List (EntryChange x)) : Prop := cs.Pairwise fun c d => c.node = d.node → repeats c.node = true

/-- The reader goes on after the inner protocol, if there is one. -/
def ProtocolAccepted {x : CStr} (cs : List (EntryChange x)) : Prop :=
  ∀ c ∈ cs, c.node = sadProtocolNode → c.data.uint16Val ≤ 256 ∨ c.data.text = some (lit "any")

/-- The values are of the types of their nodes. -/
structure Typed {x : CStr} (cs : List (EntryChange x)) : Prop where
  admits : ∀ c ∈ cs, c.node.type.admits c.data = true
  valid : ∀ c ∈ cs, c.node.Valid c.data

/-- From the changes in every order `readSAD_entry` makes the same of the node. -/
def ReadInAnyOrder {x : CStr} (cs : List (EntryChange x)) (n : SadEntryNode) : Prop :=
  ∃ r, ∀ ds, cs.Perm ds → readSadInRoom (changeIter ds) x n = some r

end CfgIpsec.Spec
