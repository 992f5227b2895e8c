import CfgIpsec.Framework.Footprint
import CfgIpsec.Spec.Identity
import CfgIpsec.Spec.Transactions

/-!
# The system name by name

Of each name the system holds whether it is configured in the SPD and the nodes
of it in the SPD list, and likewise of the SAD (`systemView`): an entry that is
created together with one of the other database is put into both lists. A
transaction concerns the names of its entries. What the SPD callback did for a
transaction before it came to the entry that it refuses is not undone: `Leaves`
is what that comes to, in whatever transactions follow.
-/

namespace CfgIpsec.Spec

open Impl Footprint Run

/-- The nodes of a name, in the order of the list. -/
def ofName {α : Type} (name : α → CStr) (x : CStr) (entries : List α) : List α := entries.filter fun n => name n = x

/-- A list, name by name, and the messages sent for it in whatever order. -/
def listView {α : Type} (name : α → CStr) : View (Store α) CStr (Multiset Bytes) fun _ => List α where
  held s x := ofName name x s.entries
  out s := s.sent

/-- Whether a name is configured, and the nodes of it, in the SPD and in the SAD. -/
def systemView : View System CStr (Multiset Bytes × Multiset Bytes)
    fun _ => (Bool × List SpdEntryNode) × Bool × List SadEntryNode where
  held s x := ((decide (x ∈ s.config.spd), ofName (·.name) x s.spd.entries),
    (decide (x ∈ s.config.sad), ofName (·.name) x s.sad.entries))
  out s := (s.spd.sent, s.sad.sent)

/-- The names of the entries of items. -/
def itemNames {xpath : CStr → CStr} (items : List (Item xpath)) : List CStr := items.map (·.block.name)

/-- The names of the entries of a transaction. -/
def Transaction.names (t : Transaction) : List CStr := t.items.map (·.item.block.name)

/-- The transactions are about entries of different names. -/
def Apart (t u : Transaction) : Prop := ∀ x ∈ t.names, x ∉ u.names

/-- The lists have the same nodes, those of one name in the same order, and the
same messages were sent for them. -/
structure SameNodes {α : Type} (name : α → CStr) (s t : Store α) : Prop where
  nodes : s.entries.Perm t.entries
  order : ∀ x, ofName name x s.entries = ofName name x t.entries
  sent : s.sent.Perm t.sent

/-- The same entries are configured, and the lists have the same nodes. -/
structure SameByName (s t : System) : Prop where
  config : s.config = t.config
  spd : SameNodes (·.name) s.spd t.spd
  sad : SameNodes (·.name) s.sad t.sad

/-! ## After a refused transaction -/

/-- Each transaction of a run fits. -/
def AllFit (ts : List Transaction) (s : System) : Prop := Along System.step (fun s t => t.Fits s) ts s

/-- The transaction deletes the entry of the SPD. -/
def Transaction.DeletesSpd (t : Transaction) (x : CStr) : Prop := ∃ b, .deleted b ∈ t.spd ∧ b.name = x

/-- What is left of an item of a transaction that led from `s` to `s'`. A created
entry has the node that the list had of its name, or else the one that its
values were read as, as long as it is not deleted, whatever it is created with
from then on. A deleted entry has no node, and stays configured. -/
def Leaves (s s' : System) : Item spdEntryXpath → Prop
  | .created b => ∃ n, (ofName (·.name) b.name s.spd.entries = [n] ∨
      ofName (·.name) b.name s.spd.entries = [] ∧ ∃ m, ReadFrom spdReader b m ∧ unindexed n = unindexed m) ∧
    ∀ ts, AllFit ts s' → (∀ t ∈ ts, ¬t.DeletesSpd b.name) →
      Always System.step (fun s => ofName (·.name) b.name s.spd.entries = [n]) ts s'
  | .deleted b => ∀ ts, AllFit ts s' →
    Always System.step (fun s => b.name ∈ s.config.spd ∧ ofName (·.name) b.name s.spd.entries = []) ts s'

end CfgIpsec.Spec
