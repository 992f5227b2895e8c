import Mathlib.Data.Finset.Basic
import CfgIpsec.Framework.Run
import CfgIpsec.Spec.Databases
import CfgIpsec.Spec.YangSpd

/-!
# Transactions

The callbacks subscribe to the entries of their lists, that of the SPD with the
higher priority. sysrepo tells of a transaction those to whose list it has
entries, one after the other, and commits it when they accept; otherwise it
lets those that had accepted know that it is aborted (`System.step`). Their
iterators are over all changes of the module, whatever they subscribed to. The
lists follow the committed configuration when they have one node for each of
its entries (`Follows`).
-/

namespace CfgIpsec.Spec

open Impl

/-- The entries a transaction creates and deletes, in the order of their
changes, and what the callbacks meet. -/
structure Transaction where
  items : List DbItem
  spdCalls : CallbackEnv AddSpdEnv RemoveSpdEnv
  sadCalls : CallbackEnv AddSadEnv RemoveSadEnv

def DbItem.ofSpd? : DbItem → Option (Item spdEntryXpath)
  | ⟨.spd, i⟩ => some i
  | ⟨.sad, _⟩ => none

def DbItem.ofSad? : DbItem → Option (Item sadEntryXpath)
  | ⟨.spd, _⟩ => none
  | ⟨.sad, i⟩ => some i

namespace Transaction

variable (t : Transaction)

/-- The entries of the SPD. -/
def spd : List (Item spdEntryXpath) := t.items.filterMap DbItem.ofSpd?

/-- The entries of the SAD. -/
def sad : List (Item sadEntryXpath) := t.items.filterMap DbItem.ofSad?

/-- What an iterator on `//.` gives. -/
def changes : SrChangeIter := t.items.flatMap DbItem.changes

/-- The transaction has entries of one of the lists only. -/
def OneList : Prop := t.spd = [] ∨ t.sad = []

end Transaction

/-- The committed configuration: the names of its entries. -/
structure Config where
  spd : Finset CStr
  sad : Finset CStr

/-- The entries after an item is committed. -/
def Item.commit {xpath : CStr → CStr} (cfg : Finset CStr) : Item xpath → Finset CStr
  | .created b => insert b.name cfg
  | .deleted b => cfg.erase b.name

/-- The configuration after a transaction is committed. -/
def Config.commit (c : Config) (t : Transaction) : Config :=
  ⟨t.spd.foldl Item.commit c.spd, t.sad.foldl Item.commit c.sad⟩

/-- The datastore and the lists of the daemon. -/
structure System where
  config : Config
  spd : Store SpdEntryNode
  sad : Store SadEntryNode

def System.start : System := ⟨⟨∅, ∅⟩, emptyStore, emptyStore⟩

/-- The SPD callback is told of an event, if it is called. -/
def Transaction.tellSpd (t : Transaction) (event : SrEvent) (s : Store SpdEntryNode) : Option (Rc × Store SpdEntryNode) :=
  if t.spd.isEmpty then some (.ok (), s) else spdEntryChangeCb event (.ok t.changes) t.spdCalls s

/-- The SAD callback is told of an event, if it is called. -/
def Transaction.tellSad (t : Transaction) (event : SrEvent) (s : Store SadEntryNode) : Option (Rc × Store SadEntryNode) :=
  if t.sad.isEmpty then some (.ok (), s) else sadEntryChangeCb event (.ok t.changes) t.sadCalls s

/-- A transaction: the callbacks are told of the change up to the first that
refuses it, and then that it is done, or those that had accepted that it is
aborted. -/
def System.step (s : System) (t : Transaction) : Option System := do
  match ← t.tellSpd .change s.spd with
  | (.error _, spd) => pure { s with spd := spd }
  | (.ok _, spd) =>
    match ← t.tellSad .change s.sad with
    | (.error _, sad) => do
      let (_, spd) ← t.tellSpd .abort spd
      pure { s with spd := spd, sad := sad }
    | (.ok _, sad) => do
      let (_, spd) ← t.tellSpd .done spd
      let (_, sad) ← t.tellSad .done sad
      pure ⟨s.config.commit t, spd, sad⟩

/-- An entry is created that is not there, or deleted that is. -/
def Item.Fits {xpath : CStr → CStr} (cfg : Finset CStr) : Item xpath → Prop
  | .created b => b.name ∉ cfg
  | .deleted b => b.name ∈ cfg

/-- A transaction about different entries of one of the lists that changes the
committed configuration. -/
structure Transaction.Fits (s : System) (t : Transaction) : Prop where
  oneList : t.OneList
  spdItems : Items t.spd
  sadItems : Items t.sad
  spd : ∀ i ∈ t.spd, i.Fits s.config.spd
  sad : ∀ i ∈ t.sad, i.Fits s.config.sad

/-- The values a policy is created with are of the schema's types. -/
def Item.Conforms : Item spdEntryXpath → Prop
  | .created b => ∃ entry : List SpdSetting, b.values = entry.map (·.value b.name)
  | .deleted _ => True

def Transaction.Conforms (t : Transaction) : Prop := ∀ i ∈ t.spd, i.Conforms

/-- A list has one node for each of the entries, and no others. -/
def Follows (names : List CStr) (cfg : Finset CStr) : Prop := (names : Multiset CStr) = cfg.val

/-- Both lists follow the committed configuration. -/
structure InSync (s : System) : Prop where
  spd : Follows (s.spd.entries.map (·.name)) s.config.spd
  sad : Follows (s.sad.entries.map (·.name)) s.config.sad

/-- The SPD callback accepts the transaction. -/
def Transaction.Accepted (s : System) (t : Transaction) : Prop := ∃ spd, t.tellSpd .change s.spd = some (.ok (), spd)

/-- The SPD callback refuses the transaction at its first entry. -/
def Transaction.RefusedAtOnce (s : System) (t : Transaction) : Prop :=
  ∃ i items err spd, t.spd = i :: items ∧ i.apply spdOps t.spdCalls s.spd = some (.error err, spd)

/-! ## A start on a configuration

`main` prints the running configuration and subscribes to what changes from
then on (without `SR_SUBSCR_ENABLED`): whatever is configured when the daemon
starts, its lists are empty. -/

/-- The daemon starts, and `c` is configured. -/
def System.startOn (c : Config) : System := ⟨c, emptyStore, emptyStore⟩

/-- The entries of `c` are configured, and are in neither list. -/
structure Unmanaged (c : Config) (s : System) : Prop where
  spd : c.spd ⊆ s.config.spd
  sad : c.sad ⊆ s.config.sad
  spdList : ∀ x ∈ c.spd, x ∉ s.spd.entries.map (·.name)
  sadList : ∀ x ∈ c.sad, x ∉ s.sad.entries.map (·.name)

/-- The transaction deletes an entry of `c`. -/
def Transaction.DeletesFrom (c : Config) (t : Transaction) : Prop :=
  (∃ b, .deleted b ∈ t.spd ∧ b.name ∈ c.spd) ∨ ∃ b, .deleted b ∈ t.sad ∧ b.name ∈ c.sad

end CfgIpsec.Spec
