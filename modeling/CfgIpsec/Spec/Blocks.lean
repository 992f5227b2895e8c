import CfgIpsec.Impl.Callback
import CfgIpsec.Impl.Expire

/-!
# Batches of changes

sysrepo reports an entry as a `Block`: its list instance, its name, and its
other nodes. What a callback makes of a batch of created entries is told from
what the reader makes of each block alone (`readAlone`), and what adding a node
that was read does (`installSad`, `installSpd`); what it makes of created and
deleted entries from applying each by itself (`applyItems`).
-/

namespace CfgIpsec.Spec

open Impl
open CStr (lit)

/-- The xpath of an entry of the SPD. -/
def spdEntryXpath (name : CStr) : CStr :=
  lit "/ietf-i2nsf-ikeless:ipsec-ikeless/spd/spd-entry[name='" ++ name ++ lit "']"

/-- The values of an entry that a batch creates or deletes, of a list with
entries at `xpath`. -/
structure Block (xpath : CStr → CStr) where
  name : CStr
  listData : SrData
  nameRaw : BitVec 64
  values : List SrVal
  ne_nil : values ≠ []
  extend : ∀ v ∈ values, startsWith v.xpath (xpath name) = true

section Block

variable {xpath : CStr → CStr}

def Block.listValue (b : Block xpath) : SrVal := ⟨b.listData, xpath b.name⟩

def Block.nameValue (b : Block xpath) : SrVal := ⟨⟨b.nameRaw, some b.name⟩, xpath b.name ++ lit "/name"⟩

/-- The changes that create the nodes of an entry other than its name. -/
def Block.body (b : Block xpath) : SrChangeIter := b.values.map fun v => .ok v.created

/-- The changes that create an entry, in the order of sysrepo. -/
def Block.changes (b : Block xpath) : SrChangeIter := .ok b.listValue.created :: .ok b.nameValue.created :: b.body

/-- The changes that delete an entry, in the order of sysrepo. -/
def Block.removal (b : Block xpath) : SrChangeIter :=
  .ok b.listValue.deleted :: .ok b.nameValue.deleted :: b.values.map fun v => .ok v.deleted

/-- A reader of the values of an entry, from its xpath and its name. -/
abbrev Reader (α ρ : Type) := ρ → SrChangeIter → CStr → CStr → Option (Rc × SrChangeIter × α)

/-- The reader makes the node of the values of the entry. -/
def ReadFrom {α ρ : Type} (read : Reader α ρ) (b : Block xpath) (n : α) : Prop :=
  ∃ r it, read r b.body (xpath b.name) b.name = some (.ok (), it, n)

/-- An entry that a batch creates or deletes. -/
inductive Item (xpath : CStr → CStr)
  | created (b : Block xpath)
  | deleted (b : Block xpath)

def Item.block : Item xpath → Block xpath
  | .created b => b
  | .deleted b => b

def Item.changes : Item xpath → SrChangeIter
  | .created b => b.changes
  | .deleted b => b.removal

/-- A batch about different entries, in which only names end in `name`. -/
structure Items (items : List (Item xpath)) : Prop where
  noQuote : ∀ i ∈ items, (0x27 : Byte) ∉ i.block.name.bytes
  names : (items.map (·.block.name)).Nodup
  values : ∀ i ∈ items, ∀ v ∈ i.block.values, endsInName v.xpath = some false

/-- An item is applied by itself. -/
def Item.apply {α ρ δ : Type} (ops : EntryOps α ρ δ) (e : CallbackEnv ρ δ) (s : Store α) :
    Item xpath → Option (Rc × Store α)
  | .created b => (ops.add (e.add 0) s b.body (xpath b.name) b.name).map fun r => (r.1, r.2.2)
  | .deleted b => ops.remove (e.remove 0) s b.name

/-- An item is applied, and unless it fails `next` goes on. -/
def Item.applyThen {α ρ δ : Type} (ops : EntryOps α ρ δ) (e : CallbackEnv ρ δ) (s : Store α) (i : Item xpath)
    (next : Store α → Option (Rc × Store α)) : Option (Rc × Store α) := do
  match ← i.apply ops e s with
  | (.ok _, s) => next s
  | (.error _, s) => pure (.error .operationFailed, s)

/-- Items are applied one after the other, up to the first that fails. -/
def applyItems {α ρ δ : Type} (ops : EntryOps α ρ δ) :
    CallbackEnv ρ δ → Store α → List (Item xpath) → Option (Rc × Store α)
  | _, s, [] => some (.ok (), s)
  | e, s, i :: items => i.applyThen ops e s fun s => applyItems ops e.next s items

/-- The names in the list after an item, when `adds` is what adding does. -/
def Item.namesAfter (adds : CStr → List CStr → List CStr) (names : List CStr) : Item xpath → List CStr
  | .created b => adds b.name names
  | .deleted b => names.erase b.name

/-- The item deletes an entry. -/
def Item.IsDeletion : Item xpath → Prop
  | .created _ => False
  | .deleted _ => True

end Block

/-- A callback that is told of deletions runs to its end, and accepts them
exactly when it has a node for each. -/
def DeletesSafely (xpath : CStr → CStr) {α ρ δ : Type} (name : α → CStr)
    (cb : SrEvent → Except SrError SrChangeIter → CallbackEnv ρ δ → Store α → Option (Rc × Store α)) (s : Store α) : Prop :=
  ∀ items : List (Item xpath), Items items → (∀ i ∈ items, i.IsDeletion) → ∀ e,
    ∃ rc s', cb .change (.ok (items.flatMap Item.changes)) e s = some (rc, s') ∧
      (rc = .ok () ↔ ∀ i ∈ items, i.block.name ∈ s.entries.map name)

/-! ## SAD entries -/

/-- The names in the SAD list after `x` is added. -/
def sadAdds (x : CStr) (names : List CStr) : List CStr := names ++ [x]

/-- `readSAD_entry`, on the node `addSAD_entry` gives it. -/
def sadReader : Reader SadEntryNode AddSadEnv := fun r it xpath name =>
  readSadEntry it xpath ((createSadNode r.node).setName name)

/-- The names in the SPD list after `x` is added, unless it is taken. -/
def spdAdds (x : CStr) (names : List CStr) : List CStr := if x ∈ names then names else names ++ [x]

/-- `readSPD_entry`, on the node `addSPD_entry` gives it. -/
def spdReader : Reader SpdEntryNode AddSpdEnv := fun r it xpath name =>
  readSpdEntry it xpath ((createSpdNode r.node).setName name)

/-- Some of the values of `add_spd.xml`, for the entry `name`. -/
def addSpdValues (name : CStr) : List SrVal :=
  [("/direction", "inbound"), ("/ipsec-policy-config/traffic-selector/local-prefix", "192.168.201.0/24"),
    ("/ipsec-policy-config/traffic-selector/remote-prefix", "192.168.202.0/24")].map fun v =>
      ⟨⟨0x1000, some (lit v.2)⟩, spdEntryXpath name ++ lit v.1⟩

end CfgIpsec.Spec
