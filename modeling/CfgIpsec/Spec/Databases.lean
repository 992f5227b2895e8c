import CfgIpsec.Spec.Blocks

/-!
# Batches of both databases

The iterator of a callback gives the changes of the whole module, so a batch
has entries of the SPD and of the SAD (`DbItem`). A callback that is only about
its own database passes over the others (`applyOwn`); what it makes of those it
reaches is told by `Reached`.
-/

namespace CfgIpsec.Spec

open Impl

/-- The databases of the module. -/
inductive Database
  | spd
  | sad
deriving DecidableEq

/-- The xpath of an entry. -/
def Database.entryXpath : Database → CStr → CStr
  | .spd => spdEntryXpath
  | .sad => sadEntryXpath

/-- An entry of either database that a batch creates or deletes. -/
structure DbItem where
  db : Database
  item : Item db.entryXpath

def DbItem.changes (i : DbItem) : SrChangeIter := i.item.changes

/-- What tells the entries of the module apart. -/
def DbItem.key (i : DbItem) : Database × CStr := (i.db, i.item.block.name)

/-- A batch about different entries, in which only names end in `name`. -/
structure DbItems (items : List DbItem) : Prop where
  noQuote : ∀ i ∈ items, (0x27 : Byte) ∉ i.item.block.name.bytes
  keys : (items.map DbItem.key).Nodup
  values : ∀ i ∈ items, ∀ v ∈ i.item.block.values, endsInName v.xpath = some false

section

variable {α ρ δ : Type} (ops : EntryOps α ρ δ)

/-- Items of either database are applied one after the other, up to the first
that fails. -/
def applyAll : CallbackEnv ρ δ → Store α → List DbItem → Option (Rc × Store α)
  | _, s, [] => some (.ok (), s)
  | e, s, i :: items => i.item.applyThen ops e s fun s => applyAll e.next s items

/-- The items of `db` are applied, the others passed over. -/
def applyOwn (db : Database) : CallbackEnv ρ δ → Store α → List DbItem → Option (Rc × Store α)
  | _, s, [] => some (.ok (), s)
  | e, s, i :: items =>
    if i.db = db then i.item.applyThen ops e s fun s => applyOwn db e.next s items
    else applyOwn db e.next s items

/-- `P` holds of the items `applyAll` comes to, where it comes to them. -/
def Reached (P : CallbackEnv ρ δ → Store α → DbItem → Prop) : CallbackEnv ρ δ → Store α → List DbItem → Prop
  | _, _, [] => True
  | e, s, i :: items => P e s i ∧ ∀ s', i.item.apply ops e s = some (.ok (), s') → Reached P e.next s' items

/-- A callback applies the items of `db` and no others: of the others those it
comes to change nothing and do not stop it, so that its result is that of its
own. -/
structure AppliesOwn (db : Database) (e : CallbackEnv ρ δ) (s : Store α) (items : List DbItem)
    (result : Option (Rc × Store α)) : Prop where
  spares : Reached ops (fun e s i => i.db ≠ db → i.item.apply ops e s = some (.ok (), s)) e s items
  result : result = applyOwn ops db e s items

end

/-- An entry is created of which the name is in the SPD list. -/
def NameTaken (s : Store SpdEntryNode) (i : DbItem) : Prop :=
  (∃ b, i.item = .created b) ∧ i.item.block.name ∈ s.entries.map (·.name)

end CfgIpsec.Spec
