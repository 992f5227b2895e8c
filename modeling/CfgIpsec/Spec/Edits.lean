import CfgIpsec.Impl.Daemon
import CfgIpsec.Spec.Databases

/-!
# Changes of entries that stay

A batch has more than entries that are created and deleted: a client may change
the values of an entry that stays (`IsEdit`), and sysrepo reports that between
the entries (`BatchPart`). What the callbacks are told without these changes is
`SameButEdits`.
-/

namespace CfgIpsec.Spec

open Impl

/-- A part of a batch: an entry that is created or deleted, or another change. -/
inductive BatchPart
  | item (i : DbItem)
  | edit (c : SrChange)

def BatchPart.changes : BatchPart → SrChangeIter
  | .item i => i.changes
  | .edit c => [.ok c]

def BatchPart.item? : BatchPart → Option DbItem
  | .item i => some i
  | .edit _ => none

/-- The entries that a batch creates and deletes. -/
def itemsOf (parts : List BatchPart) : List DbItem := parts.filterMap BatchPart.item?

/-- The change is of a value of an entry that is not among the items, and not of
one that ends in `name`, unless it is modified or moved. -/
structure IsEdit (items : List DbItem) (c : SrChange) : Prop where
  entry : ∃ v db y, c.value = some v ∧ startsWith v.xpath (Database.entryXpath db y) = true ∧
    (0x27 : Byte) ∉ y.bytes ∧ (db, y) ∉ items.map DbItem.key
  quiet : c.oper = .modified ∨ c.oper = .moved ∨ newEntry c = some false

/-- A batch about different entries, with changes of other entries. -/
structure EditedBatch (parts : List BatchPart) : Prop where
  items : DbItems (itemsOf parts)
  edits : ∀ c, .edit c ∈ parts → IsEdit (itemsOf parts) c

/-- The second event is the first, but for changes of entries that stay. -/
inductive SameButEdits : Event → Event → Prop
  | refl (a : Event) : SameButEdits a a
  | spd {parts : List BatchPart} (h : EditedBatch parts) (e : CallbackEnv AddSpdEnv RemoveSpdEnv) :
    SameButEdits (.spdChange .change (.ok (parts.flatMap BatchPart.changes)) e)
      (.spdChange .change (.ok ((itemsOf parts).flatMap DbItem.changes)) e)
  | sad {parts : List BatchPart} (h : EditedBatch parts) (e : CallbackEnv AddSadEnv RemoveSadEnv) :
    SameButEdits (.sadChange .change (.ok (parts.flatMap BatchPart.changes)) e)
      (.sadChange .change (.ok ((itemsOf parts).flatMap DbItem.changes)) e)

end CfgIpsec.Spec
