import CfgIpsec.Spec.Capacity
import CfgIpsec.Spec.Commute
import CfgIpsec.Spec.Kernel

/-!
# The contents of the configuration

The committed configuration with the values of its entries (`Contents`). A
table of the kernel realizes the entries when it has, for each, the rows of a
node that the reader makes of its values, in the room its buffers have, and no
others (`Realizes`).
-/

namespace CfgIpsec.Spec

open Impl Tables

section Entries

variable {xpath : CStr → CStr} {α ρ κ υ : Type}

/-- The values of the entries, by name. -/
abbrev Entries (xpath : CStr → CStr) := CStr → Option (Block xpath)

/-- The entries after an item is committed. -/
def Item.write (c : Entries xpath) : Item xpath → Entries xpath
  | .created b => Function.update c b.name (some b)
  | .deleted b => Function.update c b.name none

/-- The table has the rows of the entries, as the reader reads them, and no
others. -/
def Realizes (read : Reader α ρ) (rows : α → List (κ × υ)) (c : Entries xpath) (t : Table κ υ) : Prop :=
  ∃ node : CStr → α, (∀ x b, c x = some b → ReadFrom read b (node x)) ∧
    ∀ k v, t k = some v ↔ ∃ x b, c x = some b ∧ (k, v) ∈ rows (node x)

/-- The strings of an entry have room in its node. -/
structure Block.InRoom (copies : SrVal → Option (List StrCopy)) (b : Block xpath) : Prop where
  name : HasRoom ⟨.name, b.name⟩
  values : ∀ c, Copies copies b c → HasRoom c

/-- A list has one node for an entry, with `R` to its values, and none for a
name that is not configured. -/
def Listed (name : α → CStr) (R : Block xpath → α → Prop) (c : Entries xpath) (entries : List α) : Prop :=
  ∀ x, match c x with
    | none => ofName name x entries = []
    | some b => ∃ n, ofName name x entries = [n] ∧ R b n

end Entries

/-- The committed configuration. -/
structure Contents where
  spd : Entries spdEntryXpath
  sad : Entries sadEntryXpath

def Contents.start : Contents := ⟨fun _ => none, fun _ => none⟩

/-- The configuration after a transaction is committed. -/
def Contents.commit (c : Contents) (t : Transaction) : Contents :=
  ⟨t.spd.foldl Item.write c.spd, t.sad.foldl Item.write c.sad⟩

/-- The strings of the created entries have room in their nodes. -/
structure Transaction.InRoom (t : Transaction) : Prop where
  spd : ∀ b, .created b ∈ t.spd → b.InRoom spdValueCopies
  sad : ∀ b, .created b ∈ t.sad → b.InRoom sadValueCopies

/-- What `addSAD_entry` reads, in the room there is. -/
def sadReaderInRoom : Reader SadEntryNode AddSadEnv := fun r it xpath name => newSadInRoom r.node it xpath name

/-- What `addSPD_entry` reads, in the room there is. -/
def spdReaderInRoom : Reader SpdEntryNode AddSpdEnv := fun r it xpath name => newSpdInRoom r.node it xpath name

/-- The kernel has the policies and the SAs of the configuration, and no others. -/
structure KernelRealizes {σ τ : Type} (K : Kernel σ τ) (c : Contents) (s : System) : Prop where
  policies : Realizes spdReaderInRoom spRows c.spd (K.policies.tableAfter s.spd.sent)
  sas : Realizes sadReaderInRoom saRows c.sad (K.sas.tableAfter s.sad.sent)

end CfgIpsec.Spec
