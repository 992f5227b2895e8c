import CfgIpsec.Framework.Run
import CfgIpsec.Proof.Daemon
import CfgIpsec.Proof.Databases
import CfgIpsec.Spec.Edits

/-!
# Changes of entries that stay go unnoticed

The loop of the callbacks passes over a change of an entry that stays, and the
reader of a created entry before it stops at it (`changeLoop_parts`). So in any
run of the daemon such changes may be left out: neither list, nor what is sent
for it, follows a value that is changed later (`edits_unnoticed`).
-/

namespace CfgIpsec.Proof

open Impl Spec Run
open CStr (lit)

/-- An xpath is in one entry of the module. -/
theorem entry_unique {path x y : CStr} {db db' : Database} (hx : (0x27 : Byte) ∉ x.bytes) (hy : (0x27 : Byte) ∉ y.bytes)
    (h : startsWith path (db.entryXpath x) = true) (h' : startsWith path (db'.entryXpath y) = true) :
    (db, x) = (db', y) := by
  have hpre := List.isPrefixOf_iff_prefix.mp h
  have hpre' := List.isPrefixOf_iff_prefix.mp h'
  rcases List.prefix_or_prefix_of_prefix hpre hpre' with hle | hle
  · exact startsWith_entryXpath hx hy (List.isPrefixOf_iff_prefix.mpr hle)
  · exact (startsWith_entryXpath hy hx (List.isPrefixOf_iff_prefix.mpr hle)).symm

/-- A change of an entry that stays ends the block of an item. -/
theorem ends_edit {items : List DbItem} (hq : ∀ i ∈ items, (0x27 : Byte) ∉ i.item.block.name.bytes) {c : SrChange}
    (hc : IsEdit items c) {i : DbItem} (hi : i ∈ items) (it : SrChangeIter) :
    Ends (i.db.entryXpath i.item.block.name) (.ok c :: it) := by
  obtain ⟨v, db, y, hv, hstart, hy, hkey⟩ := hc.entry
  refine .other hv ?_ it
  rw [← Bool.not_eq_true]
  intro h
  apply hkey
  rw [← entry_unique (hq i hi) hy h hstart]
  exact List.mem_map_of_mem hi

theorem Ends.append {xpath : CStr} {it : SrChangeIter} (h : Ends xpath it) (hne : it ≠ []) (tail : SrChangeIter) :
    Ends xpath (it ++ tail) := by
  cases h with
  | nil => exact absurd rfl hne
  | error e it => exact .error e _
  | other hc hv it => exact .other hc hv _

/-- What comes after an item ends its block. -/
theorem ends_parts {i : DbItem} {parts : List BatchPart} (hp : EditedBatch (.item i :: parts)) :
    Ends (i.db.entryXpath i.item.block.name) (parts.flatMap BatchPart.changes) := by
  obtain ⟨hqi, hquote⟩ := List.forall_mem_cons.mp hp.items.noQuote
  have hki := (List.nodup_cons.mp hp.items.keys).1
  rcases parts with _ | ⟨i' | c, parts⟩
  · exact .nil
  · have hne : i.key ≠ i'.key := fun heq => hki (heq ▸ List.mem_map_of_mem List.mem_cons_self)
    have hends := ends_dbItem hqi (hquote i' List.mem_cons_self) hne []
    rw [List.flatMap_cons, List.flatMap_nil, List.append_nil] at hends
    refine hends.append ?_ (parts.flatMap BatchPart.changes)
    obtain ⟨db, b | b⟩ := i' <;> exact List.cons_ne_nil _ _
  · exact ends_edit hp.items.noQuote (hp.edits c (by simp)) List.mem_cons_self _

/-- The parts after the first are parts of a batch. -/
theorem parts_tail {p : BatchPart} {parts : List BatchPart} (hp : EditedBatch (p :: parts)) : EditedBatch parts := by
  cases p with
  | edit c => exact ⟨hp.items, fun c hc => hp.edits c (List.mem_cons_of_mem _ hc)⟩
  | item i =>
    refine ⟨⟨fun j hj => hp.items.noQuote j (List.mem_cons_of_mem i hj), (List.nodup_cons.mp hp.items.keys).2,
      fun j hj => hp.items.values j (List.mem_cons_of_mem i hj)⟩, fun c hc => ?_⟩
    obtain ⟨⟨v, db, y, hv, hstart, hy, hkey⟩, hquiet⟩ := hp.edits c (List.mem_cons_of_mem _ hc)
    exact ⟨⟨v, db, y, hv, hstart, hy, fun hmem => hkey (List.mem_cons_of_mem _ hmem)⟩, hquiet⟩

section Loop

variable {α ρ δ : Type} {ops : EntryOps α ρ δ}

theorem applyChange_edit {items : List DbItem} {c : SrChange} (hc : IsEdit items c) (e : CallbackEnv ρ δ) (s : Store α)
    (it : SrChangeIter) : applyChange ops e s it c = some (none, it, s) := by
  unfold applyChange
  rcases hc.quiet with h | h | h
  · rw [h]
  · rw [h]
  · cases hop : c.oper <;> simp [h]

/-- The callback applies the items among the parts. -/
theorem changeLoop_parts
    (hstop : ∀ r s db (b : Block (Database.entryXpath db)), StopsAt b fun it => ops.add r s it (db.entryXpath b.name) b.name)
    {parts : List BatchPart} {e : CallbackEnv ρ δ} {s : Store α} {it : SrChangeIter} {fuel : Nat} (hp : EditedBatch parts)
    (hit : it = parts.flatMap BatchPart.changes ∨ it = (parts.flatMap BatchPart.changes).tail) (hf : it.length < fuel) :
    changeLoop ops fuel e s it = applyAll ops e s (itemsOf parts) := by
  induction parts generalizing e s it fuel with
  | nil =>
    obtain ⟨fuel, rfl⟩ : ∃ k, fuel = k + 1 := ⟨fuel - 1, by omega⟩
    rcases hit with rfl | rfl <;> rfl
  | cons p parts ih =>
    cases p with
    | edit c =>
      rcases hit with rfl | rfl
      · obtain ⟨fuel, rfl⟩ : ∃ k, fuel = k + 1 := ⟨fuel - 1, by omega⟩
        show changeLoop ops (fuel + 1) e s (.ok c :: parts.flatMap BatchPart.changes) = applyAll ops e s (itemsOf parts)
        rw [changeLoop, srGetChangeNext]
        simp only [applyChange_edit (hp.edits c List.mem_cons_self), Option.bind_eq_bind, Option.bind_some]
        exact ih (parts_tail hp) (.inl rfl) (Nat.lt_of_succ_lt_succ hf)
      · -- The change was lost to the reader of the entry before it.
        exact ih (parts_tail hp) (.inl rfl) hf
    | item i =>
      have hcons : it = i.item.changes ++ parts.flatMap BatchPart.changes ∨
          it = i.item.changes.tail ++ parts.flatMap BatchPart.changes := by
        rw [List.flatMap_cons, BatchPart.changes, DbItem.changes] at hit
        rcases i with ⟨db, b | b⟩ <;> exact hit
      obtain ⟨fuel', it', hit', hf', heq⟩ := changeLoop_item (quoted_entryXpath i.db) (hstop (e.add 0) s i.db)
        (hp.items.values i List.mem_cons_self) (ends_parts hp) hcons hf
      show changeLoop ops fuel e s it = applyAll ops e s (i :: itemsOf parts)
      rw [heq, applyAll]
      congr 1
      funext s'
      exact ih (parts_tail hp) hit' hf'

end Loop

/-! ## Runs -/

theorem sadEntryChangeCb_parts {parts : List BatchPart} (hp : EditedBatch parts) (e : CallbackEnv AddSadEnv RemoveSadEnv)
    (s : Store SadEntryNode) :
    sadEntryChangeCb .change (.ok (parts.flatMap BatchPart.changes)) e s =
      sadEntryChangeCb .change (.ok ((itemsOf parts).flatMap DbItem.changes)) e s := by
  rw [((callbacks_own hp.items).2 e s).1, sadEntryChangeCb, entryChangeCb, if_pos rfl]
  exact changeLoop_parts (fun r s _ => stopsAt_addSad r s) hp (.inl rfl) (Nat.lt_succ_self _)

theorem spdEntryChangeCb_parts {parts : List BatchPart} (hp : EditedBatch parts) (e : CallbackEnv AddSpdEnv RemoveSpdEnv)
    (s : Store SpdEntryNode) :
    spdEntryChangeCb .change (.ok (parts.flatMap BatchPart.changes)) e s =
      spdEntryChangeCb .change (.ok ((itemsOf parts).flatMap DbItem.changes)) e s := by
  rw [((callbacks_own hp.items).1 e s).1, spdEntryChangeCb, entryChangeCb, if_pos rfl]
  exact changeLoop_parts (fun r s _ => stopsAt_addSpd r s) hp (.inl rfl) (Nat.lt_succ_self _)

theorem step_edits {a b : Event} (h : SameButEdits a b) (s : Daemon) : Daemon.step s a = Daemon.step s b := by
  cases h with
  | refl => rfl
  | spd hp e => rw [Daemon.step, Daemon.step, spdEntryChangeCb_parts hp]
  | sad hp e => rw [Daemon.step, Daemon.step, sadEntryChangeCb_parts hp]

/-- Whatever a client changes in entries that stay, and wherever sysrepo tells
the callbacks of it, the daemon goes through a run as if it had not been: its
lists, what it sends and what its threads ask for are the same. -/
theorem edits_unnoticed {es es' : List Event} (h : List.Forall₂ SameButEdits es es') (s : Daemon) :
    run Daemon.step es s = run Daemon.step es' s := by
  induction h generalizing s with
  | nil => rfl
  | cons he hes ih =>
    rw [run, run, step_edits he]
    exact congrArg _ (funext ih)

/-- The SPI of `gw` is changed. -/
def gwEdit : SrChange :=
  ⟨.modified, some ⟨⟨0, none⟩, sadEntryXpath (lit "gw") ++ lit "/ipsec-sa-config/spi"⟩,
    some ⟨⟨7, none⟩, sadEntryXpath (lit "gw") ++ lit "/ipsec-sa-config/spi"⟩⟩

/-- Another entry is created beside. -/
def editedParts : List BatchPart := [.item ⟨.sad, .created (sadBlockOf (lit "peer"))⟩, .edit gwEdit]

theorem parts_edited : EditedBatch editedParts where
  items := ⟨by decide, by decide, by decide +kernel⟩
  edits c hc := by
    obtain rfl : c = gwEdit := by simpa [editedParts] using hc
    exact ⟨⟨_, .sad, lit "gw", rfl, by decide +kernel, by decide, by decide⟩, .inl rfl⟩

/-- When the SPI of `gw` is changed and `peer` created, only `peer` is new. -/
theorem edits_unnoticed_gw :
    run Daemon.step [.sadChange .change (.ok (editedParts.flatMap BatchPart.changes)) sadCalls] gwDaemon =
      run Daemon.step [.sadChange .change (.ok (sadBlockOf (lit "peer")).changes) sadCalls] gwDaemon ∧
    (run Daemon.step [.sadChange .change (.ok (sadBlockOf (lit "peer")).changes) sadCalls] gwDaemon).any
      (fun s => s.sad.entries.map (·.name) = [lit "gw", lit "peer"]) = true := by
  refine ⟨?_, by decide +kernel⟩
  exact edits_unnoticed (.cons (.sad parts_edited sadCalls) .nil) gwDaemon

end CfgIpsec.Proof
