import CfgIpsec.Proof.Batches

/-!
# Entries of the other database

A callback tells an entry's name leaf by the last characters of its xpath, so
it applies the entries of both databases (`changeLoop_dbItems`). Those of the
other one are without effect only when the callback is that of the SPD and they
are created under a name that is taken (`apply_spd_eq_iff`, `apply_sad_ne`).
-/

namespace CfgIpsec.Proof

open Impl Spec
open CStr (lit)

/-! ## Items that change nothing -/

theorem reached_congr {α ρ δ : Type} {ops : EntryOps α ρ δ} {P Q : CallbackEnv ρ δ → Store α → DbItem → Prop}
    (h : ∀ e s i, P e s i ↔ Q e s i) {e : CallbackEnv ρ δ} {s : Store α} {items : List DbItem} :
    Reached ops P e s items ↔ Reached ops Q e s items := by
  induction items generalizing e s with
  | nil => exact Iff.rfl
  | cons i items ih => exact and_congr (h e s i) (forall_congr' fun s' => imp_congr_right fun _ => ih)

/-- When the items of the other database change nothing, those of `db` are all
that is applied. -/
theorem applyAll_eq_applyOwn {α ρ δ : Type} {ops : EntryOps α ρ δ} {db : Database} {e : CallbackEnv ρ δ}
    {s : Store α} {items : List DbItem}
    (h : Reached ops (fun e s i => i.db ≠ db → i.item.apply ops e s = some (.ok (), s)) e s items) :
    applyAll ops e s items = applyOwn ops db e s items := by
  induction items generalizing e s with
  | nil => rfl
  | cons i items ih =>
    obtain ⟨hi, hrest⟩ := h
    rw [applyAll, applyOwn]
    split
    · rw [Item.applyThen, Item.applyThen]
      cases happ : i.item.apply ops e s with
      | none => rfl
      | some r =>
        obtain ⟨err | u, s'⟩ := r
        · rfl
        · exact ih (hrest s' happ)
    · rename_i hdb
      rw [Item.applyThen, hi hdb]
      exact ih (hrest s (hi hdb))

/-- An item of either database changes nothing of the SPD list exactly when it
is created and its name is taken. -/
theorem apply_spd_eq_iff (e : CallbackEnv AddSpdEnv RemoveSpdEnv) (s : Store SpdEntryNode) (i : DbItem) :
    i.item.apply spdOps e s = some (.ok (), s) ↔ NameTaken s i := by
  obtain ⟨db, b | b⟩ := i
  · have htaken : NameTaken s ⟨db, .created b⟩ ↔ (getSpdNode s.entries b.name).isSome = true := by
      rw [← Option.ne_none_iff_isSome, Ne, getSpdNode, getNode_eq_none_iff]
      simp [NameTaken, Item.block]
    rw [htaken]
    constructor
    · intro h
      obtain ⟨⟨rc, it, s'⟩, hadd, heq⟩ := Option.map_eq_some_iff.mp h
      obtain ⟨rfl, rfl⟩ := Prod.mk.inj heq
      rcases addSpdEntry_cases hadd with ⟨⟨n, hn⟩, -⟩ | ⟨-, err, node, -, hrc, -⟩ | ⟨-, node, msgs, node', -, -, -, hs⟩
      · rw [hn]; rfl
      · cases hrc
      · have := congrArg (·.entries.length) hs
        simp at this
    · intro h
      simp only [Item.apply, spdOps, addSpdEntry, if_pos h, Option.map_some]
  · refine iff_of_false (fun h => ?_) fun h => ?_
    · rcases removeSpdEntry_cases h with ⟨-, hrc, -⟩ | ⟨pre, n, post, msgs, node, -, hs, -, -, -, -, hs'⟩
      · cases hrc
      · have := congrArg (·.entries) hs'
        rw [hs] at this
        simp at this
    · obtain ⟨⟨b', hb⟩, -⟩ := h
      cases hb

/-- Every item of either database changes the SAD list, or fails. -/
theorem apply_sad_ne (e : CallbackEnv AddSadEnv RemoveSadEnv) (s : Store SadEntryNode) (i : DbItem) :
    i.item.apply sadOps e s ≠ some (.ok (), s) := by
  intro h
  obtain ⟨db, b | b⟩ := i
  · obtain ⟨⟨rc, it, s'⟩, hadd, heq⟩ := Option.map_eq_some_iff.mp h
    obtain ⟨rfl, rfl⟩ := Prod.mk.inj heq
    rcases addSadEntry_cases hadd with ⟨err, node, -, hrc, -⟩ | ⟨node, add, get, -, -, -, -, hs⟩
    · cases hrc
    · have := congrArg (·.entries.length) hs
      simp at this
  · rcases removeSadEntry_cases h with ⟨-, hrc, -⟩ | ⟨pre, n, post, get, del, -, hs, -, -, -, -, -, hs'⟩
    · cases hrc
    · have := congrArg (·.entries) hs'
      rw [hs] at this
      simp at this

/-! ## The callbacks -/

/-- A callback applies the entries of its batch, of either database, in order. -/
theorem spdEntryChangeCb_dbItems {items : List DbItem} (hi : DbItems items) (e : CallbackEnv AddSpdEnv RemoveSpdEnv)
    (s : Store SpdEntryNode) :
    spdEntryChangeCb .change (.ok (items.flatMap DbItem.changes)) e s = applyAll spdOps e s items := by
  rw [spdEntryChangeCb, entryChangeCb, if_pos rfl]
  exact changeLoop_dbItems (fun r s _ => stopsAt_addSpd r s) hi (.inl rfl) (Nat.lt_succ_self _)

theorem sadEntryChangeCb_dbItems {items : List DbItem} (hi : DbItems items) (e : CallbackEnv AddSadEnv RemoveSadEnv)
    (s : Store SadEntryNode) :
    sadEntryChangeCb .change (.ok (items.flatMap DbItem.changes)) e s = applyAll sadOps e s items := by
  rw [sadEntryChangeCb, entryChangeCb, if_pos rfl]
  exact changeLoop_dbItems (fun r s _ => stopsAt_addSad r s) hi (.inl rfl) (Nat.lt_succ_self _)

/-- Each callback applies the entries of its batch, of either database, in
order. They are those of its own database alone exactly when every entry it
comes to is, but for entries that are created under a name the SPD list has. -/
theorem callbacks_own {items : List DbItem} (hi : DbItems items) :
    (∀ e s, spdEntryChangeCb .change (.ok (items.flatMap DbItem.changes)) e s = applyAll spdOps e s items ∧
      (AppliesOwn spdOps .spd e s items (spdEntryChangeCb .change (.ok (items.flatMap DbItem.changes)) e s) ↔
        Reached spdOps (fun _ s i => i.db = .spd ∨ NameTaken s i) e s items)) ∧
    ∀ e s, sadEntryChangeCb .change (.ok (items.flatMap DbItem.changes)) e s = applyAll sadOps e s items ∧
      (AppliesOwn sadOps .sad e s items (sadEntryChangeCb .change (.ok (items.flatMap DbItem.changes)) e s) ↔
        Reached sadOps (fun _ _ i => i.db = .sad) e s items) := by
  constructor
  · intro e s
    have hcb := spdEntryChangeCb_dbItems hi e s
    have hiff : Reached spdOps (fun e s i => i.db ≠ .spd → i.item.apply spdOps e s = some (.ok (), s)) e s items ↔
        Reached spdOps (fun _ s i => i.db = .spd ∨ NameTaken s i) e s items :=
      reached_congr fun e s i => by rw [apply_spd_eq_iff, or_iff_not_imp_left]
    exact ⟨hcb, fun h => hiff.mp h.spares, fun h => ⟨hiff.mpr h, hcb.trans (applyAll_eq_applyOwn (hiff.mpr h))⟩⟩
  · intro e s
    have hcb := sadEntryChangeCb_dbItems hi e s
    have hiff : Reached sadOps (fun e s i => i.db ≠ .sad → i.item.apply sadOps e s = some (.ok (), s)) e s items ↔
        Reached sadOps (fun _ _ i => i.db = .sad) e s items :=
      reached_congr fun e s i => by
        rw [← not_imp_not, not_not]
        exact ⟨fun h => h (apply_sad_ne e s i), fun h _ => h⟩
    exact ⟨hcb, fun h => hiff.mp h.spares, fun h => ⟨hiff.mpr h, hcb.trans (applyAll_eq_applyOwn (hiff.mpr h))⟩⟩

/-- An entry of the SPD, and one of the SAD of the same name. -/
def mixedItems : List DbItem := [⟨.spd, .created (spdBlockOf (lit "gw"))⟩, ⟨.sad, .created (sadBlockOf (lit "gw"))⟩]

theorem dbItems_mixed : DbItems mixedItems := ⟨by decide +kernel, by decide +kernel, by decide +kernel⟩

/-- The SPD callback passes over the entry of the SAD, because of its name; the
SAD callback does not pass over that of the SPD. -/
theorem callbacks_own_same_name :
    AppliesOwn spdOps .spd spdCalls emptyStore mixedItems
      (spdEntryChangeCb .change (.ok (mixedItems.flatMap DbItem.changes)) spdCalls emptyStore) ∧
    ¬AppliesOwn sadOps .sad sadCalls emptyStore mixedItems
      (sadEntryChangeCb .change (.ok (mixedItems.flatMap DbItem.changes)) sadCalls emptyStore) := by
  constructor
  · refine ((callbacks_own dbItems_mixed).1 _ _).2.mpr ⟨.inl rfl, fun s hs => ⟨.inr ⟨⟨_, rfl⟩, ?_⟩, fun s' _ => trivial⟩⟩
    rw [apply_ok changesNames_spd hs]
    decide +kernel
  · rw [((callbacks_own dbItems_mixed).2 _ _).2]
    exact fun h => absurd h.1 (by decide)

/-- An entry of the SPD, and one of the SAD of another name. -/
def otherItems : List DbItem := [⟨.spd, .created (spdBlockOf (lit "gw"))⟩, ⟨.sad, .created (sadBlockOf (lit "other"))⟩]

/-- The SPD callback puts the entry of the SAD into the SPD list. -/
theorem callbacks_own_other :
    ∃ s s', spdEntryChangeCb .change (.ok (otherItems.flatMap DbItem.changes)) spdCalls emptyStore = some (.ok (), s) ∧
      s.entries.map (·.name) = [lit "gw", lit "other"] ∧
      applyOwn spdOps .spd spdCalls emptyStore otherItems = some (.ok (), s') ∧ s'.entries.map (·.name) = [lit "gw"] := by
  have hrun : (spdEntryChangeCb .change (.ok (otherItems.flatMap DbItem.changes)) spdCalls emptyStore).any
      (fun r => r.1 = .ok () ∧ r.2.entries.map (·.name) = [lit "gw", lit "other"]) = true := by decide +kernel
  have hown : (applyOwn spdOps .spd spdCalls emptyStore otherItems).any
      (fun r => r.1 = .ok () ∧ r.2.entries.map (·.name) = [lit "gw"]) = true := by decide +kernel
  obtain ⟨⟨rc, s⟩, hr, h⟩ := (Option.any_eq_true _ _).mp hrun
  obtain ⟨⟨rc', s'⟩, hr', h'⟩ := (Option.any_eq_true _ _).mp hown
  obtain ⟨rfl, hnames⟩ := of_decide_eq_true h
  obtain ⟨rfl, hnames'⟩ := of_decide_eq_true h'
  exact ⟨s, s', hr, hnames, hr', hnames'⟩

end CfgIpsec.Proof
