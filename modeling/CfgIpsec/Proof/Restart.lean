import CfgIpsec.Proof.Transactions

/-!
# Entries that were configured before the daemon started

Removing an entry that is not in the list fails, so a callback accepts no batch
that deletes one (`applyItems_absent`), and sysrepo commits none. The names of
the entries configured at the start are never created again while they are
configured: `existing_stay`.
-/

namespace CfgIpsec.Proof

open Impl Spec Run
open CStr (lit)

/-! ## Names that are not in a list -/

section Names

variable {α ρ δ : Type} {ops : EntryOps α ρ δ} {name : α → CStr} {adds : CStr → List CStr → List CStr}
  {xpath : CStr → CStr}

/-- A name that is in a list after an item was there before, or is created. -/
theorem mem_of_mem_namesAfter (hadds : ∀ y names, adds y names ⊆ y :: names) {i : Item xpath} {x : CStr}
    {names : List CStr} (hx : x ∈ i.namesAfter adds names) : x ∈ names ∨ ∃ b, i = .created b ∧ b.name = x := by
  cases i with
  | created b =>
    rcases List.mem_cons.mp (hadds _ _ hx) with rfl | hx
    · exact .inr ⟨b, rfl, rfl⟩
    · exact .inl hx
  | deleted b => exact .inl (List.mem_of_mem_erase hx)

/-- A name that is not in the list and is not created does not come into it, and
is deleted by no batch that is accepted. -/
theorem applyItems_absent (h : ChangesNames name adds ops) (hadds : ∀ y names, adds y names ⊆ y :: names)
    (hremove : ∀ {r s s' y}, ops.remove r s y = some (.ok (), s') → y ∈ s.entries.map name)
    {items : List (Item xpath)} {e : CallbackEnv ρ δ} {s s' : Store α} {rc : Rc} {x : CStr}
    (hx : x ∉ s.entries.map name) (hnew : ∀ b, .created b ∈ items → b.name ≠ x)
    (hr : applyItems ops e s items = some (rc, s')) :
    x ∉ s'.entries.map name ∧ (rc = .ok () → ∀ b, .deleted b ∈ items → b.name ≠ x) := by
  induction items generalizing e s with
  | nil => cases hr; exact ⟨hx, fun _ _ hb => absurd hb List.not_mem_nil⟩
  | cons i items ih =>
    obtain ⟨⟨rc₁, s₁⟩, hi, hr⟩ := Option.bind_eq_some_iff.mp hr
    cases rc₁ with
    | error err =>
      cases hr
      obtain rfl := apply_error h hi
      exact ⟨hx, fun hrc => by cases hrc⟩
    | ok u =>
      have hx₁ : x ∉ s₁.entries.map name := by
        rw [apply_ok h hi]
        intro hmem
        rcases mem_of_mem_namesAfter hadds hmem with hold | ⟨b, rfl, hb⟩
        · exact hx hold
        · exact hnew b List.mem_cons_self hb
      obtain ⟨habsent, hdel⟩ := ih hx₁ (fun b hb => hnew b (List.mem_cons_of_mem _ hb)) hr
      refine ⟨habsent, fun hrc b hb => ?_⟩
      rcases List.mem_cons.mp hb with rfl | hb
      · rintro rfl
        exact hx (hremove hi)
      · exact hdel hrc b hb

/-- An entry that no item deletes stays configured. -/
theorem mem_commit_of_mem {items : List (Item xpath)} {cfg : Finset CStr} {x : CStr} (hx : x ∈ cfg)
    (hdel : ∀ b, .deleted b ∈ items → b.name ≠ x) : x ∈ items.foldl Item.commit cfg := by
  induction items generalizing cfg with
  | nil => exact hx
  | cons i items ih =>
    refine ih ?_ fun b hb => hdel b (List.mem_cons_of_mem _ hb)
    cases i with
    | created b => exact Finset.mem_insert_of_mem hx
    | deleted b => exact Finset.mem_erase_of_ne_of_mem (hdel b List.mem_cons_self).symm hx

/-- An item that fits creates no entry that is configured. -/
theorem name_ne_of_fits {items : List (Item xpath)} {cfg : Finset CStr} (hfits : ∀ i ∈ items, i.Fits cfg) {x : CStr}
    (hx : x ∈ cfg) (b : Block xpath) (hb : .created b ∈ items) : b.name ≠ x := by
  rintro rfl
  exact hfits _ hb hx

end Names

theorem spdAdds_subset (x : CStr) (names : List CStr) : spdAdds x names ⊆ x :: names := by
  rw [spdAdds]
  split
  · exact List.subset_cons_self _ _
  · intro y hy
    simpa [or_comm] using hy

theorem sadAdds_subset (x : CStr) (names : List CStr) : sadAdds x names ⊆ x :: names := by
  intro y hy
  simpa [sadAdds, or_comm] using hy

/-- Only an entry that is in the list can be removed. -/
theorem mem_of_removeSpdEntry {e : RemoveSpdEnv} {s s' : Store SpdEntryNode} {x : CStr}
    (h : removeSpdEntry e s x = some (.ok (), s')) : x ∈ s.entries.map (·.name) := by
  rcases removeSpdEntry_cases h with ⟨-, hrc, -⟩ | ⟨pre, n, post, -, -, -, hs, hx, -⟩
  · cases hrc
  · rw [hs, ← hx]
    simp

theorem mem_of_removeSadEntry {e : RemoveSadEnv} {s s' : Store SadEntryNode} {x : CStr}
    (h : removeSadEntry e s x = some (.ok (), s')) : x ∈ s.entries.map (·.name) := by
  rcases removeSadEntry_cases h with ⟨-, hrc, -⟩ | ⟨pre, n, post, -, -, -, hs, hx, -⟩
  · cases hrc
  · rw [hs, ← hx]
    simp

/-! ## Transactions -/

/-- A list that follows the configuration has no name twice. -/
theorem follows_nodup {names : List CStr} {cfg : Finset CStr} (h : Follows names cfg) : names.Nodup := by
  rw [← Multiset.coe_nodup, show (names : Multiset CStr) = cfg.val from h]
  exact cfg.nodup

/-- A transaction leaves the entries configured, and out of the lists; one that
deletes any of them is not committed. -/
theorem unmanaged_step {c : Config} {s s' : System} {t : Transaction} (hs : Unmanaged c s) (ht : t.Fits s)
    (h : s.step t = some s') : Unmanaged c s' ∧ (t.DeletesFrom c → s'.config = s.config) := by
  have hspd : ∀ {rc spd}, applyItems spdOps t.spdCalls s.spd t.spd = some (rc, spd) → ∀ x ∈ c.spd,
      x ∉ spd.entries.map (·.name) ∧ (rc = .ok () → ∀ b, .deleted b ∈ t.spd → b.name ≠ x) :=
    fun hr x hx => applyItems_absent changesNames_spd spdAdds_subset mem_of_removeSpdEntry (hs.spdList x hx)
      (name_ne_of_fits ht.spd (hs.spd hx)) hr
  have hsad : ∀ {rc sad}, applyItems sadOps t.sadCalls s.sad t.sad = some (rc, sad) → ∀ x ∈ c.sad,
      x ∉ sad.entries.map (·.name) ∧ (rc = .ok () → ∀ b, .deleted b ∈ t.sad → b.name ≠ x) :=
    fun hr x hx => applyItems_absent changesNames_sad sadAdds_subset mem_of_removeSadEntry (hs.sadList x hx)
      (name_ne_of_fits ht.sad (hs.sad hx)) hr
  rcases system_step_cases ht.oneList ht.spdItems ht.sadItems h with
    ⟨err, hrun, heq, hcfg⟩ | ⟨hrun, rc, hrun', ⟨rfl, hcfg⟩ | ⟨-, hcfg⟩⟩
  · refine ⟨⟨hcfg ▸ hs.spd, hcfg ▸ hs.sad, fun x hx => (hspd hrun x hx).1, heq ▸ hs.sadList⟩, fun _ => hcfg⟩
  · -- Both callbacks accept the transaction, so it deletes no entry of `c`.
    refine ⟨⟨?_, ?_, fun x hx => (hspd hrun x hx).1, fun x hx => (hsad hrun' x hx).1⟩, ?_⟩
    · rw [hcfg]
      exact fun x hx => mem_commit_of_mem (hs.spd hx) ((hspd hrun x hx).2 rfl)
    · rw [hcfg]
      exact fun x hx => mem_commit_of_mem (hs.sad hx) ((hsad hrun' x hx).2 rfl)
    · rintro (⟨b, hb, hx⟩ | ⟨b, hb, hx⟩)
      · exact absurd rfl ((hspd hrun _ hx).2 rfl b hb)
      · exact absurd rfl ((hsad hrun' _ hx).2 rfl b hb)
  · exact ⟨⟨hcfg ▸ hs.spd, hcfg ▸ hs.sad, fun x hx => (hspd hrun x hx).1, fun x hx => (hsad hrun' x hx).1⟩,
      fun _ => hcfg⟩

/-- In every run of transactions after a start, each in one of the lists only,
the entries configured before it stay configured and out of the lists, and no
transaction that deletes one of them is committed. -/
theorem existing_stay {c : Config} {ts : List Transaction}
    (ht : Along System.step (fun s t => t.Fits s) ts (.startOn c)) :
    Always System.step (Unmanaged c) ts (.startOn c) ∧
      Along System.step (fun s t => t.DeletesFrom c → ∀ s', s.step t = some s' → s'.config = s.config) ts
        (.startOn c) := by
  have hstay : Always System.step (Unmanaged c) ts (.startOn c) :=
    always_of_along (fun hs hf h => (unmanaged_step hs hf h).1)
      ⟨subset_rfl, subset_rfl, fun _ _ => List.not_mem_nil, fun _ _ => List.not_mem_nil⟩ ht
  exact ⟨hstay, ht.imp_of_always (fun hs hf hd s' h => (unmanaged_step hs hf h).2 hd) hstay⟩

/-- A transaction that deletes an SAD entry. -/
def deletion (sad : Block sadEntryXpath) : Transaction := ⟨[⟨.sad, .deleted sad⟩], spdCalls, sadCalls⟩

/-- The SAD entry `gw` is configured when the daemon starts. -/
def gwConfigured : System := .startOn ⟨∅, {lit "gw"}⟩

/-- Then it is to be deleted. -/
def gwStays : System := (gwConfigured.step (deletion (sadBlockOf (lit "gw")))).get (by decide +kernel)

/-- An SAD entry that was configured before the daemon started cannot be deleted. -/
theorem existing_stay_gw :
    gwConfigured.step (deletion (sadBlockOf (lit "gw"))) = some gwStays ∧ gwStays.config = gwConfigured.config ∧
      lit "gw" ∈ gwStays.config.sad := by
  have hfits : (deletion (sadBlockOf (lit "gw"))).Fits gwConfigured := by
    refine ⟨.inl rfl, ⟨by decide, by decide, by decide⟩, ⟨by decide +kernel, by decide +kernel, by decide +kernel⟩,
      List.forall_mem_nil _, ?_⟩
    intro i hi
    obtain rfl := List.mem_singleton.mp hi
    exact Finset.mem_singleton_self _
  have hs : gwConfigured.step (deletion (sadBlockOf (lit "gw"))) = some gwStays := (Option.some_get _).symm
  obtain ⟨hstay, hrefused⟩ := @existing_stay ⟨∅, {lit "gw"}⟩ [deletion (sadBlockOf (lit "gw"))] fun s' _ =>
    ⟨hfits, trivial⟩
  have hdel : (deletion (sadBlockOf (lit "gw"))).DeletesFrom ⟨∅, {lit "gw"}⟩ :=
    .inr ⟨sadBlockOf (lit "gw"), List.mem_singleton_self _, Finset.mem_singleton_self _⟩
  exact ⟨hs, (hrefused gwStays hs).1 hdel gwStays hs, (hstay.2 gwStays hs).sad (Finset.mem_singleton_self _)⟩

end CfgIpsec.Proof
