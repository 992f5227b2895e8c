import CfgIpsec.Proof.Batches
import CfgIpsec.Proof.SpdSettings
import CfgIpsec.Spec.Transactions

/-!
# The lists along the transactions

An item that changes the configuration changes the names of a list alike
(`follows_namesAfter`), and the SAD callback refuses none (`applyItems_sad_ok`).
The SPD callback refuses values that are not of the schema's types, and what it
applied before stays (`inSync_step`). So the lists follow the configuration as
long as each transaction is about one of them (`lists_follow`); of another each
callback also applies what is not its own.
-/

namespace CfgIpsec.Proof

open Impl Spec Run
open CStr (lit)

/-! ## Names and configurations -/

section Names

variable {xpath : CStr → CStr} {adds : CStr → List CStr → List CStr} {names : List CStr} {cfg : Finset CStr}

theorem follows_mem_iff (h : Follows names cfg) (x : CStr) : x ∈ names ↔ x ∈ cfg := by
  rw [← Multiset.mem_coe, show (names : Multiset CStr) = cfg.val from h, Finset.mem_val]

/-- An item changes the names of a list as it changes the configuration. -/
theorem follows_namesAfter (hadds : ∀ x names, x ∉ names → adds x names = names ++ [x]) {i : Item xpath}
    (h : Follows names cfg) (hi : i.Fits cfg) : Follows (i.namesAfter adds names) (i.commit cfg) := by
  have heq : (names : Multiset CStr) = cfg.val := h
  cases i with
  | created b =>
    have hnew : b.name ∉ cfg := hi
    rw [Follows, Item.namesAfter, Item.commit, hadds _ _ (mt (follows_mem_iff h _).mp hnew), Finset.insert_val_of_notMem hnew,
      ← heq, ← Multiset.coe_add, Multiset.coe_singleton, add_comm, Multiset.singleton_add]
  | deleted b => rw [Follows, Item.namesAfter, Item.commit, Finset.erase_val, ← heq, Multiset.coe_erase]

/-- An item changes the configuration for its own name only. -/
theorem fits_commit {i j : Item xpath} (hne : j.block.name ≠ i.block.name) :
    j.Fits (i.commit cfg) ↔ j.Fits cfg := by
  have hmem : j.block.name ∈ i.commit cfg ↔ j.block.name ∈ cfg := by
    cases i with
    | created b => rw [Item.commit, Finset.mem_insert]; exact or_iff_right hne
    | deleted b => rw [Item.commit, Finset.mem_erase]; exact and_iff_right hne
  cases j with
  | created b => exact not_congr hmem
  | deleted b => exact hmem

/-- Of items about different entries those after the first change the
configuration it leaves. -/
theorem fits_tail {i : Item xpath} {items : List (Item xpath)} (hn : ((i :: items).map (·.block.name)).Nodup)
    (hi : ∀ j ∈ i :: items, j.Fits cfg) : ∀ j ∈ items, j.Fits (i.commit cfg) := by
  intro j hj
  have hne : j.block.name ≠ i.block.name := fun heq =>
    (List.nodup_cons.mp (List.map_cons ▸ hn)).1 (heq ▸ List.mem_map_of_mem hj)
  exact (fits_commit hne).mpr (hi j (List.mem_cons_of_mem _ hj))

theorem follows_foldl (hadds : ∀ x names, x ∉ names → adds x names = names ++ [x]) {items : List (Item xpath)}
    (hn : (items.map (·.block.name)).Nodup) (hi : ∀ i ∈ items, i.Fits cfg) (h : Follows names cfg) :
    Follows (items.foldl (Item.namesAfter adds) names) (items.foldl Item.commit cfg) := by
  induction items generalizing names cfg with
  | nil => exact h
  | cons i items ih =>
    exact ih (List.nodup_cons.mp (List.map_cons ▸ hn)).2 (fits_tail hn hi)
      (follows_namesAfter hadds h (hi i List.mem_cons_self))

/-- Items about other entries leave an entry as it is. -/
theorem mem_foldl_commit {x : CStr} {items : List (Item xpath)} (h : x ∉ items.map (·.block.name)) :
    x ∈ items.foldl Item.commit cfg ↔ x ∈ cfg := by
  induction items generalizing cfg with
  | nil => exact Iff.rfl
  | cons i items ih =>
    rw [List.map_cons, List.mem_cons, not_or] at h
    rw [List.foldl_cons, ih h.2]
    cases i with
    | created b => rw [Item.commit, Finset.mem_insert]; exact or_iff_right h.1
    | deleted b => rw [Item.commit, Finset.mem_erase]; exact and_iff_right h.1

/-- Items that fit change the configuration. -/
theorem foldl_commit_ne {i : Item xpath} {items : List (Item xpath)}
    (hn : ((i :: items).map (·.block.name)).Nodup) (hi : i.Fits cfg) : (i :: items).foldl Item.commit cfg ≠ cfg := by
  intro heq
  rw [List.map_cons, List.nodup_cons] at hn
  have hmem : i.block.name ∈ items.foldl Item.commit (i.commit cfg) ↔ i.block.name ∈ i.commit cfg :=
    mem_foldl_commit hn.1
  rw [← List.foldl_cons, heq] at hmem
  cases i with
  | created b => exact hi (hmem.mpr (Finset.mem_insert_self ..))
  | deleted b => exact Finset.notMem_erase b.name cfg (hmem.mp hi)

end Names

/-! ## The callbacks -/

theorem spdAdds_of_notMem (x : CStr) (names : List CStr) (h : x ∉ names) : spdAdds x names = names ++ [x] :=
  if_neg h

/-- The SAD callback refuses no item that changes the configuration. -/
theorem apply_sad_ok {i : Item sadEntryXpath} {e : CallbackEnv AddSadEnv RemoveSadEnv} {s s' : Store SadEntryNode}
    {cfg : Finset CStr} {rc : Rc} (h : Follows (s.entries.map (·.name)) cfg) (hi : i.Fits cfg)
    (hr : i.apply sadOps e s = some (rc, s')) : rc = .ok () := by
  cases i with
  | created b =>
    obtain ⟨⟨rc', it, s₁⟩, hadd, heq⟩ := Option.map_eq_some_iff.mp hr
    cases heq
    rcases addSadEntry_cases hadd with ⟨err, node, hread, -, -⟩ | ⟨node, add, get, -, -, -, rfl, -⟩
    · -- The reader fails only when no change is left, and a block has one.
      obtain ⟨v, vs, hvs⟩ := List.exists_cons_of_ne_nil b.ne_nil
      rw [Block.body, hvs, List.map_cons, readSadEntry, srGetChangeNext] at hread
      obtain ⟨⟨it', st⟩, -, hread⟩ := Option.bind_eq_some_iff.mp hread
      cases st <;> cases hread
    · rfl
  | deleted b =>
    rcases removeSadEntry_cases hr with ⟨hn, -, -⟩ | ⟨pre, n, post, get, del, -, -, -, -, -, -, rfl, -⟩
    · have hmem := (follows_mem_iff h _).mpr hi
      obtain ⟨m, hm, hname⟩ := List.mem_map.mp hmem
      exact absurd hname (getNode_eq_none_iff.mp hn m hm)
    · rfl

theorem applyItems_sad_ok {items : List (Item sadEntryXpath)} {e : CallbackEnv AddSadEnv RemoveSadEnv}
    {s s' : Store SadEntryNode} {cfg : Finset CStr} {rc : Rc} (h : Follows (s.entries.map (·.name)) cfg)
    (hn : (items.map (·.block.name)).Nodup) (hi : ∀ i ∈ items, i.Fits cfg)
    (hr : applyItems sadOps e s items = some (rc, s')) :
    rc = .ok () ∧ Follows (s'.entries.map (·.name)) (items.foldl Item.commit cfg) := by
  induction items generalizing e s cfg with
  | nil => cases hr; exact ⟨rfl, h⟩
  | cons i items ih =>
    obtain ⟨⟨rc₁, s₁⟩, happ, hr⟩ := Option.bind_eq_some_iff.mp hr
    have hfit := hi i List.mem_cons_self
    obtain rfl := apply_sad_ok h hfit happ
    refine ih ?_ (List.nodup_cons.mp (List.map_cons ▸ hn)).2 (fits_tail hn hi) hr
    rw [apply_ok changesNames_sad happ]
    exact follows_namesAfter (fun _ _ _ => rfl) h hfit

/-- The reader of SPD entries accepts a block with values of the schema's types. -/
theorem apply_spd_conforms {i : Item spdEntryXpath} {e : CallbackEnv AddSpdEnv RemoveSpdEnv} {s s' : Store SpdEntryNode}
    {cfg : Finset CStr} {rc : Rc} (h : Follows (s.entries.map (·.name)) cfg) (hi : i.Fits cfg) (hc : i.Conforms)
    (hr : i.apply spdOps e s = some (rc, s')) : rc = .ok () := by
  cases i with
  | created b =>
    obtain ⟨entry, hvalues⟩ := hc
    obtain ⟨⟨rc', it, s₁⟩, hadd, heq⟩ := Option.map_eq_some_iff.mp hr
    cases heq
    rcases addSpdEntry_cases hadd with ⟨-, rfl, -⟩ | ⟨-, err, node, hread, -, -⟩ | ⟨-, node, msgs, node', -, -, rfl, -⟩
    · rfl
    · have hbody : b.body = spdBlock b.name entry := by rw [Block.body, hvalues, List.map_map]; rfl
      have hne : entry ≠ [] := fun hnil => b.ne_nil (by rw [hvalues, hnil]; rfl)
      rw [hbody] at hread
      cases (readSpdSettings_ok hne hread).1
    · rfl
  | deleted b =>
    rcases removeSpdEntry_cases hr with ⟨hn, -, -⟩ | ⟨pre, n, post, msgs, node, -, -, -, -, -, rfl, -⟩
    · obtain ⟨m, hm, hname⟩ := List.mem_map.mp ((follows_mem_iff h _).mpr hi)
      exact absurd hname (getNode_eq_none_iff.mp hn m hm)
    · rfl

theorem applyItems_spd_conforms {items : List (Item spdEntryXpath)} {e : CallbackEnv AddSpdEnv RemoveSpdEnv}
    {s s' : Store SpdEntryNode} {cfg : Finset CStr} {rc : Rc} (h : Follows (s.entries.map (·.name)) cfg)
    (hn : (items.map (·.block.name)).Nodup) (hi : ∀ i ∈ items, i.Fits cfg) (hc : ∀ i ∈ items, i.Conforms)
    (hr : applyItems spdOps e s items = some (rc, s')) : rc = .ok () := by
  induction items generalizing e s cfg with
  | nil => cases hr; rfl
  | cons i items ih =>
    obtain ⟨⟨rc₁, s₁⟩, happ, hr⟩ := Option.bind_eq_some_iff.mp hr
    obtain ⟨hci, hc⟩ := List.forall_mem_cons.mp hc
    have hfit := hi i List.mem_cons_self
    obtain rfl := apply_spd_conforms h hfit hci happ
    refine ih ?_ (List.nodup_cons.mp (List.map_cons ▸ hn)).2 (fits_tail hn hi) hc hr
    rw [apply_ok changesNames_spd happ]
    exact follows_namesAfter spdAdds_of_notMem h hfit

/-- When the SPD callback refuses items that change the configuration, the list
still follows it exactly when the first of them is refused. -/
theorem applyItems_spd_error {items : List (Item spdEntryXpath)} {e : CallbackEnv AddSpdEnv RemoveSpdEnv}
    {s s' : Store SpdEntryNode} {cfg : Finset CStr} {err : SrError} (h : Follows (s.entries.map (·.name)) cfg)
    (hn : (items.map (·.block.name)).Nodup) (hi : ∀ i ∈ items, i.Fits cfg)
    (hr : applyItems spdOps e s items = some (.error err, s')) :
    Follows (s'.entries.map (·.name)) cfg ↔
      ∃ i rest err' s₁, items = i :: rest ∧ i.apply spdOps e s = some (.error err', s₁) := by
  cases items with
  | nil => cases hr
  | cons i items =>
    obtain ⟨⟨rc₁, s₁⟩, happ, hr⟩ := Option.bind_eq_some_iff.mp hr
    cases rc₁ with
    | error err' =>
      cases hr
      obtain rfl := apply_error changesNames_spd happ
      exact iff_of_true h ⟨i, items, err', _, rfl, happ⟩
    | ok u =>
      obtain ⟨done, hpre, -, hnames, -⟩ := applyItems_done changesNames_spd hr
      have hsub : (i :: done).Sublist (i :: items) := hpre.sublist.cons_cons i
      have hn' := hn.sublist (hsub.map _)
      have hi' : ∀ j ∈ i :: done, j.Fits cfg := fun j hj => hi j (hsub.subset hj)
      have hafter := follows_foldl spdAdds_of_notMem hn' hi' h
      rw [List.foldl_cons, ← apply_ok changesNames_spd happ, ← hnames] at hafter
      refine iff_of_false (fun hf => ?_) ?_
      · exact foldl_commit_ne hn' (hi i List.mem_cons_self) (Finset.val_injective (hafter.symm.trans hf))
      · rintro ⟨j, rest, err', s₂, heq, happ'⟩
        cases heq
        rw [happ] at happ'
        cases happ'

theorem applyItems_spd_ok {items : List (Item spdEntryXpath)} {e : CallbackEnv AddSpdEnv RemoveSpdEnv}
    {s s' : Store SpdEntryNode} (hr : applyItems spdOps e s items = some (.ok (), s')) :
    s'.entries.map (·.name) = items.foldl (Item.namesAfter spdAdds) (s.entries.map (·.name)) := by
  obtain ⟨done, -, -, hnames, ⟨rfl, -⟩ | ⟨-, hrc⟩⟩ := applyItems_done changesNames_spd hr
  · exact hnames
  · cases hrc

/-- Repeated names never come into the SPD list. -/
theorem nodup_foldl {items : List (Item spdEntryXpath)} {names : List CStr} (h : names.Nodup) :
    (items.foldl (Item.namesAfter spdAdds) names).Nodup := by
  induction items generalizing names with
  | nil => exact h
  | cons i items ih =>
    refine ih ?_
    cases i with
    | created b =>
      rw [Item.namesAfter, spdAdds]
      split
      · exact h
      · rename_i hx
        exact List.Nodup.append h (List.nodup_singleton _) (by simpa using hx)
    | deleted b => exact h.erase _

/-! ## What the callbacks are told -/

/-- Where no entry is of the SAD, the iterator gives the changes of the SPD. -/
theorem changes_spd {items : List DbItem} (h : items.filterMap DbItem.ofSad? = []) :
    items.flatMap DbItem.changes = (items.filterMap DbItem.ofSpd?).flatMap Item.changes := by
  induction items with
  | nil => rfl
  | cons i items ih =>
    obtain ⟨db, i⟩ := i
    cases db with
    | spd =>
      rw [List.filterMap_cons_none rfl] at h
      exact congrArg (i.changes ++ ·) (ih h)
    | sad => exact absurd h (List.cons_ne_nil i _)

/-- Where no entry is of the SPD, the iterator gives the changes of the SAD. -/
theorem changes_sad {items : List DbItem} (h : items.filterMap DbItem.ofSpd? = []) :
    items.flatMap DbItem.changes = (items.filterMap DbItem.ofSad?).flatMap Item.changes := by
  induction items with
  | nil => rfl
  | cons i items ih =>
    obtain ⟨db, i⟩ := i
    cases db with
    | spd => exact absurd h (List.cons_ne_nil i _)
    | sad =>
      rw [List.filterMap_cons_none rfl] at h
      exact congrArg (i.changes ++ ·) (ih h)

section Told

variable {t : Transaction}

/-- The SPD callback applies the entries of a transaction that has none of the
SAD, or is not called. -/
theorem tellSpd_change (ho : t.OneList) (hi : Items t.spd) (s : Store SpdEntryNode) :
    t.tellSpd .change s = applyItems spdOps t.spdCalls s t.spd := by
  rw [Transaction.tellSpd]
  split
  · rename_i h
    rw [List.isEmpty_iff.mp h, applyItems]
  · rename_i h
    have hsad : t.sad = [] := ho.resolve_left fun hspd => h (List.isEmpty_iff.mpr hspd)
    rw [Transaction.changes, changes_spd hsad]
    exact spdEntryChangeCb_items hi _ _

theorem tellSad_change (ho : t.OneList) (hi : Items t.sad) (s : Store SadEntryNode) :
    t.tellSad .change s = applyItems sadOps t.sadCalls s t.sad := by
  rw [Transaction.tellSad]
  split
  · rename_i h
    rw [List.isEmpty_iff.mp h, applyItems]
  · rename_i h
    have hspd : t.spd = [] := ho.resolve_right fun hsad => h (List.isEmpty_iff.mpr hsad)
    rw [Transaction.changes, changes_sad hspd]
    exact sadEntryChangeCb_items hi _ _

/-- Of the other events the callbacks take no notice. -/
theorem tellSpd_of_ne {event : SrEvent} (h : event ≠ .change) (s : Store SpdEntryNode) :
    t.tellSpd event s = some (.ok (), s) := by
  rw [Transaction.tellSpd, spdEntryChangeCb, entryChangeCb, if_neg h, ite_self]

theorem tellSad_of_ne {event : SrEvent} (h : event ≠ .change) (s : Store SadEntryNode) :
    t.tellSad event s = some (.ok (), s) := by
  rw [Transaction.tellSad, sadEntryChangeCb, entryChangeCb, if_neg h, ite_self]

/-- What a transaction makes of the lists, and whether it is committed: both
callbacks accept it, or one refuses it and the configuration stays. -/
theorem step_cases {s s' : System} (h : s.step t = some s') :
    (∃ err, t.tellSpd .change s.spd = some (.error err, s'.spd) ∧ s'.sad = s.sad ∧ s'.config = s.config) ∨
    t.tellSpd .change s.spd = some (.ok (), s'.spd) ∧ ∃ rc, t.tellSad .change s.sad = some (rc, s'.sad) ∧
      (rc = .ok () ∧ s'.config = s.config.commit t ∨ rc ≠ .ok () ∧ s'.config = s.config) := by
  rw [System.step] at h
  obtain ⟨⟨rc, spd⟩, hspd, h⟩ := Option.bind_eq_some_iff.mp h
  cases rc with
  | error err => cases h; exact .inl ⟨err, hspd, rfl, rfl⟩
  | ok u =>
    obtain ⟨⟨rc, sad⟩, hsad, h⟩ := Option.bind_eq_some_iff.mp h
    cases rc with
    | error err =>
      simp only [tellSpd_of_ne (show SrEvent.abort ≠ .change by decide), Option.bind_eq_bind, Option.bind_some] at h
      cases h
      exact .inr ⟨hspd, _, hsad, .inr ⟨fun h => (by cases h), rfl⟩⟩
    | ok u =>
      simp only [tellSpd_of_ne (show SrEvent.done ≠ .change by decide),
        tellSad_of_ne (show SrEvent.done ≠ .change by decide), Option.bind_eq_bind, Option.bind_some] at h
      cases h
      exact .inr ⟨hspd, _, hsad, .inl ⟨rfl, rfl⟩⟩

/-- As `step_cases`, of entries of one list, which are applied one after the
other. -/
theorem system_step_cases {s s' : System} (ho : t.OneList) (hspd : Items t.spd) (hsad : Items t.sad)
    (h : s.step t = some s') :
    (∃ err, applyItems spdOps t.spdCalls s.spd t.spd = some (.error err, s'.spd) ∧ s'.sad = s.sad ∧
      s'.config = s.config) ∨
    applyItems spdOps t.spdCalls s.spd t.spd = some (.ok (), s'.spd) ∧ ∃ rc,
      applyItems sadOps t.sadCalls s.sad t.sad = some (rc, s'.sad) ∧
      (rc = .ok () ∧ s'.config = s.config.commit t ∨ rc ≠ .ok () ∧ s'.config = s.config) := by
  rw [← tellSpd_change ho hspd, ← tellSad_change ho hsad]
  exact step_cases h

end Told

/-! ## Transactions -/

/-- What becomes of a transaction that changes the configuration while the SAD
list follows it: the SPD callback refuses it, or both callbacks accept it. -/
theorem fits_step_cases {s s' : System} {t : Transaction} (ht : t.Fits s)
    (hsad : Follows (s.sad.entries.map (·.name)) s.config.sad) (h : s.step t = some s') :
    (∃ err, applyItems spdOps t.spdCalls s.spd t.spd = some (.error err, s'.spd) ∧ s'.sad = s.sad ∧
      s'.config = s.config) ∨
    (applyItems spdOps t.spdCalls s.spd t.spd = some (.ok (), s'.spd) ∧
      Follows (s'.sad.entries.map (·.name)) s'.config.sad ∧ s'.config = s.config.commit t) := by
  rcases system_step_cases ht.oneList ht.spdItems ht.sadItems h with hrefused | ⟨hspd, rc, hrun, hcfg⟩
  · exact .inl hrefused
  · obtain ⟨rfl, hfollows⟩ := applyItems_sad_ok hsad ht.sadItems.names ht.sad hrun
    have hcfg : s'.config = s.config.commit t := (hcfg.resolve_right fun h => h.1 rfl).2
    exact .inr ⟨hspd, by rw [hcfg]; exact hfollows, hcfg⟩

theorem accepted_iff {s : System} {t : Transaction} (ho : t.OneList) (h : Items t.spd) :
    t.Accepted s ↔ ∃ spd, applyItems spdOps t.spdCalls s.spd t.spd = some (.ok (), spd) := by
  rw [Transaction.Accepted, tellSpd_change ho h]

theorem step_names {s s' : System} {t : Transaction} (ht : t.Fits s)
    (hs : Follows (s.sad.entries.map (·.name)) s.config.sad ∧ (s.spd.entries.map (·.name)).Nodup)
    (h : s.step t = some s') :
    Follows (s'.sad.entries.map (·.name)) s'.config.sad ∧ (s'.spd.entries.map (·.name)).Nodup := by
  rcases fits_step_cases ht hs.1 h with ⟨err, hspd, hsad, hcfg⟩ | ⟨hspd, hsad, -⟩
  · obtain ⟨done, -, -, hnames, -⟩ := applyItems_done changesNames_spd hspd
    rw [hsad, hcfg, hnames]
    exact ⟨hs.1, nodup_foldl hs.2⟩
  · rw [applyItems_spd_ok hspd]
    exact ⟨hsad, nodup_foldl hs.2⟩

/-- A transaction keeps the lists in sync exactly when the SPD callback accepts
it or refuses it at its first entry. -/
theorem inSync_step {s s' : System} {t : Transaction} (hs : InSync s) (ht : t.Fits s) (h : s.step t = some s') :
    InSync s' ↔ t.Accepted s ∨ t.RefusedAtOnce s := by
  rw [accepted_iff ht.oneList ht.spdItems]
  rcases fits_step_cases ht hs.sad h with ⟨err, hspd, hsad, hcfg⟩ | ⟨hspd, hsad, hcfg⟩
  · have hiff := applyItems_spd_error hs.spd ht.spdItems.names ht.spd hspd
    rw [← hcfg] at hiff
    constructor
    · exact fun hs' => .inr (hiff.mp hs'.spd)
    · rintro (⟨spd, hok⟩ | hrefused)
      · rw [hspd] at hok
        cases hok
      · exact ⟨hiff.mpr hrefused, by rw [hsad, hcfg]; exact hs.sad⟩
  · refine iff_of_true ⟨?_, hsad⟩ (.inl ⟨_, hspd⟩)
    rw [applyItems_spd_ok hspd, hcfg]
    exact follows_foldl spdAdds_of_notMem ht.spdItems.names ht.spd hs.spd

/-- While the SPD list follows the configuration its callback accepts what
changes it, with values of the schema's types. -/
theorem accepted_of_conforms {s s' : System} {t : Transaction} (hs : InSync s) (ht : t.Fits s) (hc : t.Conforms)
    (h : s.step t = some s') : t.Accepted s := by
  rw [accepted_iff ht.oneList ht.spdItems]
  rcases system_step_cases ht.oneList ht.spdItems ht.sadItems h with ⟨err, hspd, -, -⟩ | ⟨hspd, -⟩
  · cases applyItems_spd_conforms hs.spd ht.spdItems.names ht.spd hc hspd
  · exact ⟨_, hspd⟩

/-- In every run of transactions that change the committed configuration, with
values of the schema's types and each in one of the lists only, both lists
follow it. -/
theorem lists_follow {ts : List Transaction}
    (ht : Along System.step (fun s t => t.Fits s ∧ t.Conforms) ts .start) : Always System.step InSync ts .start :=
  always_of_along (fun hs ht h => (inSync_step hs ht.1 h).mpr (.inl (accepted_of_conforms hs ht.1 ht.2 h)))
    ⟨rfl, rfl⟩ ht

/-- A transaction that creates entries. -/
def creation (spd : List (Block spdEntryXpath)) (sad : List (Block sadEntryXpath)) : Transaction :=
  ⟨spd.map (fun b => ⟨.spd, .created b⟩) ++ sad.map (fun b => ⟨.sad, .created b⟩), spdCalls, sadCalls⟩

theorem spd_creation (spd : List (Block spdEntryXpath)) (sad : List (Block sadEntryXpath)) :
    (creation spd sad).spd = spd.map .created := by
  rw [creation, Transaction.spd, List.filterMap_append, List.filterMap_map, List.filterMap_map]
  change spd.filterMap (some ∘ Item.created) ++ sad.filterMap (fun _ => none) = _
  rw [List.filterMap_eq_map, List.filterMap_none, List.append_nil]

theorem sad_creation (spd : List (Block spdEntryXpath)) (sad : List (Block sadEntryXpath)) :
    (creation spd sad).sad = sad.map .created := by
  rw [creation, Transaction.sad, List.filterMap_append, List.filterMap_map, List.filterMap_map]
  change spd.filterMap (fun _ => none) ++ sad.filterMap (some ∘ Item.created) = _
  rw [List.filterMap_eq_map, List.filterMap_none, List.nil_append]

theorem fits_creation {spd : List (Block spdEntryXpath)} {sad : List (Block sadEntryXpath)} {s : System}
    (ho : spd = [] ∨ sad = []) (hspd : Items (spd.map Item.created)) (hsad : Items (sad.map Item.created))
    (hnew : (∀ b ∈ spd, b.name ∉ s.config.spd) ∧ ∀ b ∈ sad, b.name ∉ s.config.sad) : (creation spd sad).Fits s := by
  refine ⟨?_, spd_creation spd sad ▸ hspd, sad_creation spd sad ▸ hsad, ?_, ?_⟩
  · rw [Transaction.OneList, spd_creation, sad_creation, List.map_eq_nil_iff, List.map_eq_nil_iff]
    exact ho
  · intro i hi
    rw [spd_creation] at hi
    obtain ⟨b, hb, rfl⟩ := List.mem_map.mp hi
    exact hnew.1 b hb
  · intro i hi
    rw [sad_creation] at hi
    obtain ⟨b, hb, rfl⟩ := List.mem_map.mp hi
    exact hnew.2 b hb

/-- After the policy `gw` is created. -/
def gwPolicy : System := (System.start.step (creation [spdBlockOf (lit "gw")] [])).get (by decide +kernel)

/-- A policy and an SA of one name, in two transactions. -/
theorem lists_follow_gw :
    Always System.step InSync [creation [spdBlockOf (lit "gw")] [], creation [] [sadBlockOf (lit "gw")]] .start := by
  have hstep : System.start.step (creation [spdBlockOf (lit "gw")] []) = some gwPolicy := (Option.some_get _).symm
  have hspd : (creation [spdBlockOf (lit "gw")] []).Fits .start :=
    fits_creation (.inr rfl) ⟨by decide +kernel, by decide +kernel, by decide +kernel⟩
      ⟨by decide, by decide, by decide⟩ (by decide +kernel)
  have hsad : (creation [] [sadBlockOf (lit "gw")]).Fits gwPolicy :=
    fits_creation (.inl rfl) ⟨by decide, by decide, by decide⟩
      ⟨by decide +kernel, by decide +kernel, by decide +kernel⟩ (by decide +kernel)
  have hconforms : (creation [spdBlockOf (lit "gw")] []).Conforms := by
    intro i hi
    rw [spd_creation] at hi
    obtain rfl := List.mem_singleton.mp hi
    exact ⟨addSpdSettings, addSpdValues_eq (lit "gw")⟩
  refine lists_follow fun s hs => ⟨⟨hspd, hconforms⟩, ?_⟩
  rw [hstep] at hs
  cases hs
  refine fun s _ => ⟨⟨hsad, fun i hi => ?_⟩, trivial⟩
  rw [spd_creation] at hi
  cases hi

/-- One transaction with a policy and an SA puts both into both lists. -/
theorem lists_follow_mixed :
    ∃ s, System.start.step (creation [spdBlockOf (lit "gw")] [sadBlockOf (lit "other")]) = some s ∧
      s.config.spd = {lit "gw"} ∧ s.config.sad = {lit "other"} ∧
      s.spd.entries.map (·.name) = [lit "gw", lit "other"] ∧ s.sad.entries.map (·.name) = [lit "gw", lit "other"] ∧
      ¬InSync s := by
  have hrun : (System.start.step (creation [spdBlockOf (lit "gw")] [sadBlockOf (lit "other")])).any (fun s =>
      s.config.spd = {lit "gw"} ∧ s.config.sad = {lit "other"} ∧ s.spd.entries.map (·.name) = [lit "gw", lit "other"] ∧
        s.sad.entries.map (·.name) = [lit "gw", lit "other"]) = true := by decide +kernel
  obtain ⟨s, hs, h⟩ := (Option.any_eq_true _ _).mp hrun
  obtain ⟨hspd, hsad, hspdNames, hsadNames⟩ := of_decide_eq_true h
  refine ⟨s, hs, hspd, hsad, hspdNames, hsadNames, fun hsync => ?_⟩
  have hmem := (follows_mem_iff hsync.sad (lit "gw")).mp (by rw [hsadNames]; exact List.mem_cons_self)
  rw [hsad] at hmem
  exact absurd hmem (by decide)

end CfgIpsec.Proof
