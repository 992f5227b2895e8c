import CfgIpsec.Proof.Commute

/-!
# What a refused transaction leaves

The items before the one that is refused are applied, each to the nodes of its
own name (`applyItems_at`). From then on adding an entry of a name that is in
the list does nothing (`apply_kept`), and removing one that is not is refused
(`unmanaged_step`): what was created stays as it was read, and what was deleted
cannot be deleted (`refused_leaves`).
-/

namespace CfgIpsec.Proof

open Impl Spec Run
open CStr (lit)

/-! ## Items -/

section Items

variable {xpath : CStr → CStr} {α ρ δ : Type} {ops : EntryOps α ρ δ} {name : α → CStr}
  {R : Block xpath → α → Prop}

/-- A new entry gets a node that is related to its values, and removing the only
node of a name leaves none. -/
structure OpsList (name : α → CStr) (ops : EntryOps α ρ δ) (R : Block xpath → α → Prop) : Prop where
  within : OpsWithin name ops
  add {r : ρ} {s s' : Store α} {it : SrChangeIter} {b : Block xpath} : ofName name b.name s.entries = [] →
    ops.add r s b.body (xpath b.name) b.name = some (.ok (), it, s') →
      ∃ n, ofName name b.name s'.entries = [n] ∧ R b n
  remove {r : δ} {s s' : Store α} {x : CStr} {n : α} : ofName name x s.entries = [n] →
    ops.remove r s x = some (.ok (), s') → ofName name x s'.entries = []

/-- What becomes of the nodes of a name is up to the item about it. -/
theorem applyItems_at (h : OpsWithin name ops) {items : List (Item xpath)} (hn : (itemNames items).Nodup) {i : Item xpath}
    (hi : i ∈ items) {e : CallbackEnv ρ δ} {s s' : Store α} (hr : applyItems ops e s items = some (.ok (), s')) :
    ∃ e₁ s₁ s₂, i.apply ops e₁ s₁ = some (.ok (), s₂) ∧
      ofName name i.block.name s₁.entries = ofName name i.block.name s.entries ∧
      ofName name i.block.name s'.entries = ofName name i.block.name s₂.entries := by
  induction items generalizing e s with
  | nil => cases hi
  | cons j items ih =>
    rw [applyItems_cons] at hr
    obtain ⟨⟨rc, s₁⟩, happ, hrest⟩ := Option.bind_eq_some_iff.mp hr
    cases rc with
    | error err => cases hrest
    | ok u =>
      obtain ⟨hj, hn⟩ := List.nodup_cons.mp hn
      rcases List.mem_cons.mp hi with rfl | hi
      · exact ⟨e, s, s₁, happ, rfl, (within_applyItems h e.next items).frame hrest _ hj⟩
      · have hne : i.block.name ≠ j.block.name := fun heq => hj (List.mem_map.mpr ⟨i, hi, heq⟩)
        obtain ⟨e₁, s₂, s₃, hi', hbefore, hafter⟩ := ih hn hi hrest
        exact ⟨e₁, s₂, s₃, hi', hbefore.trans ((within_apply h e j).frame happ _ hne), hafter⟩

end Items

/-! ## Nodes of a name -/

theorem ofName_eq_nil_iff {α : Type} {name : α → CStr} {x : CStr} {entries : List α} :
    ofName name x entries = [] ↔ x ∉ entries.map name := by
  simp [ofName, List.filter_eq_nil_iff]

/-- In a list in which no name is twice a name has one node. -/
theorem ofName_singleton {α : Type} {name : α → CStr} {x : CStr} {entries : List α} (hn : (entries.map name).Nodup)
    (hx : x ∈ entries.map name) : ∃ n, ofName name x entries = [n] := by
  have hsub : ((ofName name x entries).map name).Nodup := hn.sublist (List.filter_sublist.map name)
  have hname : ∀ n ∈ ofName name x entries, name n = x := fun n hn => of_decide_eq_true (List.mem_filter.mp hn).2
  rcases hnodes : ofName name x entries with _ | ⟨n, _ | ⟨m, rest⟩⟩
  · exact absurd hx (ofName_eq_nil_iff.mp hnodes)
  · exact ⟨n, rfl⟩
  · rw [hnodes] at hsub hname
    have heq : name n = name m := (hname n (by simp)).trans (hname m (by simp)).symm
    exact absurd (heq ▸ List.mem_cons_self) (List.nodup_cons.mp hsub).1

theorem ofName_new {α : Type} {name : α → CStr} {x : CStr} {entries : List α} {n : α} (h : ofName name x entries = [])
    (hn : name n = x) : ofName name x (entries ++ [n]) = [n] := by
  rw [ofName_append, h]
  simp [ofName, hn]

theorem ofName_last {α : Type} {name : α → CStr} {x : CStr} {pre post : List α} {m n : α}
    (h : ofName name x (pre ++ n :: post) = [m]) (hn : name n = x) (hp : ∀ m ∈ pre, name m ≠ x) :
    ofName name x (pre ++ post) = [] := by
  rw [ofName_remove hn hp] at h
  exact (List.cons.inj h).2

/-- The node of an SPD entry is read from its values but for its index. -/
def ReadUnindexed (b : Block spdEntryXpath) (n : SpdEntryNode) : Prop :=
  ∃ m, ReadFrom spdReader b m ∧ unindexed n = unindexed m

theorem opsList_sad : OpsList (·.name) sadOps (ReadFrom sadReader : Block sadEntryXpath → SadEntryNode → Prop) where
  within := opsWithin_sad
  add {r s s' it b} hnone hadd := by
    rcases addSadEntry_cases hadd with ⟨err, node, -, hrc, -⟩ | ⟨node, add, get, hread, -, -, -, rfl⟩
    · cases hrc
    · exact ⟨node, ofName_new hnone (readSadEntry_name hread), r, it, hread⟩
  remove {r s s' x n} hone hrem := by
    rcases removeSadEntry_cases hrem with ⟨-, hrc, -⟩ | ⟨pre, m, post, get, del, -, hs, hx, hp, -, -, -, rfl⟩
    · cases hrc
    · exact ofName_last (hs ▸ hone) hx hp

theorem opsList_spd : OpsList (·.name) spdOps ReadUnindexed where
  within := opsWithin_spd
  add {r s s' it b} hnone hadd := by
    rcases addSpdEntry_cases hadd with
      ⟨⟨n, hn⟩, -, -, -⟩ | ⟨-, err, node, -, hrc, -⟩ | ⟨-, node, msgs, node', hread, hpol, -, rfl⟩
    · rw [getSpdNode, getNode_eq_head, hnone] at hn
      cases hn
    · cases hrc
    · have hsame := (addPolicies_spec hpol).1
      have hname : node'.name = b.name := (congrArg (·.name) hsame).trans (readSpdEntry_name hread)
      exact ⟨node', ofName_new hnone hname, node, ⟨r, it, hread⟩, hsame⟩
  remove {r s s' x n} hone hrem := by
    rcases removeSpdEntry_cases hrem with ⟨-, hrc, -⟩ | ⟨pre, m, post, msgs, node, -, hs, hx, hp, -, -, rfl⟩
    · cases hrc
    · exact ofName_last (hs ▸ hone) hx hp

/-- The only node of a name stays, unless the item deletes it. -/
theorem apply_kept {i : Item spdEntryXpath} {e : CallbackEnv AddSpdEnv RemoveSpdEnv} {s s' : Store SpdEntryNode} {rc : Rc}
    {x : CStr} {n : SpdEntryNode} (hs : ofName (·.name) x s.entries = [n]) (hi : ∀ b, i = .deleted b → b.name ≠ x)
    (hr : i.apply spdOps e s = some (rc, s')) : ofName (·.name) x s'.entries = [n] := by
  by_cases hx : x = i.block.name
  · cases i with
    | deleted b => exact absurd hx.symm (hi b rfl)
    | created b =>
      obtain ⟨⟨rc', it, s₁⟩, hadd, heq⟩ := Option.map_eq_some_iff.mp hr
      cases heq
      rcases addSpdEntry_cases hadd with ⟨-, -, -, rfl⟩ | ⟨hnone, -⟩ | ⟨hnone, -⟩
      · exact hs
      -- The list has the name, so nothing is read.
      all_goals
        rw [getSpdNode, getNode_eq_head, show b.name = x from hx.symm, hs] at hnone
        cases hnone
  · exact ((within_apply opsWithin_spd e i).frame hr x hx).trans hs

theorem applyItems_kept {items : List (Item spdEntryXpath)} {e : CallbackEnv AddSpdEnv RemoveSpdEnv}
    {s s' : Store SpdEntryNode} {rc : Rc} {x : CStr} {n : SpdEntryNode} (hs : ofName (·.name) x s.entries = [n])
    (hdel : ∀ b, .deleted b ∈ items → b.name ≠ x) (hr : applyItems spdOps e s items = some (rc, s')) :
    ofName (·.name) x s'.entries = [n] := by
  induction items generalizing e s with
  | nil => cases hr; exact hs
  | cons i items ih =>
    rw [applyItems_cons] at hr
    obtain ⟨⟨rc₁, s₁⟩, happ, hr⟩ := Option.bind_eq_some_iff.mp hr
    have hs₁ := apply_kept hs (fun b hb => hdel b (hb ▸ List.mem_cons_self)) happ
    cases rc₁ with
    | error err => cases hr; exact hs₁
    | ok u => exact ih hs₁ (fun b hb => hdel b (List.mem_cons_of_mem _ hb)) hr

/-! ## Runs -/

/-- The node of an entry is kept until a transaction deletes it. -/
theorem system_kept {s s' : System} {t : Transaction} {x : CStr} {n : SpdEntryNode}
    (hs : ofName (·.name) x s.spd.entries = [n]) (ht : t.Fits s) (hdel : ¬t.DeletesSpd x) (h : s.step t = some s') :
    ofName (·.name) x s'.spd.entries = [n] := by
  have hnone : ∀ b, .deleted b ∈ t.spd → b.name ≠ x := fun b hb hx => hdel ⟨b, hb, hx⟩
  rcases system_step_cases ht.oneList ht.spdItems ht.sadItems h with ⟨err, hrun, -, -⟩ | ⟨hrun, -⟩
  · exact applyItems_kept hs hnone hrun
  · exact applyItems_kept hs hnone hrun

theorem always_kept {ts : List Transaction} {s : System} {x : CStr} {n : SpdEntryNode}
    (hs : ofName (·.name) x s.spd.entries = [n]) (ht : AllFit ts s) (hdel : ∀ t ∈ ts, ¬t.DeletesSpd x) :
    Always System.step (fun s => ofName (·.name) x s.spd.entries = [n]) ts s := by
  induction ts generalizing s with
  | nil => exact hs
  | cons t ts ih =>
    obtain ⟨hdt, hdel⟩ := List.forall_mem_cons.mp hdel
    exact ⟨hs, fun s' h => ih (system_kept hs (ht s' h).1 hdt h) (ht s' h).2 hdel⟩

/-- An entry that is configured and has no node stays so. -/
theorem always_stuck {ts : List Transaction} {s : System} {x : CStr} (hx : x ∈ s.config.spd)
    (hs : ofName (·.name) x s.spd.entries = []) (ht : AllFit ts s) :
    Always System.step (fun s => x ∈ s.config.spd ∧ ofName (·.name) x s.spd.entries = []) ts s := by
  have hstart : Unmanaged ⟨{x}, ∅⟩ s := by
    refine ⟨Finset.singleton_subset_iff.mpr hx, Finset.empty_subset _, fun y hy => ?_, fun y hy => ?_⟩
    · rw [Finset.mem_singleton.mp hy]
      exact ofName_eq_nil_iff.mp hs
    · cases Finset.notMem_empty y hy
  refine (always_of_along (fun hs hf h => (unmanaged_step hs hf h).1) hstart ht).mono fun s hs => ?_
  have hmem : x ∈ (⟨{x}, ∅⟩ : Config).spd := Finset.mem_singleton_self x
  exact ⟨hs.spd hmem, ofName_eq_nil_iff.mpr (hs.spdList x hmem)⟩

/-- No name is twice in the SPD list. -/
theorem nodup_step {s s' : System} {t : Transaction} (hs : (s.spd.entries.map (·.name)).Nodup) (ht : t.Fits s)
    (h : s.step t = some s') : (s'.spd.entries.map (·.name)).Nodup := by
  rcases system_step_cases ht.oneList ht.spdItems ht.sadItems h with ⟨err, hrun, -, -⟩ | ⟨hrun, -⟩
  · obtain ⟨done, -, -, hnames, -⟩ := applyItems_done changesNames_spd hrun
    exact hnames ▸ nodup_foldl hs
  · exact applyItems_spd_ok hrun ▸ nodup_foldl hs

/-- In every run after a start, each transaction in one of the lists only, one
that the SPD callback refuses leaves what it did before: the entries that it
created keep the nodes that were read for it, even when they are created again
with other values, and those that it deleted are configured from then on and
cannot be deleted. -/
theorem refused_leaves {c : Config} {ts : List Transaction} {s s' : System} {t : Transaction}
    (hts : AllFit ts (.startOn c)) (hrun : run System.step ts (.startOn c) = some s) (ht : t.Fits s)
    (h : s.step t = some s') (hr : ¬t.Accepted s) :
    ∃ done, done <+: t.spd ∧ done ≠ t.spd ∧ applyItems spdOps t.spdCalls s.spd done = some (.ok (), s'.spd) ∧
      ∀ i ∈ done, Leaves s s' i := by
  have hstart : ((System.startOn c).spd.entries.map (·.name)).Nodup := List.nodup_nil
  have hnodup : (s.spd.entries.map (·.name)).Nodup :=
    (always_of_along (P := fun s : System => (s.spd.entries.map (·.name)).Nodup)
      (fun hs hf h => nodup_step hs hf h) hstart hts).last hrun
  rw [accepted_iff ht.oneList ht.spdItems] at hr
  rcases system_step_cases ht.oneList ht.spdItems ht.sadItems h with ⟨err, happlied, -, hcfg⟩ | ⟨happlied, -⟩
  · obtain ⟨done, hpre, hdone, -, ⟨-, hrc⟩ | ⟨hne, -⟩⟩ := applyItems_done changesNames_spd happlied
    · cases hrc
    refine ⟨done, hpre, hne, hdone, fun i hi => ?_⟩
    have hnames : (itemNames done).Nodup := ht.spdItems.names.sublist (hpre.sublist.map _)
    obtain ⟨e₁, s₁, s₂, happ, hbefore, hafter⟩ := applyItems_at opsWithin_spd hnames hi hdone
    cases i with
    | created b =>
      by_cases hx : b.name ∈ s.spd.entries.map (·.name)
      · obtain ⟨n, hn⟩ := ofName_singleton hnodup hx
        have hkept : ofName (·.name) b.name s₂.entries = [n] :=
          apply_kept (hbefore.trans hn) (fun b' hb' => (by cases hb')) happ
        exact ⟨n, .inl hn, fun ts hts hdel => always_kept (hafter.trans hkept) hts hdel⟩
      · have hnew : ofName (·.name) b.name s.spd.entries = [] := ofName_eq_nil_iff.mpr hx
        obtain ⟨⟨rc, it, s₃⟩, hadd, heq⟩ := Option.map_eq_some_iff.mp happ
        cases heq
        obtain ⟨n, hn, m, hread, hsame⟩ := opsList_spd.add (hbefore.trans hnew) hadd
        exact ⟨n, .inr ⟨hnew, m, hread, hsame⟩, fun ts hts hdel => always_kept (hafter.trans hn) hts hdel⟩
    | deleted b =>
      have hfits : b.name ∈ s'.config.spd := hcfg ▸ ht.spd _ (hpre.subset hi)
      -- What was deleted had a node, and only one.
      have hlisted : b.name ∈ s₁.entries.map (·.name) := mem_of_removeSpdEntry happ
      have hsome : ofName (·.name) b.name s.spd.entries ≠ [] :=
        fun hnil => ofName_eq_nil_iff.mp (hbefore.trans hnil) hlisted
      obtain ⟨n, hn⟩ := ofName_singleton hnodup (not_not.mp (mt ofName_eq_nil_iff.mpr hsome))
      have hgone := opsList_spd.remove (hbefore.trans hn) happ
      exact fun ts hts => always_stuck hfits (hafter.trans hgone) hts
  · exact absurd ⟨_, happlied⟩ hr

/-- `new` with another remote subnet. -/
def newBlockAgain : Block spdEntryXpath where
  name := lit "new"
  listData := ⟨0, none⟩
  nameRaw := 0
  values := [⟨⟨0x1000, some (lit "192.168.203.0/24")⟩,
    spdEntryXpath (lit "new") ++ lit "/ipsec-policy-config/traffic-selector/remote-prefix"⟩]
  ne_nil := List.cons_ne_nil _ _
  extend := by decide +kernel

/-- The policy `gw` is configured when the daemon starts. -/
def gwPolicyConfigured : System := .startOn ⟨{lit "gw"}, ∅⟩

def afterRefused : System := (gwPolicyConfigured.step newForGw).get (by decide +kernel)

def afterAgain : System := (afterRefused.step (creation [newBlockAgain] [])).get (by decide +kernel)

theorem step_newForGw : gwPolicyConfigured.step newForGw = some afterRefused := (Option.some_get _).symm

theorem step_newAgain : afterRefused.step (creation [newBlockAgain] []) = some afterAgain := (Option.some_get _).symm

/-- The entry is committed with the other subnet, and its node has the first. -/
theorem refused_leaves_new :
    lit "new" ∈ afterAgain.config.spd ∧ ∃ n m, ofName (·.name) (lit "new") afterAgain.spd.entries = [n] ∧
      ReadFrom spdReader (spdBlockOf (lit "new")) m ∧ unindexed n = unindexed m := by
  have hruns : (newForGw.tellSpd .change emptyStore).any (fun r => r.1 ≠ .ok ()) = true ∧
      afterRefused.config.spd = {lit "gw"} ∧ afterRefused.spd.entries ≠ [] ∧ lit "new" ∈ afterAgain.config.spd := by
    decide +kernel
  obtain ⟨htell, hcfg, hlist, hmem⟩ := hruns
  have hfits : newForGw.Fits gwPolicyConfigured := by
    refine ⟨.inr rfl, ⟨by decide +kernel, by decide +kernel, by decide +kernel⟩, ⟨by decide, by decide, by decide⟩, ?_,
      List.forall_mem_nil _⟩
    have hnew : lit "new" ∉ gwPolicyConfigured.config.spd := by decide +kernel
    have hgw : lit "gw" ∈ gwPolicyConfigured.config.spd := Finset.mem_singleton_self _
    exact List.forall_mem_cons.mpr ⟨hnew, List.forall_mem_singleton.mpr hgw⟩
  have hrefused : ¬newForGw.Accepted gwPolicyConfigured := by
    rintro ⟨spd, hspd⟩
    have hok : newForGw.tellSpd .change emptyStore = some (.ok (), spd) := hspd
    rw [hok, Option.any_some, decide_eq_true_eq] at htell
    exact htell rfl
  obtain ⟨done, ⟨rest, hdone⟩, -, hrun, hleaves⟩ :=
    @refused_leaves ⟨{lit "gw"}, ∅⟩ [] _ _ _ trivial rfl hfits step_newForGw hrefused
  have hfirst : .created (spdBlockOf (lit "new")) ∈ done := by
    cases done with
    | nil =>
      have heq : emptyStore = afterRefused.spd := congrArg Prod.snd (Option.some.inj hrun)
      rw [← heq] at hlist
      exact absurd rfl hlist
    | cons i done =>
      obtain ⟨rfl, -⟩ := List.cons.inj hdone
      exact List.mem_cons_self
  obtain ⟨n, hold | ⟨-, m, hread, hsame⟩, hkept⟩ := hleaves _ hfirst
  · cases hold
  have hagain : AllFit [creation [newBlockAgain] []] afterRefused := by
    refine fun _ _ => ⟨fits_creation (.inr rfl) ⟨by decide +kernel, by decide +kernel, by decide +kernel⟩
      ⟨by decide, by decide, by decide⟩ ⟨?_, List.forall_mem_nil _⟩, trivial⟩
    refine List.forall_mem_singleton.mpr ?_
    rw [hcfg]
    decide +kernel
  have hnone : ∀ t ∈ [creation [newBlockAgain] []], ¬t.DeletesSpd (lit "new") := by
    intro t ht
    obtain rfl := List.mem_singleton.mp ht
    rintro ⟨b, hb, -⟩
    rw [spd_creation] at hb
    cases List.mem_singleton.mp hb
  exact ⟨hmem, n, m, (hkept _ hagain hnone).2 _ step_newAgain, hread, hsame⟩

end CfgIpsec.Proof
