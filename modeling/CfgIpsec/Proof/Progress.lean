import CfgIpsec.Proof.Commute
import CfgIpsec.Proof.Daemon
import CfgIpsec.Proof.Memory

/-!
# Deletions are defined

A node gets into a list only after messages were made from its subnets, and
those that delete it need no more: whatever happened, a deletion runs to its
end (`deletions_defined`).
-/

namespace CfgIpsec.Proof

open Impl Spec Run
open CStr (lit)

/-! ## What the callbacks keep -/

section Loop

variable {xpath : CStr → CStr} {α ρ δ : Type} {ops : EntryOps α ρ δ} {name : α → CStr}
  {adds : CStr → List CStr → List CStr}

/-- Removing from a list of nodes that are `good` is defined, and does nothing
but take out a node of the name. -/
structure RemovesSafely (name : α → CStr) (ops : EntryOps α ρ δ) (good : α → Prop) : Prop where
  defined {s : Store α} (r : δ) (x : CStr) : (∀ n ∈ s.entries, good n) →
    ∃ rc s', ops.remove r s x = some (rc, s') ∧ (rc = .ok () ↔ x ∈ s.entries.map name)
  sub {r : δ} {s s' : Store α} {x : CStr} {rc : Rc} :
    ops.remove r s x = some (rc, s') → ∀ n ∈ s'.entries, n ∈ s.entries

theorem applyItems_deletions {good : α → Prop} (hn : ChangesNames name adds ops) (h : RemovesSafely name ops good)
    {items : List (Item xpath)} (hnames : (itemNames items).Nodup) (hdel : ∀ i ∈ items, i.IsDeletion)
    (e : CallbackEnv ρ δ) {s : Store α} (hs : ∀ n ∈ s.entries, good n) :
    ∃ rc s', applyItems ops e s items = some (rc, s') ∧
      (rc = .ok () ↔ ∀ i ∈ items, i.block.name ∈ s.entries.map name) := by
  induction items generalizing e s with
  | nil => exact ⟨.ok (), s, rfl, iff_of_true rfl (List.forall_mem_nil _)⟩
  | cons i items ih =>
    obtain ⟨hi, hitems⟩ := List.forall_mem_cons.mp hdel
    cases i with
    | created b => exact hi.elim
    | deleted b =>
      obtain ⟨hb, hnames⟩ := List.nodup_cons.mp hnames
      obtain ⟨rc, s₁, hrem, hiff⟩ := h.defined (e.remove 0) b.name hs
      rw [applyItems_cons, show Item.apply ops e s (.deleted b) = some (rc, s₁) from hrem, Option.bind_some,
        List.forall_mem_cons]
      cases rc with
      | error err =>
        refine ⟨_, _, rfl, iff_of_false (fun h => (by cases h)) fun hall => ?_⟩
        cases hiff.mpr hall.1
      | ok u =>
        obtain ⟨rc, s', hrun, hrest⟩ := ih hnames hitems e.next fun n hn' => hs n (h.sub hrem n hn')
        refine ⟨rc, s', hrun, hrest.trans ⟨fun hall => ⟨hiff.mp rfl, fun j hj => ?_⟩, fun hall j hj => ?_⟩⟩
        · have hmem := hall j hj
          rw [hn.remove_ok hrem] at hmem
          exact List.mem_of_mem_erase hmem
        · have hne : j.block.name ≠ b.name := fun heq => hb (List.mem_map.mpr ⟨j, hj, heq⟩)
          rw [hn.remove_ok hrem]
          exact (List.mem_erase_of_ne hne).mpr (hall.2 j hj)

end Loop

/-! ## The lists -/

theorem removesSafely_sad : RemovesSafely (·.name) sadOps SadRemovable where
  defined {s} r x hs := by
    cases hn : getSadNode s.entries x with
    | none =>
      refine ⟨_, _, removeSadEntry_absent hn, iff_of_false (fun h => (by cases h)) ?_⟩
      simpa using getNode_eq_none_iff.mp hn
    | some n =>
      obtain ⟨pre, post, he, hx, hp⟩ := getNode_eq_some_iff.mp hn
      have hgood : SadRemovable n := hs n (by simp [he])
      obtain ⟨get, hget⟩ := Option.isSome_iff_exists.mp (sadRequest_isSome_iff.mpr hgood)
      obtain ⟨del, hdel⟩ := Option.isSome_iff_exists.mp (sadRequest_isSome_iff.mpr hgood)
      refine ⟨_, _, removeSadEntry_eq he hx hp hget hdel, iff_of_true rfl ?_⟩
      rw [he, ← hx]
      simp
  sub h n hn := by
    rcases removeSadEntry_cases h with ⟨-, -, rfl⟩ | ⟨pre, m, post, get, del, -, he, -, -, -, -, -, rfl⟩
    · exact hn
    · rw [he]
      exact ((List.sublist_cons_self m post).append_left pre).subset hn

theorem delPolicies_isSome (e : RemoveSpdEnv) {n : SpdEntryNode} (h : SpdRemovable n) : (delPolicies e n).isSome := by
  obtain ⟨del, hdel⟩ := Option.isSome_iff_exists.mp (@pfDelpolicy_isSome_iff e.del n |>.mpr h)
  obtain ⟨forward, hforward⟩ := Option.isSome_iff_exists.mp
    (@pfDelpolicy_isSome_iff e.forward { n with policyDir := IPSEC_DIR_FORWARD } |>.mpr h)
  by_cases hd : n.policyDir = IPSEC_DIR_INBOUND
  · simp [delPolicies, hdel, hd, hforward]
  · simp [delPolicies, hdel, hd]

theorem removesSafely_spd : RemovesSafely (·.name) spdOps SpdRemovable where
  defined {s} r x hs := by
    cases hn : getSpdNode s.entries x with
    | none =>
      refine ⟨_, _, removeSpdEntry_absent hn, iff_of_false (fun h => (by cases h)) ?_⟩
      simpa using getNode_eq_none_iff.mp hn
    | some n =>
      obtain ⟨pre, post, he, hx, hp⟩ := getNode_eq_some_iff.mp hn
      have hgood : SpdRemovable n := hs n (by simp [he])
      obtain ⟨⟨msgs, node⟩, hdel⟩ := Option.isSome_iff_exists.mp (delPolicies_isSome r hgood)
      refine ⟨_, _, (removeSpdEntry_found he hx hp).trans (congrArg _ hdel), iff_of_true rfl ?_⟩
      rw [he, ← hx]
      simp
  sub h n hn := by
    rcases removeSpdEntry_cases h with ⟨-, -, rfl⟩ | ⟨pre, m, post, msgs, node, -, he, -, -, -, -, rfl⟩
    · exact hn
    · rw [he]
      exact ((List.sublist_cons_self m post).append_left pre).subset hn

/-- The policies of an entry are asked for only when its subnets are read. -/
theorem removable_of_addPolicies {e : AddSpdEnv} {n n' : SpdEntryNode} {msgs : List Bytes}
    (h : addPolicies e n = some (msgs, n')) : SpdRemovable n' := by
  have hkept : unindexed n' = unindexed n := (addPolicies_spec h).1
  have hn : SpdRemovable n := by
    obtain ⟨⟨msgs₁, n₁⟩, hadd, -⟩ := Option.bind_eq_some_iff.mp h
    rw [pfAddpolicy] at hadd
    obtain ⟨msg, hmsg, -⟩ := Option.bind_eq_some_iff.mp hadd
    exact addpolicyMessage_isSome_iff.mp (Option.isSome_of_eq_some hmsg)
  have hlocal : n'.localSubnet = n.localSubnet := congrArg (·.localSubnet) hkept
  have hremote : n'.remoteSubnet = n.remoteSubnet := congrArg (·.remoteSubnet) hkept
  rwa [SpdRemovable, hlocal, hremote]

theorem sadEntryChangeCb_removable {event : SrEvent} {iter : Except SrError SrChangeIter}
    {e : CallbackEnv AddSadEnv RemoveSadEnv} {s s' : Store SadEntryNode} {rc : Rc}
    (hs : ∀ n ∈ s.entries, SadRemovable n) (h : sadEntryChangeCb event iter e s = some (rc, s')) :
    ∀ n ∈ s'.entries, SadRemovable n := by
  refine entryChangeCb_keeps (P := fun s : Store SadEntryNode => ∀ n ∈ s.entries, SadRemovable n) ?_ ?_ hs h
  · intro r s s' it it' x y rc hs hadd
    rcases addSadEntry_cases hadd with ⟨err, node, -, -, rfl⟩ | ⟨node, add, get, -, -, hget, -, rfl⟩
    · exact hs
    · exact List.forall_mem_append.mpr
        ⟨hs, List.forall_mem_singleton.mpr (sadRequest_isSome_iff.mp (Option.isSome_of_eq_some hget))⟩
  · intro r s s' y rc hs hremove n hn
    exact hs n (removesSafely_sad.sub hremove n hn)

theorem spdEntryChangeCb_removable {event : SrEvent} {iter : Except SrError SrChangeIter}
    {e : CallbackEnv AddSpdEnv RemoveSpdEnv} {s s' : Store SpdEntryNode} {rc : Rc}
    (hs : ∀ n ∈ s.entries, SpdRemovable n) (h : spdEntryChangeCb event iter e s = some (rc, s')) :
    ∀ n ∈ s'.entries, SpdRemovable n := by
  refine entryChangeCb_keeps (P := fun s : Store SpdEntryNode => ∀ n ∈ s.entries, SpdRemovable n) ?_ ?_ hs h
  · intro r s s' it it' x y rc hs hadd
    rcases addSpdEntry_cases hadd with
      ⟨-, -, -, rfl⟩ | ⟨-, err, node, -, -, rfl⟩ | ⟨-, node, msgs, node', -, hpol, -, rfl⟩
    · exact hs
    · exact hs
    · exact List.forall_mem_append.mpr ⟨hs, List.forall_mem_singleton.mpr (removable_of_addPolicies hpol)⟩
  · intro r s s' y rc hs hremove n hn
    exact hs n (removesSafely_spd.sub hremove n hn)

/-! ## The daemon -/

/-- The lists have only nodes that can be deleted. -/
structure Removable (spd : Store SpdEntryNode) (sad : Store SadEntryNode) : Prop where
  spd : ∀ n ∈ spd.entries, SpdRemovable n
  sad : ∀ n ∈ sad.entries, SadRemovable n

theorem removable_start : Removable emptyStore emptyStore := ⟨List.forall_mem_nil _, List.forall_mem_nil _⟩

theorem removable_same {s t : Store SadEntryNode} (h : SameButCurrent s t) (ht : ∀ n ∈ t.entries, SadRemovable n) :
    ∀ n ∈ s.entries, SadRemovable n := by
  intro n hn
  have hmem : settings n ∈ t.entries.map settings := h.entries ▸ List.mem_map_of_mem hn
  obtain ⟨m, hm, heq⟩ := List.mem_map.mp hmem
  -- The settings have the subnets of the node.
  show SadRemovable (settings n)
  rw [← heq]
  exact ht m hm

theorem daemon_removable {s s' : Daemon} {a : Event} (hs : Removable s.spd s.sad) (h : Daemon.step s a = some s') :
    Removable s'.spd s'.sad := by
  cases a with
  | spdChange event iter e =>
    obtain ⟨rc, spd, hcb, rfl⟩ := step_spdChange.mp h
    exact ⟨spdEntryChangeCb_removable hs.spd hcb, hs.sad⟩
  | sadChange event iter e =>
    obtain ⟨rc, sad, hcb, rfl⟩ := step_sadChange.mp h
    exact ⟨hs.spd, sadEntryChangeCb_removable hs.sad hcb⟩
  | stateRequest | register | datagram =>
    rw [step_spd rfl h]
    exact ⟨hs.spd, removable_same (step_sad rfl h) hs.sad⟩

/-- Whatever happened to the daemon, in any order, a change that only deletes
runs to its end in either callback, and is accepted exactly when each of its
entries has a node. -/
theorem deletions_defined {es : List Event} {s : Daemon} (h : run Daemon.step es .start = some s) :
    DeletesSafely spdEntryXpath (·.name) spdEntryChangeCb s.spd ∧
      DeletesSafely sadEntryXpath (·.name) sadEntryChangeCb s.sad := by
  have hs : Removable s.spd s.sad :=
    (always_of_along (P := fun s : Daemon => Removable s.spd s.sad) (C := fun _ _ => True)
      (fun hp _ hstep => daemon_removable hp hstep) removable_start (along_of_forall (fun _ _ => trivial) es _)).last h
  refine ⟨fun items hi hdel e => ?_, fun items hi hdel e => ?_⟩
  · rw [spdEntryChangeCb_items hi]
    exact applyItems_deletions changesNames_spd removesSafely_spd hi.names hdel e hs.spd
  · rw [sadEntryChangeCb_items hi]
    exact applyItems_deletions changesNames_sad removesSafely_sad hi.names hdel e hs.sad

/-- After the events of `gw` its deletion is accepted. -/
theorem deletions_defined_gw :
    ∃ s', sadEntryChangeCb .change (.ok ([Item.deleted (sadBlockOf (lit "gw"))].flatMap Item.changes)) sadCalls
      gwDaemon.sad = some (.ok (), s') := by
  have hi : Items [Item.deleted (sadBlockOf (lit "gw"))] :=
    ⟨by decide, List.nodup_singleton _, fun i hi => (List.mem_singleton.mp hi).symm ▸ sadBlockOf_values _⟩
  have hnode : lit "gw" ∈ gwDaemon.sad.entries.map (·.name) := by decide +kernel
  obtain ⟨rc, s', hcb, hrc⟩ := (deletions_defined run_gwEvents).2 _ hi (List.forall_mem_singleton.mpr trivial) sadCalls
  obtain rfl := hrc.mpr (List.forall_mem_singleton.mpr hnode)
  exact ⟨s', hcb⟩

end CfgIpsec.Proof
