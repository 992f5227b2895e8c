import CfgIpsec.Proof.SpdLedger
import CfgIpsec.Spec.Indexes

/-!
# Entries by the ids of their policies

For an inbound entry `pf_addpolicy` is called twice, and the second call leaves
the id of the policy for forwarding in the node. What an entry holds is the id
of one of its own policies (`Indexed`), so that this id leads back to it and
every other one to none: `spd_index` says for which entries it is that of their
own direction.
-/

namespace CfgIpsec.Proof

open Impl Spec Run
open CStr (lit)

/-- The direction of the policy of which an entry holds the id. -/
def indexedDir (n : SpdEntryNode) : BitVec 16 :=
  if n.policyDir = IPSEC_DIR_INBOUND then IPSEC_DIR_FORWARD else n.policyDir

theorem indexedDir_eq_iff {n : SpdEntryNode} : indexedDir n = n.policyDir ↔ n.policyDir ≠ IPSEC_DIR_INBOUND := by
  have hne : IPSEC_DIR_FORWARD ≠ IPSEC_DIR_INBOUND := by decide
  rw [indexedDir]
  split
  · rename_i h
    rw [h]
    exact iff_of_false hne (not_not_intro rfl)
  · rename_i h
    exact iff_of_true rfl h

/-- The policies of the kernel are those of the entries, each with its own id,
and an entry holds the id of one of its own. -/
structure Indexed (s : SpdState) : Prop where
  names : (s.store.entries.map (·.name)).Nodup
  ids : (s.policies.map (·.id)).Nodup
  dirs : (s.policies.map fun p => (p.owner, p.dir)).Nodup
  owned : ∀ p ∈ s.policies, p.owner ∈ s.store.entries.map (·.name)
  own : ∀ n ∈ s.store.entries, ∃ p ∈ s.policies, p.owner = n.name ∧ p.dir = n.policyDir
  index : ∀ n ∈ s.store.entries, ∃ p ∈ s.policies, p.owner = n.name ∧ p.dir = indexedDir n ∧ p.id = n.index

/-! ## Lookups -/

theorem find?_eq_some_of_unique {α : Type} {p : α → Bool} {l : List α} {a : α} (ha : a ∈ l) (hp : p a = true)
    (h : ∀ b ∈ l, p b = true → b = a) : l.find? p = some a := by
  obtain ⟨b, hb⟩ := Option.isSome_iff_exists.mp (List.find?_isSome.mpr ⟨a, ha, hp⟩)
  rw [hb, h b (List.mem_of_find?_eq_some hb) (List.find?_some hb)]

variable {s : SpdState} {n : SpdEntryNode} {p : Policy}

/-- The policies of an entry differ in their direction. -/
theorem Indexed.policy_unique (h : Indexed s) {q : Policy} (hp : p ∈ s.policies) (hq : q ∈ s.policies)
    (howner : p.owner = q.owner) (hdir : p.dir = q.dir) : p = q :=
  List.inj_on_of_nodup_map h.dirs hp hq (Prod.ext howner hdir)

theorem Indexed.ownId (h : Indexed s) (hp : p ∈ s.policies) (howner : p.owner = n.name)
    (hdir : p.dir = n.policyDir) : ownId? s n = some p.id := by
  rw [ownId?, find?_eq_some_of_unique hp (by simp [howner, hdir])]
  · rfl
  · intro q hq hqn
    obtain ⟨hqo, hqd⟩ := of_decide_eq_true hqn
    exact h.policy_unique hq hp (hqo.trans howner.symm) (hqd.trans hdir.symm)

/-- Only the entry of a policy can hold its id, and does so if it holds that of
the direction. -/
theorem Indexed.holds_iff (h : Indexed s) (hp : p ∈ s.policies) (hn : n ∈ s.store.entries) :
    n.index = p.id ↔ p.owner = n.name ∧ p.dir = indexedDir n := by
  obtain ⟨q, hq, howner, hdir, hid⟩ := h.index n hn
  constructor
  · intro hi
    obtain rfl : q = p := List.inj_on_of_nodup_map h.ids hq hp (hid.trans hi)
    exact ⟨howner, hdir⟩
  · rintro ⟨hpo, hpd⟩
    obtain rfl : q = p := h.policy_unique hq hp (howner.trans hpo.symm) (hdir.trans hpd.symm)
    exact hid.symm

/-- The id of its own policy leads back to an entry unless it is inbound. -/
theorem Indexed.leadsBack_iff (h : Indexed s) (hn : n ∈ s.store.entries) (hp : p ∈ s.policies)
    (howner : p.owner = n.name) (hdir : p.dir = n.policyDir) :
    getSpdNodeByIndex s.store.entries p.id = some n ↔ n.policyDir ≠ IPSEC_DIR_INBOUND := by
  rw [← indexedDir_eq_iff]
  constructor
  · intro hget
    have hi := List.find?_some hget
    exact ((h.holds_iff hp hn).mp (of_decide_eq_true hi)).2.symm.trans hdir
  · intro hd
    refine find?_eq_some_of_unique hn ?_ fun m hm hmi => ?_
    · exact decide_eq_true ((h.holds_iff hp hn).mpr ⟨howner, hdir.trans hd.symm⟩)
    · have hmo := ((h.holds_iff hp hm).mp (of_decide_eq_true hmi)).1
      exact List.inj_on_of_nodup_map h.names hm hn (hmo.symm.trans howner)

/-! ## Runs -/

/-- An entry is left with the id of its policy for forwarding, if it has one. -/
theorem addPolicies_index {e : AddSpdEnv} {ids : PolicyIds} {n n' : SpdEntryNode} {msgs : List Bytes}
    (hk : storesIds e ids n = true) (h : addPolicies e n = some (msgs, n')) :
    n'.index = if n.policyDir = IPSEC_DIR_INBOUND then ids.forward else ids.own := by
  rw [addPolicies] at h
  obtain ⟨⟨msgs₁, n₁⟩, h₁, h⟩ := Option.bind_eq_some_iff.mp h
  rw [storesIds, h₁, Option.all_some] at hk
  obtain ⟨hown, hforward⟩ := of_decide_eq_true hk
  obtain ⟨-, -, index, -, rfl, -, -, -⟩ := pfAddpolicy_spec h₁
  dsimp only at h hown hforward
  split at h
  · rename_i hd
    obtain ⟨⟨msgs₂, n₂⟩, h₂, h⟩ := Option.bind_eq_some_iff.mp h
    have hf := hforward hd
    rw [h₂, Option.all_some] at hf
    cases h
    rw [if_pos hd]
    exact of_decide_eq_true hf
  · rename_i hd
    cases h
    rw [if_neg hd]
    exact hown

/-- The policies of an entry, by their direction. -/
theorem mem_installed_iff {ids : PolicyIds} {n : SpdEntryNode} {p : Policy} :
    p ∈ installed ids n ↔ p = ⟨n.name, n.policyDir, ids.own⟩ ∨
      n.policyDir = IPSEC_DIR_INBOUND ∧ p = ⟨n.name, IPSEC_DIR_FORWARD, ids.forward⟩ := by
  rw [installed, List.mem_cons]
  split <;> simp_all

theorem nodup_dirs_installed (ids : PolicyIds) (n : SpdEntryNode) :
    ((installed ids n).map fun p => (p.owner, p.dir)).Nodup := by
  rw [installed]
  split
  · rename_i h
    simp [h, show IPSEC_DIR_INBOUND ≠ IPSEC_DIR_FORWARD by decide]
  · simp

/-- An entry is added with the policies installed for it. -/
theorem Indexed.install (h : Indexed s) {ids : PolicyIds} {n' : SpdEntryNode} (sent : List Bytes)
    (hfresh : n.name ∉ s.store.entries.map (·.name)) (hids : ((s.policies ++ installed ids n).map (·.id)).Nodup)
    (hn : unindexed n' = unindexed n)
    (hi : n'.index = if n.policyDir = IPSEC_DIR_INBOUND then ids.forward else ids.own) :
    Indexed ⟨⟨s.store.entries ++ [n'], sent⟩, s.policies ++ installed ids n⟩ := by
  have hname : n'.name = n.name := congrArg (·.name) hn
  have hdir : n'.policyDir = n.policyDir := congrArg (·.policyDir) hn
  have howner : ∀ p ∈ installed ids n, p.owner = n.name := by
    intro p hp
    rcases mem_installed_iff.mp hp with rfl | ⟨-, rfl⟩ <;> rfl
  refine ⟨?_, hids, ?_, ?_, ?_, ?_⟩
  · rw [List.map_append, List.map_singleton, hname]
    exact h.names.append (List.nodup_singleton _) (by simpa using hfresh)
  · rw [List.map_append]
    refine h.dirs.append (nodup_dirs_installed ids n) fun k hk hk' => hfresh ?_
    obtain ⟨p, hp, rfl⟩ := List.mem_map.mp hk
    obtain ⟨q, hq, heq⟩ := List.mem_map.mp hk'
    rw [← howner q hq, (Prod.mk.inj heq).1]
    exact h.owned p hp
  · refine List.forall_mem_append.mpr ⟨fun p hp => ?_, fun p hp => ?_⟩
    · rw [List.map_append]
      exact List.mem_append_left _ (h.owned p hp)
    · rw [howner p hp, List.map_append, ← hname]
      exact List.mem_append_right _ (List.mem_singleton_self _)
  · refine List.forall_mem_append.mpr ⟨fun m hm => ?_, List.forall_mem_singleton.mpr ?_⟩
    · obtain ⟨p, hp, hown⟩ := h.own m hm
      exact ⟨p, List.mem_append_left _ hp, hown⟩
    · exact ⟨_, List.mem_append_right _ (mem_installed_iff.mpr (.inl rfl)), hname.symm, hdir.symm⟩
  · refine List.forall_mem_append.mpr ⟨fun m hm => ?_, List.forall_mem_singleton.mpr ?_⟩
    · obtain ⟨p, hp, hindex⟩ := h.index m hm
      exact ⟨p, List.mem_append_left _ hp, hindex⟩
    · rw [indexedDir, hdir, hi, hname]
      by_cases hd : n.policyDir = IPSEC_DIR_INBOUND
      · refine ⟨_, List.mem_append_right _ (mem_installed_iff.mpr (.inr ⟨hd, rfl⟩)), rfl, ?_, ?_⟩
        · rw [if_pos hd]
        · rw [if_pos hd]
      · refine ⟨_, List.mem_append_right _ (mem_installed_iff.mpr (.inl rfl)), rfl, ?_, ?_⟩
        · rw [if_neg hd]
        · rw [if_neg hd]

/-- An entry is removed with its policies. -/
theorem Indexed.retire (h : Indexed s) {pre post : List SpdEntryNode} (hs : s.store.entries = pre ++ n :: post)
    (sent : List Bytes) : Indexed ⟨⟨pre ++ post, sent⟩, s.policies.filter fun p => p.owner ≠ n.name⟩ := by
  have hnames := h.names
  rw [hs, List.map_append, List.map_cons, List.nodup_middle, ← List.map_append, List.nodup_cons] at hnames
  obtain ⟨hgone, hnames⟩ := hnames
  -- The entries left are named differently, and so keep their policies.
  have hleft : ∀ m ∈ pre ++ post, m ∈ s.store.entries ∧ m.name ≠ n.name := by
    intro m hm
    refine ⟨?_, fun heq => hgone (heq ▸ List.mem_map_of_mem hm)⟩
    rw [hs]
    rcases List.mem_append.mp hm with hm | hm
    · exact List.mem_append_left _ hm
    · exact List.mem_append_right _ (List.mem_cons_of_mem _ hm)
  have hkeep : ∀ p ∈ s.policies, p.owner ≠ n.name → p ∈ s.policies.filter fun p => p.owner ≠ n.name :=
    fun p hp hne => List.mem_filter.mpr ⟨hp, decide_eq_true hne⟩
  refine ⟨hnames, h.ids.sublist (List.filter_sublist.map _), h.dirs.sublist (List.filter_sublist.map _), ?_, ?_, ?_⟩
  · intro p hp
    obtain ⟨hp, hne⟩ := List.mem_filter.mp hp
    have howned := h.owned p hp
    rw [hs, List.map_append, List.map_cons, List.mem_append, List.mem_cons] at howned
    rw [List.map_append, List.mem_append]
    exact howned.imp_right fun h => h.resolve_left (of_decide_eq_true hne)
  · intro m hm
    obtain ⟨hmem, hne⟩ := hleft m hm
    obtain ⟨p, hp, howner, hdir⟩ := h.own m hmem
    exact ⟨p, hkeep p hp (howner ▸ hne), howner, hdir⟩
  · intro m hm
    obtain ⟨hmem, hne⟩ := hleft m hm
    obtain ⟨p, hp, howner, hindex⟩ := h.index m hmem
    exact ⟨p, hkeep p hp (howner ▸ hne), howner, hindex⟩

/-- What a call does: nothing, or it appends the node it reads, with its
policies; nothing but to the policies of an absent name, or it takes the first
entry of a present one out. -/
theorem spdCall_step_cases {s' : SpdState} {c : SpdCall} (hs : c.step s = some s') :
    (∃ e ids it xpath x, c = .add e ids it xpath x ∧ newNode? e s.store.entries it xpath x = none ∧ s' = s) ∨
    (∃ e ids it xpath x n n' msgs, c = .add e ids it xpath x ∧ newNode? e s.store.entries it xpath x = some n ∧
      n.name = x ∧ getSpdNode s.store.entries x = none ∧ addPolicies e n = some (msgs, n') ∧
      s' = ⟨⟨s.store.entries ++ [n'], s.store.sent ++ msgs⟩, s.policies ++ installed ids n⟩) ∨
    (∃ e x, c = .remove e x ∧ getSpdNode s.store.entries x = none ∧
      s' = ⟨s.store, s.policies.filter fun p => p.owner ≠ x⟩) ∨
    ∃ e pre n post msgs, c = .remove e n.name ∧ s.store.entries = pre ++ n :: post ∧
      s' = ⟨⟨pre ++ post, s.store.sent ++ msgs⟩, s.policies.filter fun p => p.owner ≠ n.name⟩ := by
  cases c with
  | add e ids it xpath x =>
    obtain ⟨store, hstep, rfl⟩ := Option.map_eq_some_iff.mp hs
    obtain ⟨⟨rc, it', s₁⟩, hadd, rfl⟩ := Option.map_eq_some_iff.mp hstep
    rw [SpdCall.policies]
    rcases addSpdEntry_cases hadd with
      ⟨⟨n, hn⟩, -, -, rfl⟩ | ⟨hn, err, node, hread, -, rfl⟩ | ⟨hn, node, msgs, node', hread, hpol, -, rfl⟩
    · have hnew : newNode? e s.store.entries it xpath x = none := by rw [newNode?, hn]; rfl
      exact .inl ⟨e, ids, it, xpath, x, rfl, hnew, by rw [hnew, Option.elim_none, List.append_nil]⟩
    · have hnew : newNode? e s.store.entries it xpath x = none := by rw [newNode?, hn, hread]; rfl
      exact .inl ⟨e, ids, it, xpath, x, rfl, hnew, by rw [hnew, Option.elim_none, List.append_nil]⟩
    · have hnew : newNode? e s.store.entries it xpath x = some node := by rw [newNode?, hn, hread]; rfl
      refine .inr (.inl ⟨e, ids, it, xpath, x, node, node', msgs, rfl, hnew, readSpdEntry_name hread, hn, hpol, ?_⟩)
      rw [hnew, Option.elim_some]
  | remove e x =>
    obtain ⟨store, hstep, rfl⟩ := Option.map_eq_some_iff.mp hs
    obtain ⟨⟨rc, s₁⟩, hrem, rfl⟩ := Option.map_eq_some_iff.mp hstep
    rcases removeSpdEntry_cases hrem with ⟨hn, -, rfl⟩ | ⟨pre, n, post, msgs, node, -, he, rfl, -, -, -, rfl⟩
    · exact .inr (.inr (.inl ⟨e, x, rfl, hn, rfl⟩))
    · exact .inr (.inr (.inr ⟨e, pre, n, post, msgs, rfl, he, rfl⟩))

theorem indexed_step {s' : SpdState} {c : SpdCall} (h : Indexed s) (hk : c.KernelOk s) (hs : c.step s = some s') :
    Indexed s' := by
  rcases spdCall_step_cases hs with
    ⟨e, ids, it, xpath, x, rfl, -, rfl⟩ | ⟨e, ids, it, xpath, x, n, n', msgs, rfl, hnew, hx, hn, hpol, rfl⟩ |
      ⟨e, x, rfl, hn, rfl⟩ | ⟨e, pre, n, post, msgs, rfl, he, rfl⟩
  · exact h
  · obtain ⟨hstores, hids⟩ := hk n hnew
    refine h.install _ ?_ hids (addPolicies_spec hpol).1 (addPolicies_index hstores hpol)
    rw [hx]
    simpa using getNode_eq_none_iff.mp hn
  · -- No policy is that of an absent name.
    have hall : ∀ p ∈ s.policies, decide (p.owner ≠ x) = true := by
      intro p hp
      obtain ⟨n, hmem, hname⟩ := List.mem_map.mp (h.owned p hp)
      rw [← hname]
      exact decide_eq_true (getNode_eq_none_iff.mp hn n hmem)
    rwa [List.filter_eq_self.mpr hall]
  · exact h.retire he _

theorem indexed_start : Indexed .start :=
  ⟨List.nodup_nil, List.nodup_nil, List.nodup_nil, List.forall_mem_nil _, List.forall_mem_nil _,
    List.forall_mem_nil _⟩

theorem noneInbound_step_iff {s' : SpdState} {c : SpdCall}
    (h : ∀ n ∈ s.store.entries, n.policyDir ≠ IPSEC_DIR_INBOUND) (hs : c.step s = some s') :
    (∀ n ∈ s'.store.entries, n.policyDir ≠ IPSEC_DIR_INBOUND) ↔ c.NotInbound s := by
  rcases spdCall_step_cases hs with
    ⟨e, ids, it, xpath, x, rfl, hnew, rfl⟩ | ⟨e, ids, it, xpath, x, n, n', msgs, rfl, hnew, -, -, hpol, rfl⟩ |
      ⟨e, x, rfl, -, rfl⟩ | ⟨e, pre, n, post, msgs, rfl, he, rfl⟩
  · rw [SpdCall.NotInbound, hnew]
    exact iff_of_true h (by simp)
  · have hdir : n'.policyDir = n.policyDir := congrArg (·.policyDir) (addPolicies_spec hpol).1
    rw [SpdCall.NotInbound, hnew, List.forall_mem_append, List.forall_mem_singleton, hdir]
    exact ⟨fun hall m hm => Option.mem_some_iff.mp hm ▸ hall.2, fun hall => ⟨h, hall n rfl⟩⟩
  · exact iff_of_true h trivial
  · rw [he, List.forall_mem_append, List.forall_mem_cons] at h
    exact iff_of_true (List.forall_mem_append.mpr ⟨h.1, h.2.2⟩) trivial

/-- For which entries the id of the policy of their own direction leads back to
them, when each policy has its own id and each call of `pf_addpolicy` stores
the one it got: in every state of a run for those that are not inbound, so that
it does so for all throughout a run exactly when it adds no inbound one. -/
theorem spd_index {calls : List SpdCall} (hk : Along SpdCall.step SpdCall.KernelOk calls .start) :
    Always SpdCall.step (fun s => ∀ n ∈ s.store.entries, ∃ id, ownId? s n = some id ∧
        (getSpdNodeByIndex s.store.entries id = some n ↔ n.policyDir ≠ IPSEC_DIR_INBOUND)) calls .start ∧
      (Always SpdCall.step (fun s => ∀ n ∈ s.store.entries, LeadsBack s n) calls .start ↔
        Along SpdCall.step SpdCall.NotInbound calls .start) := by
  have hi : Always SpdCall.step Indexed calls .start :=
    always_of_along (fun h hc hs => indexed_step h hc hs) indexed_start hk
  have hown : ∀ s, Indexed s → ∀ n ∈ s.store.entries, ∃ id, ownId? s n = some id ∧
      (getSpdNodeByIndex s.store.entries id = some n ↔ n.policyDir ≠ IPSEC_DIR_INBOUND) := by
    intro s h n hn
    obtain ⟨p, hp, howner, hdir⟩ := h.own n hn
    exact ⟨p.id, h.ownId hp howner hdir, h.leadsBack_iff hn hp howner hdir⟩
  refine ⟨(always_congr (fun s h => iff_of_true (hown s h) h) hi).mpr hi, ?_⟩
  rw [always_congr (Q := fun s => ∀ n ∈ s.store.entries, n.policyDir ≠ IPSEC_DIR_INBOUND) ?_ hi]
  · exact always_iff_along noneInbound_step_iff (List.forall_mem_nil _)
  · intro s h
    refine forall₂_congr fun n hn => ?_
    obtain ⟨id, hid, hiff⟩ := hown s h n hn
    rw [LeadsBack, hid, ← hiff]
    simp

/-- What `pf_addpolicy` meets when the kernel lists the policy of `add_spd.xml`
in a direction, with an id. -/
def listsPolicy (dir : BitVec 16) (id : BitVec 32) : AddpolicyEnv :=
  { noPolicies with
    replies := [addpolicyMessage noPolicies.toPolicyEnv { createSpdNode default with
      localSubnet := lit "192.168.201.0/24", remoteSubnet := lit "192.168.202.0/24", policyDir := dir, index := id }] }

/-- The addition of an entry, with the ids of its policies. -/
def addWithIds (direction : String) (dir : BitVec 16) (own forward : BitVec 32) (name : CStr) : SpdCall :=
  let direction : SrVal := ⟨⟨0x1000, some (lit direction)⟩, spdEntryXpath name ++ lit "/direction"⟩
  .add ⟨default, listsPolicy dir own, listsPolicy IPSEC_DIR_FORWARD forward⟩ ⟨own, forward⟩
    ((direction :: (addSpdValues name).tail).map fun v => .ok v.created) (spdEntryXpath name) name

/-- Two outbound entries, and the removal of the first. -/
def outboundCalls : List SpdCall :=
  [addWithIds "outbound" IPSEC_DIR_OUTBOUND 9 0 (lit "a"), addWithIds "outbound" IPSEC_DIR_OUTBOUND 17 0 (lit "b"),
   .remove ⟨⟨1, 0, 0⟩, ⟨1, 0, 0⟩⟩ (lit "a")]

/-- Outbound entries are found by the ids of their policies. -/
theorem spd_index_outbound :
    ∃ s, run SpdCall.step outboundCalls .start = some s ∧ s.store.entries.map (·.index) = [17] ∧
      ∀ n ∈ s.store.entries, LeadsBack s n := by
  have hrun : (run SpdCall.step outboundCalls .start).any (fun s =>
      s.store.entries.map (·.index) = [17] ∧ s.store.entries.all fun n => n.policyDir ≠ IPSEC_DIR_INBOUND) = true := by
    decide +kernel
  obtain ⟨s, hs, h⟩ := (Option.any_eq_true _ _).mp hrun
  obtain ⟨hindex, hdir⟩ := of_decide_eq_true h
  refine ⟨s, hs, hindex, fun n hn => ?_⟩
  obtain ⟨id, hid, hiff⟩ := (spd_index (by decide +kernel)).1.last hs n hn
  exact ⟨id, hid, hiff.mpr (of_decide_eq_true (List.all_eq_true.mp hdir n hn))⟩

/-- An inbound entry is found by the id of its policy for forwarding only. -/
theorem spd_index_inbound :
    (∃ s n, run SpdCall.step [addWithIds "inbound" IPSEC_DIR_INBOUND 9 17 (lit "in")] .start = some s ∧
        s.store.entries = [n] ∧ n.policyDir = IPSEC_DIR_INBOUND ∧ ownId? s n = some 9 ∧
        getSpdNodeByIndex s.store.entries 9 = none ∧ getSpdNodeByIndex s.store.entries 17 = some n) ∧
      ¬∀ calls, Along SpdCall.step SpdCall.KernelOk calls .start →
        Always SpdCall.step (fun s => ∀ n ∈ s.store.entries, LeadsBack s n) calls .start := by
  have hrun : (run SpdCall.step [addWithIds "inbound" IPSEC_DIR_INBOUND 9 17 (lit "in")] .start).any (fun s =>
      s.store.entries.length = 1 ∧ s.store.entries.all fun n => n.policyDir = IPSEC_DIR_INBOUND ∧
        ownId? s n = some 9 ∧ getSpdNodeByIndex s.store.entries 9 = none ∧
        getSpdNodeByIndex s.store.entries 17 = some n) = true := by decide +kernel
  obtain ⟨s, hs, h⟩ := (Option.any_eq_true _ _).mp hrun
  obtain ⟨hlen, hall⟩ := of_decide_eq_true h
  obtain ⟨n, hn⟩ := List.length_eq_one_iff.mp hlen
  have hmem : n ∈ s.store.entries := hn ▸ List.mem_singleton_self n
  obtain ⟨hdir, hown, hnone, hsome⟩ := of_decide_eq_true (List.all_eq_true.mp hall n hmem)
  refine ⟨⟨s, n, hs, hn, hdir, hown, hnone, hsome⟩, fun h => ?_⟩
  obtain ⟨id, hid, hback⟩ := (h _ (by decide +kernel)).last hs n hmem
  rw [hown] at hid
  cases hid
  rw [hnone] at hback
  cases hback

end CfgIpsec.Proof
