import CfgIpsec.Framework.Run
import CfgIpsec.Proof.Entries
import CfgIpsec.Proof.Policies
import CfgIpsec.Proof.Reader
import CfgIpsec.Spec.Blocks
import CfgIpsec.Spec.Identity

/-!
# The SPD list and the kernel's policies

An entry is added and removed by the same policies: that of its direction, and
for an inbound one that of forwarding, for which the node's direction is
changed and put back. `spd_ledger`: in every run the policies added and not
deleted are those of the list, the names in the list differ, and each entry is
as it was read but for its index.
-/

namespace CfgIpsec.Proof

open Impl Spec Ledger Run
open CStr (lit)

/-! ## The policy of a message -/

/-- A message that has a policy and the subnets of a node names the node's
policy. -/
theorem spIdent?_message {n : SpdEntryNode} {m : SadbMsg} {p : SadbPolicy} {more : Bytes} {zs zd : BitVec 64}
    {src dst : SadbAddress} (hext : IsExt (sadbPolicy.put p ++ more) SADB_X_EXT_POLICY)
    (hmore : (sadbPolicy.put p ++ more).length ≤ 64) (haction : p.type = n.action)
    (hdir : p.dir = n.policyDir.setWidth 8) (hsat : m.satype = satypeOf n.protocolParameters)
    (hsrc : subnetAddr zs SADB_EXT_ADDRESS_SRC n.innerProtocol n.srcport n.localSubnet = some src)
    (hdst : subnetAddr zd SADB_EXT_ADDRESS_DST n.innerProtocol n.dstport n.remoteSubnet = some dst) :
    spIdent? (message m [sadbPolicy.put p ++ more, sadbAddress.put src, sadbAddress.put dst].flatten) =
      some (spIn n n.policyDir) := by
  have hs := saysEnds_message (m := m) hext (isAddress_subnetAddr hsrc) (isAddress_subnetAddr hdst)
    (by decide) (by decide) (hmore.trans (by omega))
  obtain ⟨tail, hfirst⟩ := hs.first
  have hp : decode sadbPolicy
      (message m [sadbPolicy.put p ++ more, sadbAddress.put src, sadbAddress.put dst].flatten)
      SADB_X_EXT_POLICY = some p := by
    rw [decode, hfirst, Option.map_some, List.append_assoc, Codec.get_put]
  obtain ⟨hsproto, hslen, hsaddr, hsport⟩ := subnetAddr_fields hsrc
  obtain ⟨-, hdlen, hdaddr, hdport⟩ := subnetAddr_fields hdst
  rw [spIdent?, hp, hs.src, hs.dst, spIn, sadbMsg_get_message, ← haction, ← hdir, ← hsat, ← hsproto, ← hslen,
    ← hsaddr, ← hsport, ← hdlen, ← hdaddr, ← hdport]
  rfl

theorem pfDelpolicy_isSome_iff {e : MsgEnv} {n : SpdEntryNode} : (pfDelpolicy e n).isSome ↔ SpdRemovable n :=
  addrs_isSome_iff

theorem addpolicyMessage_isSome_iff {e : PolicyEnv} {n : SpdEntryNode} :
    (addpolicyMessage e n).isSome ↔ SpdRemovable n := addrs_isSome_iff

/-- `pf_addpolicy` sends two messages, and gives the node an index. -/
theorem pfAddpolicy_messages {e : AddpolicyEnv} {n n' : SpdEntryNode} {msgs : List Bytes}
    (h : pfAddpolicy e n = some (msgs, n')) :
    ∃ msg dump index, msgs = [msg, dump] ∧ n' = { n with index := index } ∧
      addpolicyMessage e.toPolicyEnv n = some msg ∧ msgType msg = SADB_X_SPDADD ∧ msgType dump = SADB_X_SPDDUMP := by
  rw [pfAddpolicy] at h
  obtain ⟨msg, hmsg, h⟩ := Option.bind_eq_some_iff.mp h
  obtain ⟨index, -, h⟩ := Option.bind_eq_some_iff.mp h
  cases h
  obtain ⟨src, dst, -, -, htype, -⟩ := addpolicyMessage_says hmsg
  exact ⟨_, _, index, rfl, rfl, hmsg, htype, msgType_message _ _⟩

/-- `pf_addpolicy` names the policy of the node. -/
theorem pfAddpolicy_spec {e : AddpolicyEnv} {n n' : SpdEntryNode} {msgs : List Bytes}
    (h : pfAddpolicy e n = some (msgs, n')) :
    ∃ msg dump index, msgs = [msg, dump] ∧ n' = { n with index := index } ∧ msgType msg = SADB_X_SPDADD ∧
      spIdent? msg = some (spIn n n.policyDir) ∧ msgType dump = SADB_X_SPDDUMP := by
  obtain ⟨msg, dump, index, hmsgs, hn', hmsg, htype, hdump⟩ := pfAddpolicy_messages h
  refine ⟨msg, dump, index, hmsgs, hn', htype, ?_, hdump⟩
  rw [addpolicyMessage] at hmsg
  obtain ⟨src, hsrc, hmsg⟩ := Option.bind_eq_some_iff.mp hmsg
  obtain ⟨dst, hdst, hmsg⟩ := Option.bind_eq_some_iff.mp hmsg
  cases hmsg
  have hext := isExt_policyExt e.toPolicyEnv n
  have hlen := length_policyExt e.toPolicyEnv n
  rw [policyExt_eq] at hext hlen ⊢
  exact spIdent?_message hext hlen rfl rfl rfl hsrc hdst

/-- `pf_delpolicy` names the policy of the node. -/
theorem pfDelpolicy_spec {e : MsgEnv} {n : SpdEntryNode} {msg : Bytes} (h : pfDelpolicy e n = some msg) :
    msgType msg = SADB_X_SPDDELETE ∧ spIdent? msg = some (spIn n n.policyDir) := by
  rw [pfDelpolicy] at h
  obtain ⟨src, hsrc, h⟩ := Option.bind_eq_some_iff.mp h
  obtain ⟨dst, hdst, h⟩ := Option.bind_eq_some_iff.mp h
  cases h
  refine ⟨msgType_message _ _, ?_⟩
  have hext := isExt_policy (p := ⟨2, SADB_X_EXT_POLICY, n.action, n.policyDir.setWidth 8, 0, 0, 0⟩) rfl
  rw [← List.append_nil (sadbPolicy.put _)] at hext ⊢
  refine spIdent?_message hext ?_ rfl rfl rfl hsrc hdst
  rw [List.append_nil, Codec.length_put]; decide

/-! ## What the calls send -/

theorem spWants_congr {n n' : SpdEntryNode} (h : unindexed n' = unindexed n) : spWants n' = spWants n := by
  change spWants (unindexed n') = spWants (unindexed n)
  rw [h]

/-- The policies of an entry are added, and only its index changes. -/
theorem addPolicies_spec {e : AddSpdEnv} {n n' : SpdEntryNode} {msgs : List Bytes}
    (h : addPolicies e n = some (msgs, n')) :
    unindexed n' = unindexed n ∧ sentIdents spIdent? SADB_X_SPDADD msgs = spWants n ∧
      sentIdents spIdent? SADB_X_SPDDELETE msgs = 0 := by
  have hne : SADB_X_SPDADD ≠ SADB_X_SPDDELETE := by decide
  have hda : SADB_X_SPDDUMP ≠ SADB_X_SPDADD := by decide
  have hdd : SADB_X_SPDDUMP ≠ SADB_X_SPDDELETE := by decide
  rw [addPolicies] at h
  obtain ⟨⟨msgs₁, n₁⟩, h₁, h⟩ := Option.bind_eq_some_iff.mp h
  obtain ⟨msg, dump, index, rfl, rfl, hmt, hmi, hdt⟩ := pfAddpolicy_spec h₁
  dsimp only at h
  by_cases hd : n.policyDir = IPSEC_DIR_INBOUND
  · -- The second policy is asked for through the node turned forward and back.
    rw [if_pos hd] at h
    obtain ⟨⟨msgs₂, n₂⟩, h₂, h⟩ := Option.bind_eq_some_iff.mp h
    obtain ⟨msg', dump', index', rfl, rfl, hmt', hmi', hdt'⟩ := pfAddpolicy_spec h₂
    cases h
    refine ⟨?_, ?_, ?_⟩
    · rw [unindexed, unindexed, ← hd]
    · rw [List.cons_append, List.cons_append, List.nil_append, sentIdents_cons _ hmt hmi,
        sentIdents_cons_of_ne _ (hdt ▸ hda), sentIdents_cons _ hmt' hmi', sentIdents_cons_of_ne _ (hdt' ▸ hda),
        sentIdents_nil, spWants, if_pos hd, hd]
      rfl
    · rw [List.cons_append, List.cons_append, List.nil_append, sentIdents_cons_of_ne _ (hmt ▸ hne),
        sentIdents_cons_of_ne _ (hdt ▸ hdd), sentIdents_cons_of_ne _ (hmt' ▸ hne),
        sentIdents_cons_of_ne _ (hdt' ▸ hdd), sentIdents_nil]
  · rw [if_neg hd] at h
    cases h
    refine ⟨rfl, ?_, ?_⟩
    · rw [sentIdents_cons _ hmt hmi, sentIdents_cons_of_ne _ (hdt ▸ hda), sentIdents_nil, spWants, if_neg hd,
        add_zero]
    · rw [sentIdents_cons_of_ne _ (hmt ▸ hne), sentIdents_cons_of_ne _ (hdt ▸ hdd), sentIdents_nil]

/-- The policies of an entry are deleted. -/
theorem delPolicies_spec {e : RemoveSpdEnv} {n n' : SpdEntryNode} {msgs : List Bytes}
    (h : delPolicies e n = some (msgs, n')) :
    sentIdents spIdent? SADB_X_SPDADD msgs = 0 ∧ sentIdents spIdent? SADB_X_SPDDELETE msgs = spWants n := by
  have hne : SADB_X_SPDDELETE ≠ SADB_X_SPDADD := by decide
  rw [delPolicies] at h
  obtain ⟨del, h₁, h⟩ := Option.bind_eq_some_iff.mp h
  obtain ⟨hmt, hmi⟩ := pfDelpolicy_spec h₁
  by_cases hd : n.policyDir = IPSEC_DIR_INBOUND
  · rw [if_pos hd] at h
    obtain ⟨forward, h₂, h⟩ := Option.bind_eq_some_iff.mp h
    obtain ⟨hmt', hmi'⟩ := pfDelpolicy_spec h₂
    cases h
    refine ⟨?_, ?_⟩
    · rw [sentIdents_cons_of_ne _ (hmt ▸ hne), sentIdents_cons_of_ne _ (hmt' ▸ hne), sentIdents_nil]
    · rw [sentIdents_cons _ hmt hmi, sentIdents_cons _ hmt' hmi', sentIdents_nil, spWants, if_pos hd, hd]
      rfl
  · rw [if_neg hd] at h
    cases h
    refine ⟨?_, ?_⟩
    · rw [sentIdents_cons_of_ne _ (hmt ▸ hne), sentIdents_nil]
    · rw [sentIdents_cons _ hmt hmi, sentIdents_nil, spWants, if_neg hd, add_zero]

/-! ## Runs -/

theorem spdBook_sent (entries : List SpdEntryNode) (sent msgs : List Bytes) :
    spdBook ⟨entries, sent ++ msgs⟩ =
      ⟨entries, sentIdents spIdent? SADB_X_SPDADD sent + sentIdents spIdent? SADB_X_SPDADD msgs,
        sentIdents spIdent? SADB_X_SPDDELETE sent + sentIdents spIdent? SADB_X_SPDDELETE msgs⟩ := by
  rw [spdBook, sentIdents_append, sentIdents_append]

theorem inStep_any_name {cfg : List SpdEntryNode} {s : Store SpdEntryNode} (h : InStep cfg s) (x : CStr) :
    (cfg.any fun n => n.name = x) = (getSpdNode s.entries x).isSome := by
  have hany : ∀ l : List SpdEntryNode,
      (l.any fun n => n.name = x) = (l.map unindexed).any fun n => n.name = x := by
    intro l
    rw [List.any_map]; rfl
  rw [hany, ← h.configured, ← hany, getSpdNode, getNode, List.isSome_find?]

/-- Taking the first entry of a name out does so for the configured entries. -/
theorem map_unindexed_eraseP (l : List SpdEntryNode) (x : CStr) :
    (l.eraseP fun n => n.name = x).map unindexed = (l.map unindexed).eraseP fun n => n.name = x := by
  rw [List.eraseP_map]; rfl

/-- The names in the SPD list stay different. -/
theorem nodup_names_step {s s' : Store SpdEntryNode} {op : SpdOp} (hn : (s.entries.map (·.name)).Nodup)
    (h : op.step s = some s') : (s'.entries.map (·.name)).Nodup := by
  cases op with
  | add e it xpath x =>
    obtain ⟨⟨rc, it', s₁⟩, hadd, rfl⟩ := Option.map_eq_some_iff.mp h
    rcases addSpdEntry_cases hadd with
      ⟨-, -, -, rfl⟩ | ⟨-, err, node, -, -, rfl⟩ | ⟨hget, node, msgs, node', hread, hpol, -, rfl⟩
    · exact hn
    · exact hn
    · have hx : node'.name = x := (congrArg (·.name) (addPolicies_spec hpol).1).trans (readSpdEntry_name hread)
      rw [List.map_append, List.map_singleton, hx]
      refine List.Nodup.append hn (List.nodup_singleton x) ?_
      simpa using getNode_eq_none_iff.mp hget
  | remove e x =>
    obtain ⟨⟨rc, s₁⟩, hrem, rfl⟩ := Option.map_eq_some_iff.mp h
    rcases removeSpdEntry_cases hrem with ⟨-, -, rfl⟩ | ⟨pre, n, post, msgs, node, -, hs, -, -, -, -, rfl⟩
    · exact hn
    · rw [hs] at hn
      exact hn.sublist (List.Sublist.map _ ((List.Sublist.refl pre).append (List.sublist_cons_self n post)))

theorem inStep_step {cfg : List SpdEntryNode} {s s' : Store SpdEntryNode} {op : SpdOp} (hi : InStep cfg s)
    (h : op.step s = some s') : InStep (op.configure cfg) s' := by
  have hname : ∀ x, (cfg.any fun n => n.name = x) = (getSpdNode s.entries x).isSome := inStep_any_name hi
  have hnames : (s'.entries.map (·.name)).Nodup := nodup_names_step hi.names h
  cases op with
  | add e it xpath x =>
    obtain ⟨⟨rc, it', s₁⟩, hadd, rfl⟩ := Option.map_eq_some_iff.mp h
    rw [SpdOp.configure, hname x]
    rcases addSpdEntry_cases hadd with
      ⟨⟨n, hn⟩, -, -, rfl⟩ | ⟨hn, err, node, hread, -, rfl⟩ |
        ⟨hn, node, msgs, node', hread, hpol, -, rfl⟩
    · simpa [hn] using hi
    · simpa [hn, hread] using hi
    · obtain ⟨hcfg, hadded, hdeleted⟩ := addPolicies_spec hpol
      simp only [hn, hread, Option.isSome_none, Bool.false_eq_true, if_false]
      refine ⟨hnames, ?_, ?_⟩
      · have hb := hi.balanced.install node'
        rw [spWants_congr hcfg] at hb
        rwa [spdBook_sent, hadded, hdeleted, add_zero]
      · rw [List.map_append, List.map_append, hi.configured, List.map_singleton, List.map_singleton, hcfg]
  | remove e x =>
    obtain ⟨⟨rc, s₁⟩, hrem, rfl⟩ := Option.map_eq_some_iff.mp h
    rw [SpdOp.configure]
    rcases removeSpdEntry_cases hrem with
      ⟨hn, -, rfl⟩ | ⟨pre, n, post, msgs, node, hn, hs, hx, hp, hdel, -, rfl⟩
    · have hnone : ∀ n ∈ cfg, ¬decide (n.name = x) = true := by
        have := hname x
        rw [hn] at this
        simpa using this
      rwa [List.eraseP_of_forall_not hnone]
    · obtain ⟨hadded, hdeleted⟩ := delPolicies_spec hdel
      have herase : s.entries.eraseP (fun n => n.name = x) = pre ++ post := by
        rw [hs, List.eraseP_append_right _ (by simpa using hp), List.eraseP_cons_of_pos (by simpa using hx)]
      refine ⟨hnames, ?_, ?_⟩
      · have hb := hi.balanced
        rw [spdBook, hs] at hb
        rw [spdBook_sent, hadded, hdeleted, add_zero, balanced_retire_iff hb]
      · rw [map_unindexed_eraseP, ← hi.configured, ← map_unindexed_eraseP, herase]

/-- In every run of additions and removals the SPD list and the requests stay
in step. -/
theorem spd_ledger (ops : List SpdOp) {s : Store SpdEntryNode} (h : run SpdOp.step ops emptyStore = some s) :
    InStep (ops.foldl SpdOp.configure []) s :=
  run_fold inStep_step ⟨by simp [emptyStore], InBalance.nil, rfl⟩ h

/-- What `pf_addpolicy` meets when the kernel lists no policies. -/
def noPolicies : AddpolicyEnv where
  pid := 1
  src := 0
  dst := 0
  tunnelSrc := 0
  tunnelDst := 0
  stack := ⟨lit "", lit "", 0, 0, 0, 0, 0⟩
  buf2 := .zeros
  replies := [some (message { version := PF_KEY_V2, type := SADB_X_SPDDUMP, satype := 0 } [])]

/-- The addition of an inbound entry. -/
def addInbound (name : CStr) : SpdOp :=
  .add ⟨default, noPolicies, noPolicies⟩ ((addSpdValues name).map fun v => .ok v.created) (spdEntryXpath name) name

theorem spd_ledger_inbound :
    ∃ s, run SpdOp.step [addInbound (lit "in"), addInbound (lit "in"), .remove ⟨⟨1, 0, 0⟩, ⟨1, 0, 0⟩⟩ (lit "out")]
        emptyStore = some s ∧ s.entries.length = 1 ∧ s.sent.length = 4 ∧ InBalance spWants (spdBook s) := by
  have hrun : (run SpdOp.step [addInbound (lit "in"), addInbound (lit "in"),
      .remove ⟨⟨1, 0, 0⟩, ⟨1, 0, 0⟩⟩ (lit "out")] emptyStore).any
        (fun s => s.entries.length = 1 ∧ s.sent.length = 4) = true := by decide +kernel
  obtain ⟨s, hs, h⟩ := (Option.any_eq_true _ _).mp hrun
  obtain ⟨hentries, hsent⟩ := of_decide_eq_true h
  exact ⟨s, hs, hentries, hsent, (spd_ledger _ hs).balanced⟩

end CfgIpsec.Proof
