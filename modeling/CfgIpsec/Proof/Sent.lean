import CfgIpsec.Proof.Daemon
import CfgIpsec.Proof.Policies
import CfgIpsec.Spec.Daemon

/-!
# What the daemon sends is well formed

Every builder makes a message that says its length and that the parser
accepts, from any node for which it makes one: so do those of the callbacks,
whatever their batches are, and the daemon sends no others
(`sends_well_formed`).
-/

namespace CfgIpsec.Proof

open Impl Spec Run
open CStr (lit)

/-! ## The builders -/

theorem wellFormed_header {types : List (BitVec 8)} (type : BitVec 8) (htype : type ∈ types) {m : SadbMsg}
    (hm : m.type = type) : WellFormed types (message m []) := by
  have hexts : IsExts ([] : List Bytes).flatten [] := ⟨.nil, List.forall_mem_nil _, List.nodup_nil⟩
  obtain ⟨hlength, hparse⟩ := parse_message (m := m) hexts (by decide)
  exact ⟨by rwa [msgType_message, hm], hlength, _, hparse⟩

theorem wellFormed_pfAddsad {e : MsgEnv} {n : SadEntryNode} {msg : Bytes} (h : pfAddsad e n = some msg) :
    WellFormed saTypes msg := by
  obtain ⟨addrs, -, htells⟩ := pfAddsad_says h
  exact ⟨by rw [htells.type]; decide, htells.length, htells.accepted⟩

theorem wellFormed_sadRequest {type : BitVec 8} (htype : type ∈ saTypes) {e : MsgEnv} {n : SadEntryNode} {msg : Bytes}
    (h : sadRequest type e n = some msg) : WellFormed saTypes msg := by
  obtain ⟨src, dst, -, -, htells, hmsg, -⟩ := sadRequest_says h
  exact ⟨hmsg ▸ htype, htells.length, htells.accepted⟩

theorem wellFormed_pfDelpolicy {e : MsgEnv} {n : SpdEntryNode} {msg : Bytes} (h : pfDelpolicy e n = some msg) :
    WellFormed policyTypes msg := by
  obtain ⟨src, hsrc, h⟩ := Option.bind_eq_some_iff.mp h
  obtain ⟨dst, hdst, h⟩ := Option.bind_eq_some_iff.mp h
  cases h
  have hpolicy : IsExt (sadbPolicy.put ⟨2, SADB_X_EXT_POLICY, n.action, n.policyDir.setWidth 8, 0, 0, 0⟩)
      SADB_X_EXT_POLICY := isExt_policy rfl
  have htells := saysEnds_message
    (m := { version := PF_KEY_V2, type := SADB_X_SPDDELETE, satype := satypeOf n.protocolParameters })
    hpolicy (isAddress_subnetAddr hsrc) (isAddress_subnetAddr hdst) (by decide) (by decide)
    (by rw [Codec.length_put]; decide)
  refine ⟨?_, htells.length, htells.accepted⟩
  show msgType _ ∈ policyTypes
  rw [msgType_message]
  exact (by decide : SADB_X_SPDDELETE ∈ policyTypes)

theorem wellFormed_pfAddpolicy {e : AddpolicyEnv} {n n' : SpdEntryNode} {msgs : List Bytes}
    (h : pfAddpolicy e n = some (msgs, n')) : ∀ msg ∈ msgs, WellFormed policyTypes msg := by
  rw [pfAddpolicy] at h
  obtain ⟨msg, hmsg, h⟩ := Option.bind_eq_some_iff.mp h
  obtain ⟨index, -, h⟩ := Option.bind_eq_some_iff.mp h
  cases h
  obtain ⟨src, dst, -, -, htype, htells⟩ := addpolicyMessage_says hmsg
  rw [List.forall_mem_cons, List.forall_mem_singleton]
  exact ⟨⟨by rw [htype]; decide, htells.length, htells.accepted⟩, wellFormed_header SADB_X_SPDDUMP (by decide) rfl⟩

theorem wellFormed_addPolicies {e : AddSpdEnv} {n n' : SpdEntryNode} {msgs : List Bytes}
    (h : addPolicies e n = some (msgs, n')) : ∀ msg ∈ msgs, WellFormed policyTypes msg := by
  rw [addPolicies] at h
  obtain ⟨⟨msgs₁, n₁⟩, h₁, h⟩ := Option.bind_eq_some_iff.mp h
  dsimp only at h
  by_cases hd : n₁.policyDir = IPSEC_DIR_INBOUND
  · rw [if_pos hd] at h
    obtain ⟨⟨msgs₂, n₂⟩, h₂, h⟩ := Option.bind_eq_some_iff.mp h
    cases h
    exact List.forall_mem_append.mpr ⟨wellFormed_pfAddpolicy h₁, wellFormed_pfAddpolicy h₂⟩
  · rw [if_neg hd] at h
    cases h
    exact wellFormed_pfAddpolicy h₁

theorem wellFormed_delPolicies {e : RemoveSpdEnv} {n n' : SpdEntryNode} {msgs : List Bytes}
    (h : delPolicies e n = some (msgs, n')) : ∀ msg ∈ msgs, WellFormed policyTypes msg := by
  rw [delPolicies] at h
  obtain ⟨del, h₁, h⟩ := Option.bind_eq_some_iff.mp h
  by_cases hd : n.policyDir = IPSEC_DIR_INBOUND
  · rw [if_pos hd] at h
    obtain ⟨forward, h₂, h⟩ := Option.bind_eq_some_iff.mp h
    cases h
    rw [List.forall_mem_cons, List.forall_mem_singleton]
    exact ⟨wellFormed_pfDelpolicy h₁, wellFormed_pfDelpolicy h₂⟩
  · rw [if_neg hd] at h
    cases h
    exact List.forall_mem_singleton.mpr (wellFormed_pfDelpolicy h₁)

/-! ## The callbacks -/

theorem sadEntryChangeCb_sent {event : SrEvent} {iter : Except SrError SrChangeIter}
    {e : CallbackEnv AddSadEnv RemoveSadEnv} {s s' : Store SadEntryNode} {rc : Rc}
    (hs : ∀ msg ∈ s.sent, WellFormed saTypes msg) (h : sadEntryChangeCb event iter e s = some (rc, s')) :
    ∀ msg ∈ s'.sent, WellFormed saTypes msg := by
  refine entryChangeCb_keeps (P := fun s : Store SadEntryNode => ∀ msg ∈ s.sent, WellFormed saTypes msg) ?_ ?_ hs h
  · intro r s s' it it' x y rc hs hadd
    rcases addSadEntry_cases hadd with ⟨err, node, -, -, rfl⟩ | ⟨node, add, get, -, hmsg, hget, -, rfl⟩
    · exact hs
    · refine List.forall_mem_append.mpr ⟨hs, ?_⟩
      rw [List.forall_mem_cons, List.forall_mem_singleton]
      exact ⟨wellFormed_pfAddsad hmsg, wellFormed_sadRequest (by decide) hget⟩
  · intro r s s' y rc hs hremove
    rcases removeSadEntry_cases hremove with ⟨-, -, rfl⟩ | ⟨pre, n, post, get, del, -, -, -, -, hget, hdel, -, rfl⟩
    · exact hs
    · refine List.forall_mem_append.mpr ⟨hs, ?_⟩
      rw [List.forall_mem_cons, List.forall_mem_singleton]
      exact ⟨wellFormed_sadRequest (by decide) hget, wellFormed_sadRequest (by decide) hdel⟩

theorem spdEntryChangeCb_sent {event : SrEvent} {iter : Except SrError SrChangeIter}
    {e : CallbackEnv AddSpdEnv RemoveSpdEnv} {s s' : Store SpdEntryNode} {rc : Rc}
    (hs : ∀ msg ∈ s.sent, WellFormed policyTypes msg) (h : spdEntryChangeCb event iter e s = some (rc, s')) :
    ∀ msg ∈ s'.sent, WellFormed policyTypes msg := by
  refine entryChangeCb_keeps (P := fun s : Store SpdEntryNode => ∀ msg ∈ s.sent, WellFormed policyTypes msg) ?_ ?_ hs h
  · intro r s s' it it' x y rc hs hadd
    rcases addSpdEntry_cases hadd with
      ⟨-, -, -, rfl⟩ | ⟨-, err, node, -, -, rfl⟩ | ⟨-, node, msgs, node', -, hpol, -, rfl⟩
    · exact hs
    · exact hs
    · exact List.forall_mem_append.mpr ⟨hs, wellFormed_addPolicies hpol⟩
  · intro r s s' y rc hs hremove
    rcases removeSpdEntry_cases hremove with ⟨-, -, rfl⟩ | ⟨pre, n, post, msgs, node, -, -, -, -, hdel, -, rfl⟩
    · exact hs
    · exact List.forall_mem_append.mpr ⟨hs, wellFormed_delPolicies hdel⟩

/-! ## Runs -/

theorem sadbRegister_sent {e : RegisterEnv} {r : Registration} (hr : ∀ msg ∈ r.sent, WellFormed [SADB_REGISTER] msg) :
    ∀ msg ∈ (sadbRegister e r).2.sent, WellFormed [SADB_REGISTER] msg := by
  have hnew : ∀ msg ∈ r.sent ++ [registerMessage e.pid SADB_SATYPE_ESP], WellFormed [SADB_REGISTER] msg :=
    List.forall_mem_append.mpr ⟨hr, List.forall_mem_singleton.mpr (wellFormed_header SADB_REGISTER (by decide) rfl)⟩
  cases hl : r.locked with
  | true =>
    rw [sadbRegister_locked hl]
    exact hr
  | false => cases hc : e.create <;> simpa [sadbRegister, pfExecRegister, hl, hc] using hnew

theorem sentWell_step {s s' : Daemon} {a : Event} (hs : SentWell s) (h : Daemon.step s a = some s') : SentWell s' := by
  cases a with
  | spdChange event iter e =>
    obtain ⟨rc, spd, hcb, rfl⟩ := step_spdChange.mp h
    exact ⟨spdEntryChangeCb_sent hs.spd hcb, hs.sad, hs.registration⟩
  | sadChange event iter e =>
    obtain ⟨rc, sad, hcb, rfl⟩ := step_sadChange.mp h
    exact ⟨hs.spd, sadEntryChangeCb_sent hs.sad hcb, hs.registration⟩
  | stateRequest e moduleName xpath parent =>
    obtain ⟨rc, nodes, o, -, rfl⟩ := step_stateRequest.mp h
    exact ⟨hs.spd, hs.sad, hs.registration⟩
  | register e =>
    obtain rfl := step_register.mp h
    exact ⟨hs.spd, hs.sad, sadbRegister_sent hs.registration⟩
  | datagram thread d notify delete =>
    obtain ⟨t, t', acts, -, -, rfl⟩ := step_datagram.mp h
    exact ⟨hs.spd, hs.sad, hs.registration⟩

/-- Whatever happens to the daemon, and in any order, each message that it has
sent says its length, is accepted by the parser, and is a request of the list
or the registration that it was sent for. -/
theorem sends_well_formed (es : List Event) : Always Daemon.step SentWell es .start :=
  always_of_along (C := fun _ _ => True) (fun hs _ h => sentWell_step hs h)
    ⟨List.forall_mem_nil _, List.forall_mem_nil _, List.forall_mem_nil _⟩ (along_of_forall (fun _ _ => trivial) es _)

end CfgIpsec.Proof
