import CfgIpsec.Framework.Run
import CfgIpsec.Proof.Entries
import CfgIpsec.Proof.SadMessages
import CfgIpsec.Spec.Identity
import CfgIpsec.Spec.Yang

/-!
# The SAD list and the kernel's SAs

Adding an entry asks for the SA between its tunnel's endpoints in tunnel mode,
removing it asks for the deletion of the SA between its subnets. `sad_ledger`:
the SAs added and not deleted stay those of the list exactly as long as the
entries removed have the same ends in either mode.
-/

namespace CfgIpsec.Proof

open Impl Spec Ledger Run
open CStr (lit)

/-! ## The SA of a message -/

/-- `pf_addsad` names the SA the entry asks for. -/
theorem saIdent?_pfAddsad {e : MsgEnv} {n : SadEntryNode} {msg : Bytes} (h : pfAddsad e n = some msg) :
    msgType msg = SADB_ADD ∧ saIdent? msg = some (saWanted n) := by
  obtain ⟨addrs, ha, hs⟩ := pfAddsad_says h
  refine ⟨hs.type, ?_⟩
  rw [saIdent?, hs.sa, hs.src, hs.dst, hs.satype, saWanted]
  rw [sadAddrs] at ha
  split at ha
  · rename_i ht
    cases ha
    rw [if_pos ht]; rfl
  · rename_i ht
    obtain ⟨src, hsrc, ha⟩ := Option.bind_eq_some_iff.mp ha
    obtain ⟨dst, hdst, ha⟩ := Option.bind_eq_some_iff.mp ha
    cases ha
    rw [if_neg ht, ← (subnetAddr_fields hsrc).2.2.1, ← (subnetAddr_fields hdst).2.2.1]; rfl

/-- `pf_delsad` and `pf_getsad` name the SA between the subnets. -/
theorem saIdent?_sadRequest {type : BitVec 8} {e : MsgEnv} {n : SadEntryNode} {msg : Bytes}
    (h : sadRequest type e n = some msg) :
    msgType msg = type ∧
      saIdent? msg = some (saBetween n (subnetIp n.localSubnet) (subnetIp n.remoteSubnet)) := by
  obtain ⟨src, dst, hsrc, hdst, hs, ht, hsat⟩ := sadRequest_says h
  refine ⟨ht, ?_⟩
  obtain ⟨tail, hfirst⟩ := hs.first
  have hsa : decode sadbSa msg SADB_EXT_SA = some (requestSa n) := by
    rw [decode, hfirst, Option.map_some, Codec.get_put]
  rw [saIdent?, hsa, hs.src, hs.dst, hsat, ← (subnetAddr_fields hsrc).2.2.1, ← (subnetAddr_fields hdst).2.2.1]; rfl

theorem saBetween_eq_saWanted_iff {n : SadEntryNode} :
    saBetween n (subnetIp n.localSubnet) (subnetIp n.remoteSubnet) = saWanted n ↔ SameEnds n := by
  rw [saWanted, SameEnds]
  split
  · rename_i h
    simp [saBetween, h, eq_comm]
  · rename_i h
    simp [h]

/-! ## Runs -/

/-- The SAs an entry asks for. -/
abbrev saWants (n : SadEntryNode) : Multiset SaIdent := {saWanted n}

theorem sadBook_add (entries : List SadEntryNode) (sent : List Bytes) {add get : Bytes} {i : SaIdent}
    (hadd : msgType add = SADB_ADD) (hi : saIdent? add = some i) (hget : msgType get = SADB_GET) :
    sadBook ⟨entries, sent ++ [add, get]⟩ =
      ⟨entries, sentIdents saIdent? SADB_ADD sent + {i}, sentIdents saIdent? SADB_DELETE sent⟩ := by
  have hga : msgType get ≠ SADB_ADD := by rw [hget]; decide
  have hgd : msgType get ≠ SADB_DELETE := by rw [hget]; decide
  have had : msgType add ≠ SADB_DELETE := by rw [hadd]; decide
  rw [sadBook, sentIdents_append, sentIdents_append, sentIdents_cons _ hadd hi,
    sentIdents_cons_of_ne _ hga, sentIdents_cons_of_ne _ had, sentIdents_cons_of_ne _ hgd]
  simp only [sentIdents_nil, add_zero]

theorem sadBook_del (entries : List SadEntryNode) (sent : List Bytes) {get del : Bytes} {i : SaIdent}
    (hget : msgType get = SADB_GET) (hdel : msgType del = SADB_DELETE) (hi : saIdent? del = some i) :
    sadBook ⟨entries, sent ++ [get, del]⟩ =
      ⟨entries, sentIdents saIdent? SADB_ADD sent, sentIdents saIdent? SADB_DELETE sent + {i}⟩ := by
  have hga : msgType get ≠ SADB_ADD := by rw [hget]; decide
  have hgd : msgType get ≠ SADB_DELETE := by rw [hget]; decide
  have hda : msgType del ≠ SADB_ADD := by rw [hdel]; decide
  rw [sadBook, sentIdents_append, sentIdents_append, sentIdents_cons_of_ne _ hga,
    sentIdents_cons_of_ne _ hgd, sentIdents_cons_of_ne _ hda, sentIdents_cons _ hdel hi]
  simp only [sentIdents_nil, add_zero]

/-- A step keeps the ledger balanced exactly when it removes an entry of the
same ends, or none. -/
theorem balanced_step_iff {s s' : Store SadEntryNode} {op : SadOp} (hb : InBalance saWants (sadBook s))
    (h : op.step s = some s') : InBalance saWants (sadBook s') ↔ RemovesSameEnds s op := by
  cases op with
  | add e it xpath x =>
    obtain ⟨⟨rc, it', s₁⟩, hadd, rfl⟩ := Option.map_eq_some_iff.mp h
    refine iff_of_true ?_ trivial
    rcases addSadEntry_cases hadd with ⟨-, -, -, -, rfl⟩ | ⟨node, add, get, -, hmsg, hget, -, rfl⟩
    · exact hb
    · obtain ⟨hty, hi⟩ := saIdent?_pfAddsad hmsg
      have hbook := sadBook_add (s.entries ++ [node]) s.sent hty hi (saIdent?_sadRequest hget).1
      change InBalance saWants (sadBook ⟨_, _⟩)
      rw [hbook]
      exact hb.install node
  | remove e x =>
    obtain ⟨⟨rc, s₁⟩, hrem, rfl⟩ := Option.map_eq_some_iff.mp h
    rcases removeSadEntry_cases hrem with
      ⟨hn, -, rfl⟩ | ⟨pre, n, post, get, del, hn, hs, -, -, hget, hdel, -, rfl⟩
    · exact iff_of_true hb fun n hn' => by rw [hn] at hn'; cases hn'
    · obtain ⟨hty, hi⟩ := saIdent?_sadRequest hdel
      have hbook := sadBook_del (pre ++ post) s.sent (saIdent?_sadRequest hget).1 hty hi
      rw [sadBook, hs] at hb
      change InBalance saWants (sadBook ⟨_, _⟩) ↔ _
      rw [hbook, balanced_retire_iff hb, RemovesSameEnds, hn, saWants, Multiset.singleton_inj,
        saBetween_eq_saWanted_iff]
      simp

/-- For which removals the SAs of the kernel stay those of the SAD list: every
message of `pf_delsad` names the SA of `pf_addsad` exactly for an entry whose
ends are the same in either mode, and the ledger is balanced throughout a run
exactly when every entry removed is one. -/
theorem sad_ledger (ops : List SadOp) :
    (∀ (ea ed : MsgEnv) (n : SadEntryNode) (add del : Bytes), pfAddsad ea n = some add →
      pfDelsad ed n = some del → (saIdent? del = saIdent? add ↔ SameEnds n)) ∧
    (Always SadOp.step (fun s => InBalance saWants (sadBook s)) ops emptyStore ↔
      Along SadOp.step RemovesSameEnds ops emptyStore) := by
  constructor
  · intro ea ed n add del hadd hdel
    rw [(saIdent?_pfAddsad hadd).2, (saIdent?_sadRequest hdel).2, Option.some_inj,
      saBetween_eq_saWanted_iff]
  · exact always_iff_along balanced_step_iff InBalance.nil

/-- Adding an entry and removing it again. -/
def addRemove (name : CStr) (entry : List Setting) : List SadOp :=
  [.add ⟨default, ⟨1, 0, 0⟩, ⟨1, 0, 0⟩⟩ (sadBlock name entry) (sadEntryXpath name) name,
   .remove ⟨⟨1, 0, 0⟩, ⟨1, 0, 0⟩⟩ name]

/-- An SA in transport mode goes with its entry. -/
theorem sad_ledger_transport :
    (∃ add del, pfAddsad ⟨1, 0, 0⟩ desNode = some add ∧
        pfDelsad ⟨1, 0, 0⟩ desNode = some del ∧
        saIdent? del = saIdent? add) ∧
      (run SadOp.step (addRemove (lit "gw") addSadPrefixes) emptyStore).isSome = true ∧
      Always SadOp.step (fun s => InBalance saWants (sadBook s)) (addRemove (lit "gw") addSadPrefixes) emptyStore := by
  refine ⟨?_, by decide +kernel, (sad_ledger _).2.mpr fun s hs => ⟨trivial, fun s' _ => ⟨fun n hn => ?_, trivial⟩⟩⟩
  · obtain ⟨add, hadd⟩ := Option.isSome_iff_exists.mp (by decide +kernel :
      (pfAddsad ⟨1, 0, 0⟩ desNode).isSome = true)
    obtain ⟨del, hdel⟩ := Option.isSome_iff_exists.mp (by decide +kernel :
      (pfDelsad ⟨1, 0, 0⟩ desNode).isSome = true)
    exact ⟨add, del, hadd, hdel, ((sad_ledger []).1 _ _ _ _ _ hadd hdel).mpr (by decide +kernel)⟩
  · have hall : (SadOp.step emptyStore (.add ⟨default, ⟨1, 0, 0⟩, ⟨1, 0, 0⟩⟩ (sadBlock (lit "gw") addSadPrefixes)
        (sadEntryXpath (lit "gw")) (lit "gw"))).all (fun s => s.entries.all fun n => SameEnds n) = true := by
      decide +kernel
    rw [hs, Option.all_some] at hall
    exact of_decide_eq_true (List.all_eq_true.mp hall n (List.mem_of_find?_eq_some hn))

/-- The SA of a tunnel stays when its entry is removed. -/
theorem sad_ledger_tunnel :
    ∃ s, run SadOp.step (addRemove (lit "gw") (addSadPrefixes ++ addSadTunnel)) emptyStore = some s ∧
      s.entries = [] ∧
      sentIdents saIdent? SADB_ADD s.sent =
        {⟨SADB_SATYPE_UNSPEC, 0, inetAddr (lit "192.168.123.100"), inetAddr (lit "192.168.123.200")⟩} ∧
      sentIdents saIdent? SADB_DELETE s.sent =
        {⟨SADB_SATYPE_UNSPEC, 0, inetAddr (lit "192.168.201.0"), inetAddr (lit "192.168.202.0")⟩} ∧
      ¬InBalance saWants (sadBook s) := by
  have hrun : (run SadOp.step (addRemove (lit "gw") (addSadPrefixes ++ addSadTunnel)) emptyStore).any (fun s =>
      s.entries = [] ∧
      sentIdents saIdent? SADB_ADD s.sent =
        {⟨SADB_SATYPE_UNSPEC, 0, inetAddr (lit "192.168.123.100"), inetAddr (lit "192.168.123.200")⟩} ∧
      sentIdents saIdent? SADB_DELETE s.sent =
        {⟨SADB_SATYPE_UNSPEC, 0, inetAddr (lit "192.168.201.0"), inetAddr (lit "192.168.202.0")⟩}) = true := by
    decide +kernel
  obtain ⟨s, hs, h⟩ := (Option.any_eq_true _ _).mp hrun
  obtain ⟨hentries, hadd, hdel⟩ := of_decide_eq_true h
  refine ⟨s, hs, hentries, hadd, hdel, ?_⟩
  rw [InBalance, sadBook, hentries, hadd, hdel, demand_nil, add_zero, Multiset.singleton_inj]
  decide +kernel

end CfgIpsec.Proof
