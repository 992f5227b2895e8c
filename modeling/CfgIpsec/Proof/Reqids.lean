import CfgIpsec.Proof.Policies
import CfgIpsec.Proof.SpdSettings
import CfgIpsec.Spec.Protocols

/-!
# The reqids of policies and SAs

Both messages carry the low half of the `reqid` that the reader stored whole
(`request_of_addpolicy`, `pfAddsad_says`), and the level is chosen by the whole
of it. So they link a policy with its SAs exactly when the upper halves do not
matter (`links_reqids_iff`).
-/

namespace CfgIpsec.Proof

open Impl Spec Tlv
open CStr (lit)

/-! ## What the readers store -/

theorem sadSchema_reqid : sadSchema.all (fun node => nodeLeaf node = some .reqid ↔ node = reqidNode) = true := by
  decide +kernel

theorem nodeLeaf_eq_reqid_iff (s : Setting) : nodeLeaf s.node = some .reqid ↔ s.node = reqidNode := by
  simpa using List.all_eq_true.mp sadSchema_reqid s.node s.mem

theorem store_reqId {leaf : SadLeaf} {has : CStr → Bool} {d : SrData} {n m : SadEntryNode} (hl : leaf ≠ .reqid)
    (h : leaf.store has d n = some (.next m)) : m.reqId = n.reqId := by
  have hw := store_writes h
  cases leaf
  case reqid => exact absurd rfl hl
  case start | key | time | bytes | packets | idle =>
    obtain ⟨x, y, rfl⟩ := hw
    rfl
  all_goals
    obtain ⟨x, rfl⟩ := hw
    rfl

/-- A SAD entry has its `reqid` in the node. -/
theorem readSettings_reqId {malloc n : SadEntryNode} {name : CStr} {entry : List Setting} {rc : Rc} {it : SrChangeIter}
    (h : readSettings malloc name entry = some (rc, it, n)) : n.reqId = sadReqid entry := by
  rw [readSettings_valueAt (·.reqId) (·.raw) nodeLeaf_eq_reqid_iff store_reqId (fun hs => by cases hs; rfl)
    (storeAll_of_readSettings h)]
  rfl

theorem spdSchema_reqid :
    spdSchema.all (fun node =>
      match node.steps.getLast? with
      | some (.child name) => decide (spdLeafOf (lit "/" ++ name) = some .reqid ↔ node = reqidNode)
      | _ => decide (node ≠ reqidNode)) = true := by
  decide +kernel

theorem spdWrites_reqId {leaf : SpdLeaf} {n m : SpdEntryNode} (hl : leaf ≠ .reqid) (h : SpdWrites n m leaf) :
    m.reqId = n.reqId := by
  cases leaf
  case reqid => exact absurd rfl hl
  case start =>
    obtain ⟨x, y, rfl⟩ := h
    rfl
  all_goals
    obtain ⟨x, rfl⟩ := h
    rfl

/-- A SPD entry has its `reqid` in the node. -/
theorem readSpdSettings_reqId {malloc n : SpdEntryNode} {name : CStr} {entry : List SpdSetting} {rc : Rc}
    {it : SrChangeIter} (h : readSpdSettings malloc name entry = some (rc, it, n)) : n.reqId = spdReqid entry := by
  rw [readSpdSettings_valueAt (·.reqId) (·.raw) (fun name s => spdLeafAt_eq_iff rfl spdSchema_reqid name s)
    spdWrites_reqId (fun hs => by cases hs; rfl) h]
  rfl

/-! ## What the messages carry -/

/-- The message of `pf_addpolicy` carries the request it describes. -/
theorem request_of_addpolicy {e : PolicyEnv} {n : SpdEntryNode} {msg : Bytes} (h : addpolicyMessage e n = some msg) :
    request? msg = some (addedRequest e n) := by
  have hlen := (policyExt_length e n).1
  obtain ⟨src, dst, -, -, -, htold⟩ := addpolicyMessage_says h
  obtain ⟨tail, hext⟩ := htold.first
  have hsize : sadbPolicy.size = 16 := rfl
  rw [request?, hext, Option.map_some, hsize, List.drop_append_of_le_length (by omega), drop_policyExt,
    List.append_assoc, sadbIpsecrequest.get_put]

theorem setWidth_eq_iff (a b : BitVec 64) : a.setWidth 32 = b.setWidth 32 ↔ a.toNat % 2 ^ 32 = b.toNat % 2 ^ 32 := by
  rw [← BitVec.toNat_inj, BitVec.toNat_setWidth, BitVec.toNat_setWidth]

theorem level_addedRequest (e : PolicyEnv) (n : SpdEntryNode) :
    (addedRequest e n).level = IPSEC_LEVEL_UNIQUE ↔ n.reqId ≠ 0 := by
  rw [addedRequest]
  dsimp only
  split
  · rename_i h
    exact iff_of_true rfl h
  · rename_i h
    exact iff_of_false (by decide) h

/-- The messages of a policy and of an SA link them by their `reqid`s exactly
when the upper halves of these do not matter. -/
theorem links_reqids_iff {x y : CStr} {malloc p : SpdEntryNode} {malloc' n : SadEntryNode} {rc rc' : Rc}
    {it it' : SrChangeIter} {policies : List SpdSetting} {sas : List Setting} {e : PolicyEnv} {e' : MsgEnv}
    {policy sa : Bytes} (hp : readSpdSettings malloc x policies = some (rc, it, p))
    (hn : readSettings malloc' y sas = some (rc', it', n)) (hpolicy : addpolicyMessage e p = some policy)
    (hsa : pfAddsad e' n = some sa) :
    LinksReqids policy sa (spdReqid policies) (sadReqid sas) ↔ ReqidsFit (spdReqid policies) (sadReqid sas) := by
  have hreq : request? policy = some (addedRequest e p) := request_of_addpolicy hpolicy
  obtain ⟨addrs, -, htold⟩ := pfAddsad_says hsa
  rw [← readSpdSettings_reqId hp, ← readSettings_reqId hn, ReqidsFit, ← setWidth_eq_iff]
  have hzero : p.reqId.toNat % 2 ^ 32 = 0 ↔ (addedRequest e p).reqid = 0 :=
    (setWidth_eq_iff p.reqId 0).symm
  rw [hzero]
  constructor
  · rintro ⟨req, sa2, hr, hs, heq, hlevel⟩
    obtain rfl := Option.some.inj (hreq.symm.trans hr)
    obtain rfl := Option.some.inj (htold.sa2.symm.trans hs)
    refine ⟨heq.mp, fun hreqid => ?_⟩
    by_contra hne
    exact hlevel ((level_addedRequest e p).mpr hne) hreqid
  · rintro ⟨heq, hnonzero⟩
    refine ⟨_, _, hreq, htold.sa2, ⟨heq, fun h => congrArg (BitVec.setWidth 32) h⟩, fun hlevel hreqid => ?_⟩
    exact (level_addedRequest e p).mp hlevel (hnonzero hreqid)

/-- The leaf of a SAD entry. -/
def saOf (reqid : BitVec 64) : List Setting :=
  ⟨reqidNode, [], ⟨reqid, none⟩, by decide +kernel, noKeys, decide_eq_true reqid.isLt⟩ :: addSadPrefixes

/-- The leaf of a SPD entry. -/
def policyOf (reqid : BitVec 64) : List SpdSetting :=
  [⟨reqidNode, [], ⟨reqid, none⟩, by decide +kernel, noKeys, decide_eq_true reqid.isLt⟩,
    spdPrefix "local-prefix" "192.168.201.0/24" mem_spdSchema_local,
    spdPrefix "remote-prefix" "192.168.202.0/24" mem_spdSchema_remote]

theorem links_reqids_seven :
    ∃ p n policy sa, (readSpdSettings default (lit "out") (policyOf 7)).map (·.2.2) = some p ∧
      (readSettings default (lit "gw") (saOf 7)).map (·.2.2) = some n ∧
      addpolicyMessage ⟨⟨1, 0, 0⟩, 0, 0⟩ p = some policy ∧ pfAddsad ⟨1, 0, 0⟩ n = some sa ∧
      LinksReqids policy sa 7 7 := by
  have hpolicy : (readSpdSettings default (lit "out") (policyOf 7)).any (fun r =>
      (addpolicyMessage ⟨⟨1, 0, 0⟩, 0, 0⟩ r.2.2).isSome) = true := by decide +kernel
  have hsa : (readSettings default (lit "gw") (saOf 7)).any (fun r => (pfAddsad ⟨1, 0, 0⟩ r.2.2).isSome) = true := by
    decide +kernel
  have hreqids : spdReqid (policyOf 7) = 7 ∧ sadReqid (saOf 7) = 7 := by decide +kernel
  obtain ⟨⟨rc, it, p⟩, hp, hpolicy⟩ := (Option.any_eq_true _ _).mp hpolicy
  obtain ⟨⟨rc', it', n⟩, hn, hsa⟩ := (Option.any_eq_true _ _).mp hsa
  obtain ⟨policy, hpolicy⟩ := Option.isSome_iff_exists.mp hpolicy
  obtain ⟨sa, hsa⟩ := Option.isSome_iff_exists.mp hsa
  have hlinks := (links_reqids_iff hp hn hpolicy hsa).mpr (by rw [hreqids.1, hreqids.2]; exact ⟨fun _ => rfl, by decide⟩)
  rw [hreqids.1, hreqids.2] at hlinks
  exact ⟨p, n, policy, sa, by rw [hp]; rfl, by rw [hn]; rfl, hpolicy, hsa, hlinks⟩

/-- With a `reqid` of 2^32 a policy is for one SA alone, and has none to tell
which. -/
theorem links_reqids_wide :
    ∃ p n policy sa, (readSpdSettings default (lit "out") (policyOf 0x100000000)).map (·.2.2) = some p ∧
      (readSettings default (lit "gw") (saOf 0)).map (·.2.2) = some n ∧
      addpolicyMessage ⟨⟨1, 0, 0⟩, 0, 0⟩ p = some policy ∧ pfAddsad ⟨1, 0, 0⟩ n = some sa ∧
      (request? policy).map (fun r => (r.reqid, r.level)) = some (0, IPSEC_LEVEL_UNIQUE) ∧
      (decode sadbSa2 sa SADB_X_EXT_SA2).map (·.reqid) = some 0 ∧ ¬LinksReqids policy sa 0x100000000 0 := by
  have hpolicy : (readSpdSettings default (lit "out") (policyOf 0x100000000)).any (fun r =>
      (addpolicyMessage ⟨⟨1, 0, 0⟩, 0, 0⟩ r.2.2).any fun msg =>
        (request? msg).map (fun r => (r.reqid, r.level)) = some (0, IPSEC_LEVEL_UNIQUE)) = true := by decide +kernel
  have hsa : (readSettings default (lit "gw") (saOf 0)).any (fun r => (pfAddsad ⟨1, 0, 0⟩ r.2.2).any fun msg =>
      (decode sadbSa2 msg SADB_X_EXT_SA2).map (·.reqid) = some 0) = true := by decide +kernel
  obtain ⟨⟨rc, it, p⟩, hp, hpolicy⟩ := (Option.any_eq_true _ _).mp hpolicy
  obtain ⟨⟨rc', it', n⟩, hn, hsa⟩ := (Option.any_eq_true _ _).mp hsa
  obtain ⟨policy, hpolicy, hreq⟩ := (Option.any_eq_true _ _).mp hpolicy
  obtain ⟨sa, hsa, hsa2⟩ := (Option.any_eq_true _ _).mp hsa
  have hreq := of_decide_eq_true hreq
  refine ⟨p, n, policy, sa, by rw [hp]; rfl, by rw [hn]; rfl, hpolicy, hsa, hreq, of_decide_eq_true hsa2, ?_⟩
  rintro ⟨req, -, hr, -, -, hlevel⟩
  rw [hr] at hreq
  injection Option.some.inj hreq with hreqid hunique
  exact hlevel hunique hreqid

end CfgIpsec.Proof
