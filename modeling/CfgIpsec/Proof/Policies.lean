import CfgIpsec.Proof.SadMessages
import CfgIpsec.Spec.Policies

/-!
# The messages of a policy

The policy extension of `pf_addpolicy` holds one request, which is as long as
it says, and the extension is as long as both (`carriesPolicy_policyExt`). So the
walk over the requests that `pf_addpolicy` makes of a reply reads back what was
put into a request (`spd_messages_decode`).
-/

namespace CfgIpsec.Proof

open Impl Spec Tlv
open CStr (lit)

/-! ## The extension -/

theorem length_tunnelAddrs (e : PolicyEnv) (n : SpdEntryNode) :
    (tunnelAddrs e n).length = 0 ∨ (tunnelAddrs e n).length = 32 := by
  rw [tunnelAddrs]
  split
  · right
    rw [List.length_append, Codec.length_put, Codec.length_put]; rfl
  · left; rfl

/-- The policy `pf_addpolicy` describes, before its request. -/
def addedPolicy (e : PolicyEnv) (n : SpdEntryNode) : SadbPolicy where
  len := BitVec.ofNat 16 (sadbPolicy.size / 8 + (sadbIpsecrequest.size + (tunnelAddrs e n).length) / 8)
  exttype := SADB_X_EXT_POLICY
  type := n.action
  dir := n.policyDir.setWidth 8
  id := n.index
  priority := 0

/-- The request inside it. -/
def addedRequest (e : PolicyEnv) (n : SpdEntryNode) : SadbIpsecrequest where
  len := BitVec.ofNat 16 (sadbIpsecrequest.size + (tunnelAddrs e n).length)
  proto := n.protocolParameters
  mode := n.ipsecMode.setWidth 8
  level := if n.reqId ≠ 0 then IPSEC_LEVEL_UNIQUE else IPSEC_LEVEL_REQUIRE
  reqid := n.reqId.setWidth 32

theorem policyExt_eq (e : PolicyEnv) (n : SpdEntryNode) :
    policyExt e n = sadbPolicy.put (addedPolicy e n) ++ (sadbIpsecrequest.put (addedRequest e n) ++ tunnelAddrs e n) :=
  List.append_assoc ..

theorem isExt_policyExt (e : PolicyEnv) (n : SpdEntryNode) : IsExt (policyExt e n) SADB_X_EXT_POLICY := by
  have hp : sadbPolicy.size = 16 := rfl
  have hr : sadbIpsecrequest.size = 16 := rfl
  have hlen := length_tunnelAddrs e n
  rw [policyExt_eq]
  refine isExt_put _ (n := sadbPolicy.size / 8 + (sadbIpsecrequest.size + (tunnelAddrs e n).length) / 8)
    rfl (by omega) (by omega) ?_
  change sadbPolicy.size + _ = _
  rw [List.length_append, Codec.length_put]
  omega

theorem length_policyExt (e : PolicyEnv) (n : SpdEntryNode) : (policyExt e n).length ≤ 64 := by
  have hp : sadbPolicy.size = 16 := rfl
  have hr : sadbIpsecrequest.size = 16 := rfl
  have hlen := length_tunnelAddrs e n
  rw [policyExt_eq, List.length_append, List.length_append, Codec.length_put, Codec.length_put]
  omega

theorem isExt_policy {p : SadbPolicy} (h : p.len = 2) : IsExt (sadbPolicy.put p) p.exttype :=
  isExt_put_nil _ (n := 2) h (by omega) (by omega) rfl

/-! ## The walk over the requests -/

theorem sadbPolicy_get (bs : Bytes) :
    sadbPolicy.get bs = ⟨getLE bs 0 16, getLE bs 2 16, getLE bs 4 16, getLE bs 6 8, getLE bs 7 8, getLE bs 8 32,
      getLE bs 12 32⟩ := by
  simp only [sadbPolicy, sadbExt, Codec.iso, Codec.prod, u8, u16, u32, Codec.le, getLE_drop]

theorem sadbIpsecrequest_get (bs : Bytes) :
    sadbIpsecrequest.get bs = ⟨getLE bs 0 16, getLE bs 2 16, getLE bs 4 8, getLE bs 5 8, getLE bs 6 16, getLE bs 8 32,
      getLE bs 12 32⟩ := by
  simp only [sadbIpsecrequest, Codec.iso, Codec.prod, u8, u16, u32, Codec.le, getLE_drop]

/-- The loop of `pf_addpolicy` notes the requests its walk visits. -/
theorem walkRequests_eq {buf : Bytes} {policy extlen off stop : Nat} {offs : List Nat}
    (h : Walks buf policy extlen off offs stop) {fuel : Nat} (hf : offs.length < fuel) (t : Dump) :
    walkRequests buf policy extlen fuel off t = offs.foldlM (noteRequest buf policy) t := by
  induction h generalizing fuel t with
  | stop h =>
    obtain ⟨fuel, rfl⟩ : ∃ k, fuel = k + 1 := ⟨fuel - 1, by omega⟩
    rw [walkRequests, if_neg (by omega), List.foldlM_nil]
    rfl
  | @visit off stop offs len h hlen rest ih =>
    rw [List.length_cons] at hf
    obtain ⟨fuel, rfl⟩ : ∃ k, fuel = k + 1 := ⟨fuel - 1, by omega⟩
    rw [walkRequests, if_pos h, List.foldlM_cons, noteRequest, hlen]
    cases getLE? buf (policy + off + 4) 8 with
    | none => rfl
    | some mode =>
      cases getLE? buf (policy + off + 2) 16 with
      | none => rfl
      | some proto => exact ih (by omega) _

/-! ## What the extension carries -/

theorem policyExt_length (e : PolicyEnv) (n : SpdEntryNode) :
    (policyExt e n).length = 32 + (tunnelAddrs e n).length ∧
      8 * (addedPolicy e n).len.toNat = (policyExt e n).length ∧
      (addedRequest e n).len.toNat = 16 + (tunnelAddrs e n).length := by
  have hp : sadbPolicy.size = 16 := rfl
  have hr : sadbIpsecrequest.size = 16 := rfl
  have hlen := length_tunnelAddrs e n
  have hext : (policyExt e n).length = 32 + (tunnelAddrs e n).length := by
    rw [policyExt_eq, List.length_append, List.length_append, Codec.length_put, Codec.length_put]
    omega
  refine ⟨hext, ?_, ?_⟩
  · rw [hext, addedPolicy, BitVec.toNat_ofNat, Nat.mod_eq_of_lt (by omega)]
    omega
  · rw [addedRequest, BitVec.toNat_ofNat, Nat.mod_eq_of_lt (by omega), hr]

theorem get_policyExt (e : PolicyEnv) (n : SpdEntryNode) : sadbPolicy.get (policyExt e n) = addedPolicy e n := by
  rw [policyExt_eq, sadbPolicy.get_put]

theorem drop_policyExt (e : PolicyEnv) (n : SpdEntryNode) :
    (policyExt e n).drop 16 = sadbIpsecrequest.put (addedRequest e n) ++ tunnelAddrs e n := by
  rw [policyExt_eq]
  exact List.drop_left' (sadbPolicy.length_put _)

theorem get_drop_policyExt (e : PolicyEnv) (n : SpdEntryNode) :
    sadbIpsecrequest.get ((policyExt e n).drop 16) = addedRequest e n := by
  rw [drop_policyExt, sadbIpsecrequest.get_put]

/-- A field of the extension, whatever it stands between. -/
theorem field_policyExt (e : PolicyEnv) (n : SpdEntryNode) (pre post : Bytes) {off w : Nat} (h : off + w / 8 ≤ 32) :
    getLE? (pre ++ (policyExt e n ++ post)) (pre.length + off) w = some (getLE (policyExt e n) off w) := by
  have hlen := (policyExt_length e n).1
  exact getLE?_within pre post off (by omega)

/-- The walk over the requests of the extension visits the one it has. -/
theorem walks_policyExt (e : PolicyEnv) (n : SpdEntryNode) (pre post : Bytes) :
    extLen (pre ++ (policyExt e n ++ post)) pre.length = some (addedPolicy e n).len ∧
      Walks (pre ++ (policyExt e n ++ post)) pre.length (8 * (addedPolicy e n).len.toNat) 16 [16]
        (8 * (addedPolicy e n).len.toNat) := by
  obtain ⟨hlen, hext, hreq⟩ := policyExt_length e n
  have hpolicy := get_policyExt e n
  have hrequest := get_drop_policyExt e n
  rw [sadbPolicy_get] at hpolicy
  rw [sadbIpsecrequest_get, getLE_drop] at hrequest
  refine ⟨?_, ?_⟩
  · rw [extLen, ← congrArg (·.len) hpolicy]
    have hat : 0 + 16 / 8 ≤ 32 := by omega
    exact field_policyExt e n pre post hat
  · have hat : getLE? (pre ++ (policyExt e n ++ post)) (pre.length + 16) 16 = some (addedRequest e n).len := by
      rw [← congrArg (·.len) hrequest]
      exact field_policyExt e n pre post (by omega)
    have hend : 16 + (addedRequest e n).len.toNat = 8 * (addedPolicy e n).len.toNat := by omega
    refine .visit (by omega) hat ?_
    rw [hend]
    exact .stop le_rfl

/-- What `pf_addpolicy` notes of the extension is what it put there. -/
theorem dumpVisit_policyExt (e : PolicyEnv) (n : SpdEntryNode) (pre post : Bytes) (t : Dump) :
    dumpVisit (pre ++ (policyExt e n ++ post)) SADB_X_EXT_POLICY pre.length t = some { t with
      index := n.index
      action := n.action.setWidth 32
      policyDir := (n.policyDir.setWidth 8).setWidth 32
      ipsecMode := (n.ipsecMode.setWidth 8).setWidth 32
      protocolParameters := n.protocolParameters.setWidth 32 } := by
  obtain ⟨hlen, hwalks⟩ := walks_policyExt e n pre post
  have hpolicy := get_policyExt e n
  have hrequest := get_drop_policyExt e n
  rw [sadbPolicy_get] at hpolicy
  rw [sadbIpsecrequest_get, getLE_drop, getLE_drop, getLE_drop] at hrequest
  have hpos : 1 ≤ 8 * (addedPolicy e n).len.toNat := by
    have := policyExt_length e n
    omega
  have hindex : getLE (policyExt e n) 8 32 = n.index := congrArg (·.id) hpolicy
  have haction : getLE (policyExt e n) 4 16 = n.action := congrArg (·.type) hpolicy
  have hdir : getLE (policyExt e n) 6 8 = n.policyDir.setWidth 8 := congrArg (·.dir) hpolicy
  have hmode : getLE (policyExt e n) 20 8 = n.ipsecMode.setWidth 8 := congrArg (·.mode) hrequest
  have hproto : getLE (policyExt e n) 18 16 = n.protocolParameters := congrArg (·.proto) hrequest
  have hsize : sadbPolicy.size = 16 := rfl
  rw [dumpVisit, if_pos rfl, field_policyExt e n pre post (by omega), field_policyExt e n pre post (by omega),
    field_policyExt e n pre post (by omega), hlen, hindex, haction, hdir]
  change walkRequests _ _ _ _ sadbPolicy.size _ = _
  rw [hsize, walkRequests_eq hwalks (by rw [List.length_singleton]; omega), List.foldlM_cons, noteRequest,
    Nat.add_assoc, Nat.add_assoc, field_policyExt e n pre post (by omega), field_policyExt e n pre post (by omega),
    hmode, hproto]
  rfl

/-- The endpoints are inside the request in tunnel mode. -/
theorem hasEndpoints_iff (e : PolicyEnv) (n : SpdEntryNode) (post : Bytes) :
    HasEndpoints n (sadbIpsecrequest.put (addedRequest e n) ++ (tunnelAddrs e n ++ post)) ↔
      n.ipsecMode = IPSEC_MODE_TUNNEL := by
  have hsize : (sadbIpsecrequest.put (addedRequest e n)).length = 16 := sadbIpsecrequest.length_put _
  have hsock : ∀ s : SockaddrIn, (sockaddrIn.put s).length = 16 := sockaddrIn.length_put
  constructor
  · intro h
    by_contra hmode
    have hlen := h.len
    rw [Codec.get_put, addedRequest, tunnelAddrs, if_neg hmode] at hlen
    exact absurd (show (16 : BitVec 16) = 48 from hlen) (by decide)
  · intro hmode
    have haddrs : tunnelAddrs e n = sockaddrIn.put ⟨AF_INET, 0, inetAddr n.tunnelLocal, e.tunnelSrc⟩ ++
        sockaddrIn.put ⟨AF_INET, 0, inetAddr n.tunnelRemote, e.tunnelDst⟩ := by
      rw [tunnelAddrs, if_pos hmode]
    refine ⟨?_, ?_, ?_⟩
    · rw [Codec.get_put, addedRequest, haddrs, List.length_append, hsock, hsock]
      rfl
    · rw [List.drop_left' hsize, haddrs, List.append_assoc, Codec.get_put]
    · rw [haddrs, List.append_assoc, ← List.append_assoc (sadbIpsecrequest.put _),
        List.drop_left' (by rw [List.length_append, hsize, hsock]), Codec.get_put]

/-- What the policy extension carries, whatever it stands between. -/
theorem carriesPolicy_policyExt (e : PolicyEnv) (n : SpdEntryNode) (pre post : Bytes) :
    CarriesPolicy n (pre ++ (policyExt e n ++ post)) pre.length := by
  have hdrop : (pre ++ (policyExt e n ++ post)).drop (pre.length + sadbPolicy.size) =
      sadbIpsecrequest.put (addedRequest e n) ++ (tunnelAddrs e n ++ post) := by
    have hsize : sadbPolicy.size = 16 := rfl
    rw [hsize, ← List.drop_drop, List.drop_left, List.drop_append_of_le_length, drop_policyExt, List.append_assoc]
    have := (policyExt_length e n).1
    omega
  refine ⟨⟨_, walks_policyExt e n pre post⟩, dumpVisit_policyExt e n pre post, ?_, ?_, ?_⟩
  · rw [hdrop, Codec.get_put]; rfl
  · rw [hdrop, Codec.get_put, addedRequest]
    dsimp only
    split
    · rename_i h
      exact iff_of_true rfl h
    · rename_i h
      exact iff_of_false (by decide) h
  · rw [hdrop, hasEndpoints_iff]

/-! ## The messages -/

/-- The parser notes the policy of a message right after its header. -/
theorem parse_policy {m : SadbMsg} {policy : Bytes} {src dst : SadbAddress}
    (hpolicy : IsExt policy SADB_X_EXT_POLICY) (hlen : policy.length ≤ 64)
    (hsrc : IsAddress src SADB_EXT_ADDRESS_SRC) (hdst : IsAddress dst SADB_EXT_ADDRESS_DST) :
    ∃ out, parsePfkeyMessage (message m [policy, sadbAddress.put src, sadbAddress.put dst].flatten) =
      some (0, out) ∧ out SADB_X_EXT_POLICY = some 16 := by
  obtain ⟨-, hexts, hlt⟩ := isExts_ends hpolicy hsrc hdst (by decide) (by decide) (hlen.trans (by omega))
  refine ⟨_, (parse_message hexts hlt).2, ?_⟩
  simp only [locate, if_pos hpolicy.type, Option.map_some]

/-- What the message of `pf_addpolicy` says. -/
theorem addpolicyMessage_says {e : PolicyEnv} {n : SpdEntryNode} {msg : Bytes} (h : addpolicyMessage e n = some msg) :
    ∃ src dst, subnetAddr e.src SADB_EXT_ADDRESS_SRC n.innerProtocol n.srcport n.localSubnet = some src ∧
      subnetAddr e.dst SADB_EXT_ADDRESS_DST n.innerProtocol n.dstport n.remoteSubnet = some dst ∧
      msgType msg = SADB_X_SPDADD ∧ SaysEnds SADB_X_EXT_POLICY (policyExt e n) src dst msg := by
  rw [addpolicyMessage] at h
  obtain ⟨src, hsrc, h⟩ := Option.bind_eq_some_iff.mp h
  obtain ⟨dst, hdst, h⟩ := Option.bind_eq_some_iff.mp h
  cases h
  have hlen := length_policyExt e n
  exact ⟨src, dst, hsrc, hdst, msgType_message _ _, saysEnds_message (isExt_policyExt e n) (isAddress_subnetAddr hsrc)
    (isAddress_subnetAddr hdst) (by decide) (by decide) (by omega)⟩

/-- The messages of an SPD entry decode to it. -/
theorem spd_messages_decode (e : PolicyEnv) (e' : MsgEnv) (n : SpdEntryNode) {localIp remoteIp : CStr}
    {localLen remoteLen : Nat} (hl : IsPrefixText n.localSubnet localIp localLen)
    (hr : IsPrefixText n.remoteSubnet remoteIp remoteLen) :
    ∃ add del, addpolicyMessage e n = some add ∧ pfDelpolicy e' n = some del ∧
      (∀ msg ∈ [add, del], msg.length = 8 * msgUnits msg ∧ Accepted msg ∧
        ∀ t, (ext? msg t).isSome ↔ t ∈ [SADB_X_EXT_POLICY, SADB_EXT_ADDRESS_SRC, SADB_EXT_ADDRESS_DST]) ∧
      (∃ out policy, parsePfkeyMessage add = some (0, out) ∧ out SADB_X_EXT_POLICY = some policy ∧
        CarriesPolicy n add policy) ∧
      ∀ t ∈ [SADB_EXT_ADDRESS_SRC, SADB_EXT_ADDRESS_DST], ∃ a b, decode sadbAddress add t = some a ∧
        decode sadbAddress del t = some b ∧ SameEnd a b := by
  have hsrc : ∀ z, subnetAddr z SADB_EXT_ADDRESS_SRC n.innerProtocol n.srcport n.localSubnet =
      some (address z SADB_EXT_ADDRESS_SRC n.innerProtocol localLen n.srcport localIp) :=
    fun z => subnetAddr_prefixText hl
  have hdst : ∀ z, subnetAddr z SADB_EXT_ADDRESS_DST n.innerProtocol n.dstport n.remoteSubnet =
      some (address z SADB_EXT_ADDRESS_DST n.innerProtocol remoteLen n.dstport remoteIp) :=
    fun z => subnetAddr_prefixText hr
  have hpolicy := isExt_policyExt e n
  have hlen := length_policyExt e n
  have hpolicy' : IsExt (sadbPolicy.put ⟨2, SADB_X_EXT_POLICY, n.action, n.policyDir.setWidth 8, 0, 0, 0⟩)
      SADB_X_EXT_POLICY := isExt_policy rfl
  obtain ⟨m, hadd⟩ : ∃ m, addpolicyMessage e n = some (message m [policyExt e n,
      sadbAddress.put (address e.src SADB_EXT_ADDRESS_SRC n.innerProtocol localLen n.srcport localIp),
      sadbAddress.put (address e.dst SADB_EXT_ADDRESS_DST n.innerProtocol remoteLen n.dstport remoteIp)].flatten) := by
    rw [addpolicyMessage, hsrc, hdst]
    exact ⟨_, rfl⟩
  obtain ⟨m', hdel⟩ : ∃ m, pfDelpolicy e' n = some (message m [
      sadbPolicy.put ⟨2, SADB_X_EXT_POLICY, n.action, n.policyDir.setWidth 8, 0, 0, 0⟩,
      sadbAddress.put (address e'.src SADB_EXT_ADDRESS_SRC n.innerProtocol localLen n.srcport localIp),
      sadbAddress.put (address e'.dst SADB_EXT_ADDRESS_DST n.innerProtocol remoteLen n.dstport remoteIp)].flatten) := by
    rw [pfDelpolicy, hsrc, hdst]
    exact ⟨_, rfl⟩
  have hs := saysEnds_message (m := m) hpolicy (isAddress_subnetAddr (hsrc e.src)) (isAddress_subnetAddr (hdst e.dst))
    (by decide) (by decide) (hlen.trans (by omega))
  have hs' := saysEnds_message (m := m') hpolicy' (isAddress_subnetAddr (hsrc e'.src))
    (isAddress_subnetAddr (hdst e'.dst)) (by decide) (by decide) (by rw [Codec.length_put]; decide)
  refine ⟨_, _, hadd, hdel, ?_, ?_, ?_⟩
  · rw [List.forall_mem_cons, List.forall_mem_singleton]
    exact ⟨⟨hs.length, hs.accepted, hs.types⟩, hs'.length, hs'.accepted, hs'.types⟩
  · obtain ⟨out, hparse, hout⟩ :=
      parse_policy hpolicy hlen (isAddress_subnetAddr (hsrc e.src)) (isAddress_subnetAddr (hdst e.dst))
    exact ⟨out, 16, hparse, hout, carriesPolicy_policyExt e n (sadbMsg.put _) _⟩
  · rw [List.forall_mem_cons, List.forall_mem_singleton]
    exact ⟨⟨_, _, hs.src, hs'.src, rfl, rfl, rfl, rfl⟩, _, _, hs.dst, hs'.dst, rfl, rfl, rfl, rfl⟩

/-- A tunnel between the prefixes of `desNode`. -/
def tunnelNode : SpdEntryNode :=
  { (default : SpdEntryNode) with
    localSubnet := lit "192.168.201.0/24", remoteSubnet := lit "192.168.202.0/24"
    protocolParameters := IPPROTO_ESP, ipsecMode := IPSEC_MODE_TUNNEL, reqId := 7
    tunnelLocal := lit "10.0.0.1", tunnelRemote := lit "10.0.0.2" }

theorem spd_messages_decode_tunnel :
    ∃ msg, addpolicyMessage ⟨⟨1, 0, 0⟩, 0, 0⟩ tunnelNode = some msg ∧ Accepted msg ∧
      ∃ policy, HasEndpoints tunnelNode (msg.drop (policy + sadbPolicy.size)) ∧
        (sadbIpsecrequest.get (msg.drop (policy + sadbPolicy.size))).level = IPSEC_LEVEL_UNIQUE := by
  obtain ⟨add, del, hadd, -, hacc, ⟨out, policy, -, -, hpolicy⟩, -⟩ :=
    spd_messages_decode ⟨⟨1, 0, 0⟩, 0, 0⟩ ⟨1, 0, 0⟩ tunnelNode isPrefixText_desNode.1 isPrefixText_desNode.2
  exact ⟨add, hadd, (hacc add (by simp)).2.1, policy, hpolicy.endpoints.mpr rfl, hpolicy.level.mpr (by decide)⟩

end CfgIpsec.Proof
