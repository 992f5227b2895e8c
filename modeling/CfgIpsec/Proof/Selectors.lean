import CfgIpsec.Proof.Policies
import CfgIpsec.Proof.Walks
import CfgIpsec.Spec.Selectors

/-!
# Policies that `pf_addpolicy` takes for its own

The text of an address with a port is that of no address alone (`ntop_eq_iff`),
and prefix lengths, ports and protocols are not compared. So the lookup ends at
the first policy between the node's addresses that has no ports
(`dumpLoop_dump`).
-/

namespace CfgIpsec.Proof

open Impl Spec Tlv

/-! ## Texts of addresses -/

/-- Text before the first delimiter. -/
theorem append_delim_inj {q : Byte} {xs xs' ys ys' : Bytes} (hx : q ∉ xs) (hx' : q ∉ xs')
    (h : xs ++ q :: ys = xs' ++ q :: ys') : xs = xs' ∧ ys = ys' := by
  have htake : ∀ {xs : Bytes} (ys : Bytes), q ∉ xs → (xs ++ q :: ys).takeWhile (· ≠ q) = xs := by
    intro xs ys hx
    have hne : ∀ x ∈ xs, decide (x ≠ q) = true := fun x hmem => by simpa using fun e : x = q => hx (e ▸ hmem)
    rw [List.takeWhile_append_of_pos hne]
    simp
  have hxs : xs = xs' := by rw [← htake ys hx, h, htake ys' hx']
  subst hxs
  exact ⟨rfl, List.tail_eq_of_cons_eq (List.append_cancel_left h)⟩

theorem noDot_decimal (n : Nat) : (0x2e : Byte) ∉ decimal n := fun h => by
  simpa [isDigit] using isDigit_of_mem_decimal h

theorem decimal_inj {n m : Nat} (h : decimal n = decimal m) : n = m := by
  rw [← decVal_decimal n, h, decVal_decimal]

/-- The four numbers of an address. -/
theorem inetNtop_bytes (a : BitVec 32) :
    (inetNtop a).bytes = decimal (a.toNat % 256) ++ 0x2e :: (decimal (a.toNat / 256 % 256) ++ 0x2e ::
      (decimal (a.toNat / 2 ^ 16 % 256) ++ 0x2e :: decimal (a.toNat / 2 ^ 24))) := by
  refine CStr.ofBuf_of_noNul ?_
  simp only [List.mem_append, List.mem_cons, noNul_decimal, false_or, or_false]
  decide

/-- The text of an address that starts with that of another. -/
theorem inetNtop_append {a b : BitVec 32} {t : Bytes} (h : (inetNtop b).bytes = (inetNtop a).bytes ++ t) :
    b.toNat % 2 ^ 24 = a.toNat % 2 ^ 24 ∧ decimal (b.toNat / 2 ^ 24) = decimal (a.toNat / 2 ^ 24) ++ t := by
  rw [inetNtop_bytes, inetNtop_bytes] at h
  simp only [List.append_assoc, List.cons_append] at h
  obtain ⟨h₁, h⟩ := append_delim_inj (noDot_decimal _) (noDot_decimal _) h
  obtain ⟨h₂, h⟩ := append_delim_inj (noDot_decimal _) (noDot_decimal _) h
  obtain ⟨h₃, h₄⟩ := append_delim_inj (noDot_decimal _) (noDot_decimal _) h
  have e₁ := decimal_inj h₁
  have e₂ := decimal_inj h₂
  have e₃ := decimal_inj h₃
  exact ⟨by omega, h₄⟩

/-- The text of an address with its port, or of an address alone when the port
is zero. -/
def ntop (a : BitVec 32) (port : BitVec 16) : CStr :=
  if port ≠ 0 then inetNtop a ++ .ofBuf (0x2e :: decimal port.toNat) else inetNtop a

/-- An address is the text only of itself without a port. -/
theorem ntop_eq_iff (a b : BitVec 32) (port : BitVec 16) : inetNtop b = ntop a port ↔ a = b ∧ port = 0 := by
  constructor
  · intro h
    have hport : port = 0 := by
      by_contra hne
      rw [ntop, if_pos hne] at h
      have hsuffix : (CStr.ofBuf (0x2e :: decimal port.toNat)).bytes = 0x2e :: decimal port.toNat := by
        refine CStr.ofBuf_of_noNul ?_
        simp only [List.mem_cons, noNul_decimal, or_false]
        decide
      have hbytes : (inetNtop b).bytes = (inetNtop a).bytes ++ 0x2e :: decimal port.toNat := by
        rw [h, CStr.bytes_append, hsuffix]
      -- the last number would have a dot
      have hdot := noDot_decimal (b.toNat / 2 ^ 24)
      rw [(inetNtop_append hbytes).2] at hdot
      exact hdot (List.mem_append_right _ List.mem_cons_self)
    refine ⟨?_, hport⟩
    rw [ntop, if_neg (by simpa using hport)] at h
    obtain ⟨hlow, hhigh⟩ := @inetNtop_append a b [] (by rw [h, List.append_nil])
    rw [List.append_nil] at hhigh
    have hdiv : b.toNat / 2 ^ 24 = a.toNat / 2 ^ 24 := decimal_inj hhigh
    have hval : a.toNat = b.toNat := by
      rw [← Nat.div_add_mod a.toNat (2 ^ 24), ← Nat.div_add_mod b.toNat (2 ^ 24), hdiv, hlow]
    exact BitVec.eq_of_toNat_eq hval
  · rintro ⟨rfl, rfl⟩
    rfl

/-! ## One reply -/

theorem sadbAddress_get (bs : Bytes) :
    sadbAddress.get bs = ⟨getLE bs 0 16, getLE bs 2 16, getLE bs 4 8, getLE bs 5 8, getLE bs 6 16,
      ⟨getLE bs 8 16, getBE bs 10 16, getLE bs 12 32, getLE bs 16 64⟩⟩ := by
  simp only [sadbAddress, sadbExt, sockaddrIn, Codec.iso, Codec.prod, u8, u16, u32, u64, be16, Codec.le, Codec.be,
    getLE_drop, getBE_drop]

/-- What `sock_ntop` gives for the socket address of an extension. -/
theorem sockNtop_within (before behind : Bytes) {e : Bytes} (he : sadbAddress.size ≤ e.length) :
    sockNtop (before ++ (e ++ behind)) (before.length + 8) =
      if (sadbAddress.get e).sockaddr.family = AF_INET then
        some (ntop (sadbAddress.get e).sockaddr.addr (sadbAddress.get e).sockaddr.port)
      else none := by
  have hsize : sadbAddress.size = 24 := rfl
  rw [sockNtop, getLE?_within before behind 8 (by omega), Nat.add_assoc, Nat.add_assoc,
    getLE?_within before behind 12 (by omega), getBE?_within before behind 10 (by omega), sadbAddress_get]
  simp only [Option.bind_eq_bind, Option.bind_some, ntop]
  split
  · split <;> rfl
  · rfl

/-- The walk over the requests leaves what was noted of the policy and the
addresses. -/
theorem walkRequests_keeps {buf : Bytes} {policy extlen fuel off : Nat} {t t' : Dump}
    (h : walkRequests buf policy extlen fuel off t = some t') :
    t'.index = t.index ∧ t'.policyDir = t.policyDir ∧ t'.localSubnet = t.localSubnet ∧
      t'.remoteSubnet = t.remoteSubnet := by
  induction fuel generalizing off t with
  | zero => cases h
  | succ fuel ih =>
    rw [walkRequests] at h
    split at h
    · obtain ⟨mode, -, h⟩ := Option.bind_eq_some_iff.mp h
      obtain ⟨proto, -, h⟩ := Option.bind_eq_some_iff.mp h
      obtain ⟨len, -, h⟩ := Option.bind_eq_some_iff.mp h
      have hrest := ih h
      exact hrest
    · cases h
      exact ⟨rfl, rfl, rfl, rfl⟩

/-- The walk over whole requests ends. -/
theorem walkRequests_whole (before behind : Bytes) {e : Bytes} {reqs : List Bytes}
    (hreqs : ∀ q ∈ reqs, sadbIpsecrequest.size ≤ q.length ∧ q.length = (sadbIpsecrequest.get q).len.toNat)
    {off : Nat} (hle : off ≤ e.length) (hoff : e.drop off = reqs.flatten) {fuel : Nat} (hf : e.length < off + fuel)
    (t : Dump) :
    (walkRequests (before ++ (e ++ behind)) before.length e.length fuel off t).isSome := by
  induction reqs generalizing off fuel t with
  | nil =>
    have hend : e.length ≤ off := List.drop_eq_nil_iff.mp hoff
    obtain ⟨fuel, rfl⟩ : ∃ k, fuel = k + 1 := ⟨fuel - 1, by omega⟩
    rw [walkRequests, if_neg (by omega)]
    rfl
  | cons q reqs ih =>
    obtain ⟨⟨hq, hlen⟩, hreqs⟩ := List.forall_mem_cons.mp hreqs
    have hsize : sadbIpsecrequest.size = 16 := rfl
    have hlength := congrArg List.length hoff
    rw [List.length_drop, List.flatten_cons, List.length_append] at hlength
    obtain ⟨fuel, rfl⟩ : ∃ k, fuel = k + 1 := ⟨fuel - 1, by omega⟩
    have hunits : getLE e off 16 = (sadbIpsecrequest.get q).len := by
      rw [← Nat.add_zero off, ← getLE_drop, hoff, List.flatten_cons, getLE_append_left _ (by omega),
        sadbIpsecrequest_get]
    have hrest : e.drop (off + q.length) = reqs.flatten := by
      rw [← List.drop_drop, hoff, List.flatten_cons, List.drop_left]
    rw [walkRequests, if_pos (by omega), Nat.add_assoc, Nat.add_assoc, getLE?_within before behind _ (by omega),
      getLE?_within before behind _ (by omega), getLE?_within before behind _ (by omega), hunits]
    simp only [Option.bind_eq_bind, Option.bind_some, ← hlen]
    exact ih hreqs (by omega) hrest (by omega) _

/-- What a visit does. -/
theorem dumpVisit_cases {mem : Bytes} {type : BitVec 16} {p : Nat} {t t' : Dump}
    (h : dumpVisit mem type p t = some t') :
    (type = SADB_X_EXT_POLICY ∧ t'.index = getLE mem (p + 8) 32 ∧ t'.policyDir = (getLE mem (p + 6) 8).setWidth 32 ∧
        t'.localSubnet = t.localSubnet ∧ t'.remoteSubnet = t.remoteSubnet) ∨
      (type = SADB_EXT_ADDRESS_SRC ∧ ∃ s, sockNtop mem (p + 8) = some s ∧ t' = { t with localSubnet := s }) ∨
      (type = SADB_EXT_ADDRESS_DST ∧ ∃ s, sockNtop mem (p + 8) = some s ∧ t' = { t with remoteSubnet := s }) ∨
      (type ≠ SADB_X_EXT_POLICY ∧ type ≠ SADB_EXT_ADDRESS_SRC ∧ type ≠ SADB_EXT_ADDRESS_DST ∧ t' = t) := by
  rw [dumpVisit] at h
  split at h
  · left
    obtain ⟨index, hindex, h⟩ := Option.bind_eq_some_iff.mp h
    obtain ⟨action, -, h⟩ := Option.bind_eq_some_iff.mp h
    obtain ⟨dir, hdir, h⟩ := Option.bind_eq_some_iff.mp h
    obtain ⟨len, -, h⟩ := Option.bind_eq_some_iff.mp h
    obtain ⟨hi, hd, hl, hr⟩ := walkRequests_keeps h
    refine ⟨‹_›, ?_, ?_, hl, hr⟩
    · rw [hi, eq_of_getLE? hindex]
    · rw [hd, eq_of_getLE? hdir]
  right
  split at h
  · left
    obtain ⟨s, hs, h⟩ := Option.bind_eq_some_iff.mp h
    exact ⟨‹_›, s, hs, (Option.some.inj h).symm⟩
  right
  split at h
  · left
    obtain ⟨s, hs, h⟩ := Option.bind_eq_some_iff.mp h
    exact ⟨‹_›, s, hs, (Option.some.inj h).symm⟩
  · right
    exact ⟨‹_›, ‹_›, ‹_›, (Option.some.inj h).symm⟩

theorem dumpVisit_policy {mem : Bytes} {type : BitVec 16} {p : Nat} {t t' : Dump}
    (h : dumpVisit mem type p t = some t') :
    (t'.index, t'.policyDir) = if type = SADB_X_EXT_POLICY then
      (getLE mem (p + 8) 32, (getLE mem (p + 6) 8).setWidth 32) else (t.index, t.policyDir) := by
  obtain ⟨rfl, hi, hd, -, -⟩ | ⟨rfl, s, -, rfl⟩ | ⟨rfl, s, -, rfl⟩ | ⟨hne, -, -, rfl⟩ := dumpVisit_cases h
  · rw [if_pos rfl, hi, hd]
  · rfl
  · rfl
  · rw [if_neg hne]

theorem dumpVisit_local {mem : Bytes} {type : BitVec 16} {p : Nat} {t t' : Dump}
    (h : dumpVisit mem type p t = some t') :
    t'.localSubnet = if type = SADB_EXT_ADDRESS_SRC then (sockNtop mem (p + 8)).getD default else t.localSubnet := by
  obtain ⟨rfl, -, -, hl, -⟩ | ⟨rfl, s, hs, rfl⟩ | ⟨rfl, s, -, rfl⟩ | ⟨-, hne, -, rfl⟩ := dumpVisit_cases h
  · exact hl
  · rw [if_pos rfl, hs, Option.getD_some]
  · rfl
  · rw [if_neg hne]

theorem dumpVisit_remote {mem : Bytes} {type : BitVec 16} {p : Nat} {t t' : Dump}
    (h : dumpVisit mem type p t = some t') :
    t'.remoteSubnet = if type = SADB_EXT_ADDRESS_DST then (sockNtop mem (p + 8)).getD default else t.remoteSubnet := by
  obtain ⟨rfl, -, -, -, hr⟩ | ⟨rfl, s, -, rfl⟩ | ⟨rfl, s, hs, rfl⟩ | ⟨-, -, hne, rfl⟩ := dumpVisit_cases h
  · exact hr
  · rfl
  · rw [if_pos rfl, hs, Option.getD_some]
  · rw [if_neg hne]

/-- What the lookup has noted after a reply. -/
structure Noted (r : SpdReply) (t : Dump) : Prop where
  index : t.index = r.id
  dir : t.policyDir = r.dir.setWidth 32
  localSubnet : t.localSubnet = ntop r.source.sockaddr.addr r.source.sockaddr.port
  remoteSubnet : t.remoteSubnet = ntop r.destination.sockaddr.addr r.destination.sockaddr.port

/-- The visit of a policy with whole requests ends. -/
theorem dumpVisit_isSome {e : Bytes} {requests : List Bytes} (hrecord : IsRecord extFormat e)
    (hpolicy : sadbPolicy.size ≤ e.length) (hrequests : e.drop sadbPolicy.size = requests.flatten)
    (hwhole : ∀ q ∈ requests, sadbIpsecrequest.size ≤ q.length ∧ q.length = (sadbIpsecrequest.get q).len.toNat)
    (before behind : Bytes) (t : Dump) :
    (dumpVisit (before ++ (e ++ behind)) SADB_X_EXT_POLICY before.length t).isSome := by
  have hsize : sadbPolicy.size = 16 := rfl
  have hlen : e.length = 8 * (getLE e 0 16).toNat := hrecord.2
  have hext : extLen (before ++ (e ++ behind)) before.length = some (getLE e 0 16) :=
    getLE?_within before behind 0 (by omega)
  rw [dumpVisit, if_pos rfl, getLE?_within before behind 8 (by omega), getLE?_within before behind 4 (by omega),
    getLE?_within before behind 6 (by omega), hext]
  simp only [Option.bind_eq_bind, Option.bind_some, ← hlen]
  exact walkRequests_whole before behind hwhole hpolicy hrequests (by omega) _

/-- The visit of an address gives what `sock_ntop` does. -/
theorem dumpVisit_address {e : Bytes} (before behind : Bytes) (he : sadbAddress.size ≤ e.length) (t : Dump) :
    dumpVisit (before ++ (e ++ behind)) SADB_EXT_ADDRESS_SRC before.length t =
        (if (sadbAddress.get e).sockaddr.family = AF_INET then some { t with
          localSubnet := ntop (sadbAddress.get e).sockaddr.addr (sadbAddress.get e).sockaddr.port } else none) ∧
      dumpVisit (before ++ (e ++ behind)) SADB_EXT_ADDRESS_DST before.length t =
        (if (sadbAddress.get e).sockaddr.family = AF_INET then some { t with
          remoteSubnet := ntop (sadbAddress.get e).sockaddr.addr (sadbAddress.get e).sockaddr.port } else none) := by
  have hsrc : SADB_EXT_ADDRESS_SRC ≠ SADB_X_EXT_POLICY := by decide
  have hdst : SADB_EXT_ADDRESS_DST ≠ SADB_X_EXT_POLICY := by decide
  have hne : SADB_EXT_ADDRESS_DST ≠ SADB_EXT_ADDRESS_SRC := by decide
  rw [dumpVisit, if_neg hsrc, if_pos rfl, dumpVisit, if_neg hdst, if_neg hne, if_pos rfl,
    sockNtop_within before behind he]
  constructor <;> split <;> rfl

/-- The walk over a reply of IPv4 addresses ends. -/
theorem walkRecords_ipv4 (r : SpdReply) (hr : r.Ipv4) (post : Bytes) (t : Dump) :
    ∃ t', walkRecords (dumpVisit (r.msg ++ post)) sadbMsg.size r.exts t = some t' := by
  refine walkRecords_isSome (fun pre e post' h st => ?_) t
  have hsrc4 : (sadbAddress.get r.src).sockaddr.family = AF_INET := hr.1
  have hdst4 : (sadbAddress.get r.dst).sockaddr.family = AF_INET := hr.2
  have he : e ∈ r.exts := h ▸ List.mem_append_right _ List.mem_cons_self
  have honly : ∀ {x}, x ∈ r.exts → extFormat.type e = extFormat.type x → e = x :=
    fun hx ht => List.inj_on_of_nodup_map r.distinct he hx ht
  obtain ⟨before, behind, hmsg, hlen⟩ := ext_at r.isMessage h
  rw [← hlen, hmsg, List.append_assoc, List.append_assoc]
  by_cases hpolicy : extFormat.type e = SADB_X_EXT_POLICY
  · obtain rfl := honly r.policy_mem (hpolicy.trans r.policy_type.symm)
    rw [hpolicy]
    exact dumpVisit_isSome (r.isMessage.exts.records _ r.policy_mem) r.policy_size r.requests_eq r.whole before _ st
  by_cases hsrc : extFormat.type e = SADB_EXT_ADDRESS_SRC
  · obtain rfl := honly r.src_mem (hsrc.trans r.src_type.symm)
    rw [hsrc, (dumpVisit_address before _ r.src_size st).1, if_pos hsrc4]
    rfl
  by_cases hdst : extFormat.type e = SADB_EXT_ADDRESS_DST
  · obtain rfl := honly r.dst_mem (hdst.trans r.dst_type.symm)
    rw [hdst, (dumpVisit_address before _ r.dst_size st).2, if_pos hdst4]
    rfl
  · rw [dumpVisit, if_neg hpolicy, if_neg hsrc, if_neg hdst]
    rfl

/-- The walk over a reply of IPv4 addresses. -/
theorem walkExts_ipv4 (r : SpdReply) (hr : r.Ipv4) (post : Bytes) (t : Dump) :
    ∃ t', walkExts (dumpVisit (r.msg ++ post)) (r.msg ++ post) PFKEY_BUFFER_SIZE
      ((r.msg.length : Nat) - sadbMsg.size) sadbMsg.size t = some t' ∧ Noted r t' := by
  obtain ⟨t', ht⟩ := walkRecords_ipv4 r hr post t
  have hpolicy := walkRecords_field (fun t : Dump => (t.index, t.policyDir))
    (fun p _ => (getLE (r.msg ++ post) (p + 8) 32, (getLE (r.msg ++ post) (p + 6) 8).setWidth 32))
    dumpVisit_policy r.distinct ht
  have hlocal := walkRecords_field Dump.localSubnet (fun p _ => (sockNtop (r.msg ++ post) (p + 8)).getD default)
    dumpVisit_local r.distinct ht
  have hremote := walkRecords_field Dump.remoteSubnet (fun p _ => (sockNtop (r.msg ++ post) (p + 8)).getD default)
    dumpVisit_remote r.distinct ht
  -- the three extensions are read where they stand
  obtain ⟨o, before, behind, hloc, hmsg, hlen⟩ := located r.isMessage r.distinct r.src_mem r.src_type
  have hsrc : sockNtop (before ++ (r.src ++ (behind ++ post))) (before.length + 8) =
      some (ntop r.source.sockaddr.addr r.source.sockaddr.port) := by
    rw [sockNtop_within before _ r.src_size]
    exact if_pos hr.1
  rw [hloc, Option.elim_some, ← hlen, hmsg, List.append_assoc, List.append_assoc, hsrc, Option.getD_some] at hlocal
  obtain ⟨o', before', behind', hloc', hmsg', hlen'⟩ := located r.isMessage r.distinct r.dst_mem r.dst_type
  have hdst : sockNtop (before' ++ (r.dst ++ (behind' ++ post))) (before'.length + 8) =
      some (ntop r.destination.sockaddr.addr r.destination.sockaddr.port) := by
    rw [sockNtop_within before' _ r.dst_size]
    exact if_pos hr.2
  rw [hloc', Option.elim_some, ← hlen', hmsg', List.append_assoc, List.append_assoc, hdst, Option.getD_some] at hremote
  obtain ⟨q, before'', behind'', hq, hmsg'', hlen''⟩ := located r.isMessage r.distinct r.policy_mem r.policy_type
  have hsize : 16 ≤ r.policy.length := r.policy_size
  rw [hq, Option.elim_some, ← hlen'', hmsg'', List.append_assoc, List.append_assoc,
    getLE_within before'' _ 8 (by omega), getLE_within before'' _ 6 (by omega)] at hpolicy
  obtain ⟨hindex, hdir⟩ := Prod.mk.inj hpolicy
  refine ⟨t', by rw [walkExts_message r.isMessage, ht], ?_, ?_, hlocal, hremote⟩
  · rw [hindex, SpdReply.id, sadbPolicy_get]
  · rw [hdir, SpdReply.dir, sadbPolicy_get]

/-- The walk over a reply of other addresses. -/
theorem walkExts_other (r : SpdReply) (hr : ¬r.Ipv4) (post : Bytes) (t : Dump) :
    walkExts (dumpVisit (r.msg ++ post)) (r.msg ++ post) PFKEY_BUFFER_SIZE
      ((r.msg.length : Nat) - sadbMsg.size) sadbMsg.size t = none := by
  rw [walkExts_message r.isMessage]
  rcases not_and_or.mp hr with hsrc | hdst
  · obtain ⟨pre, post', h⟩ := List.append_of_mem r.src_mem
    obtain ⟨before, behind, hmsg, hlen⟩ := ext_at r.isMessage h
    rw [h]
    refine walkRecords_eq_none (fun st => ?_) t
    rw [r.src_type, ← hlen, hmsg, List.append_assoc, List.append_assoc, (dumpVisit_address before _ r.src_size st).1]
    exact if_neg hsrc
  · obtain ⟨pre, post', h⟩ := List.append_of_mem r.dst_mem
    obtain ⟨before, behind, hmsg, hlen⟩ := ext_at r.isMessage h
    rw [h]
    refine walkRecords_eq_none (fun st => ?_) t
    rw [r.dst_type, ← hlen, hmsg, List.append_assoc, List.append_assoc, (dumpVisit_address before _ r.dst_size st).2]
    exact if_neg hdst

/-! ## A dump -/

/-- The lookup compares the text of an address with that of an address with its
port. -/
theorem near_iff (n : Ipv4Node) {r : SpdReply} {t : Dump} (ht : Noted r t) :
    (inetNtop n.localAddr = t.localSubnet ∧ inetNtop n.remoteAddr = t.remoteSubnet ∧
      n.node.policyDir.setWidth 32 = t.policyDir) ↔ Near n r := by
  rw [ht.localSubnet, ht.remoteSubnet, ht.dir, ntop_eq_iff, ntop_eq_iff, Near]
  constructor
  · rintro ⟨hl, hr, hd⟩
    exact ⟨hd.symm, hl, hr⟩
  · rintro ⟨hd, hl, hr⟩
    exact ⟨hl, hr, hd.symm⟩

/-- The loop at a reply. -/
theorem dumpLoop_reply (n : Ipv4Node) (r : SpdReply) (replies : List (Option Bytes)) (buf : Buffer) (t : Dump) :
    ∃ buf' t', dumpLoop n.node (some r.msg :: replies) buf t =
      if ¬r.Ipv4 then none
      else if Near n r then some r.id
      else if msgSeq r.msg = 0 then some n.node.index
      else dumpLoop n.node replies buf' t' := by
  have hheader := r.isMessage.header
  have hwhole := r.isMessage.whole
  obtain ⟨buf', post, hread, hbuf⟩ := readInto_message r.isMessage.fits buf
  have hseq : msgSeq buf'.bytes = msgSeq r.msg := by
    rw [hbuf]
    exact getLE_append_left post (by omega)
  by_cases hr : r.Ipv4
  · obtain ⟨t', hwalk, hnoted⟩ := walkExts_ipv4 r hr post t
    refine ⟨buf', t', ?_⟩
    rw [dumpLoop, hread, if_neg (not_not.mpr hr)]
    simp only [hbuf, hwalk, Option.bind_eq_bind, Option.bind_some, getIp_prefixText n.local_text,
      getIp_prefixText n.remote_text]
    rw [← hbuf, hseq]
    by_cases hnear : Near n r
    · rw [if_pos hnear, if_pos ((near_iff n hnoted).mpr hnear), hnoted.index]
      rfl
    · rw [if_neg hnear, if_neg fun h => hnear ((near_iff n hnoted).mp h)]
      rfl
  · refine ⟨buf', t, ?_⟩
    rw [dumpLoop, hread, if_pos hr]
    simp only [hbuf, walkExts_other r hr]
    rfl

/-- What the loop gives at a dump. -/
theorem dumpLoop_dump (n : Ipv4Node) (init : List SpdReply) (last : SpdReply) (hmore : ∀ r ∈ init, msgSeq r.msg ≠ 0)
    (hdone : msgSeq last.msg = 0) (rest : List (Option Bytes)) (buf : Buffer) (t : Dump) :
    dumpLoop n.node ((init ++ [last]).map (fun r => some r.msg) ++ rest) buf t =
      match (init ++ [last]).find? (fun r => Near n r ∨ ¬r.Ipv4) with
      | some r => if r.Ipv4 then some r.id else none
      | none => some n.node.index := by
  induction init generalizing buf t with
  | nil =>
    obtain ⟨buf', t', hloop⟩ := dumpLoop_reply n last rest buf t
    rw [List.nil_append, List.map_cons, List.map_nil, List.cons_append, List.nil_append, hloop]
    by_cases hr : last.Ipv4 <;> by_cases hnear : Near n last <;> simp [hr, hnear, hdone]
  | cons r init ih =>
    obtain ⟨hr, hmore⟩ := List.forall_mem_cons.mp hmore
    obtain ⟨buf', t', hloop⟩ := dumpLoop_reply n r ((init ++ [last]).map (fun r => some r.msg) ++ rest) buf t
    rw [List.cons_append, List.map_cons, List.cons_append, hloop, List.find?_cons, if_neg hr, ih hmore]
    by_cases hr4 : r.Ipv4 <;> by_cases hnear : Near n r <;> simp [hr4, hnear]

/-- The node's policy is near it exactly when the node has no ports. -/
theorem near_own_iff (l : SpdLookup) : Near l.node l.own ↔ l.node.node.srcport = 0 ∧ l.node.node.dstport = 0 := by
  have hsel := l.selected
  have hzero : ∀ {port : BitVec 16} {x : BitVec 32}, port.setWidth 32 = x → (port = 0 ↔ x = 0) := by
    rintro port x rfl
    rw [← BitVec.toNat_inj, ← BitVec.toNat_inj, BitVec.toNat_setWidth]
    have hlt := port.isLt
    simp only [BitVec.ofNat_eq_ofNat, BitVec.toNat_ofNat]
    omega
  rw [← hzero hsel.src.port, ← hzero hsel.dst.port]
  exact ⟨fun h => ⟨h.2.1.2, h.2.2.2⟩, fun h => ⟨hsel.dir, ⟨hsel.src.addr, h.1⟩, hsel.dst.addr, h.2⟩⟩

/-- Where the ids of the policies are different, and that of the node's policy
is new to the node: it has no ports, and no policy before its own is near it or
not of IPv4. -/
theorem nearFirst_iff (l : SpdLookup) (hids : ∀ r ∈ l.before ++ l.after, r.id ≠ l.own.id)
    (hindex : l.node.node.index ≠ l.own.id) :
    NearFirst l ↔ (l.node.node.srcport = 0 ∧ l.node.node.dstport = 0) ∧ ∀ r ∈ l.before, r.Ipv4 ∧ ¬Near l.node r := by
  have hown4 : l.own.Ipv4 := ⟨l.selected.src.family, l.selected.dst.family⟩
  rw [NearFirst, l.replies, List.find?_append, ← near_own_iff]
  cases hbefore : l.before.find? (fun r => Near l.node r ∨ ¬r.Ipv4) with
  | some r =>
    -- the lookup does not come to the node's policy
    have hmem := List.mem_of_find?_eq_some hbefore
    have hr : Near l.node r ∨ ¬r.Ipv4 := by simpa using List.find?_some hbefore
    refine iff_of_false (fun h => hids r (List.mem_append_left _ hmem) h.2) fun h => ?_
    obtain ⟨hr4, hnear⟩ := h.2 r hmem
    exact hr.elim hnear fun h => h hr4
  | none =>
    have hnone : ∀ r ∈ l.before, r.Ipv4 ∧ ¬Near l.node r := by
      intro r hr
      have := List.find?_eq_none.mp hbefore r hr
      simpa [not_or, and_comm] using this
    rw [Option.none_or, and_iff_left hnone]
    by_cases hnear : Near l.node l.own
    · rw [List.find?_cons_of_pos (by simp [hnear])]
      exact iff_of_true ⟨hown4, rfl⟩ hnear
    · rw [List.find?_cons_of_neg (by simp [hnear, hown4])]
      refine iff_of_false ?_ hnear
      cases hafter : l.after.find? (fun r => Near l.node r ∨ ¬r.Ipv4) with
      | some r => exact fun h => hids r (List.mem_append_right _ (List.mem_of_find?_eq_some hafter)) h.2
      | none => exact hindex

/-- The node ends with the id of its policy exactly when the first reply that is
near it or not of IPv4 is of IPv4 and has that id, or there is none and the node
has had the id before. -/
theorem own_policy_iff (e : PolicyEnv) (stack : Dump) (buf : Buffer) (l : SpdLookup) (rest : List (Option Bytes)) :
    FindsOwn e stack buf l rest ↔ NearFirst l := by
  have hloop := dumpLoop_dump l.node l.dump.init l.dump.last l.dump.more l.dump.done rest buf stack
  obtain ⟨msg, hmsg⟩ : ∃ msg, addpolicyMessage e l.node.node = some msg := by
    rw [addpolicyMessage, subnetAddr_prefixText l.node.local_text, subnetAddr_prefixText l.node.remote_text]
    exact ⟨_, rfl⟩
  rw [FindsOwn, pfAddpolicy, hmsg, DumpOf.datagrams, DumpOf.replies, hloop, NearFirst, DumpOf.replies]
  cases hfind : (l.dump.init ++ [l.dump.last]).find? (fun r => Near l.node r ∨ ¬r.Ipv4) with
  | some r =>
    by_cases hr : r.Ipv4
    · simp [hr]
    · simp [hr]
  | none => simp

/-- A policy for what goes out from port 500. -/
def portReplyExts : List Bytes :=
  [sadbPolicy.put { len := 4, exttype := SADB_X_EXT_POLICY, type := IPSEC_POLICY_PROTECT, dir := 2, id := 17 } ++
     sadbIpsecrequest.put { len := 16, proto := 50, mode := 1, level := IPSEC_LEVEL_REQUIRE, reqid := 0 },
   sadbAddress.put { len := 3, exttype := SADB_EXT_ADDRESS_SRC, proto := 17, prefixlen := 24,
                     sockaddr := ⟨AF_INET, 500, quad 192 168 201 0, 0⟩ },
   sadbAddress.put { len := 3, exttype := SADB_EXT_ADDRESS_DST, proto := 17, prefixlen := 24,
                     sockaddr := ⟨AF_INET, 0, quad 192 168 202 0, 0⟩ }]

def portReply : SpdReply where
  msg := message { version := PF_KEY_V2, type := SADB_X_SPDDUMP, satype := SADB_SATYPE_UNSPEC } portReplyExts.flatten
  exts := portReplyExts
  isMessage := ⟨by decide +kernel, by decide +kernel, by decide +kernel, by decide +kernel, by decide +kernel⟩
  distinct := by decide +kernel
  src := portReplyExts.get ⟨1, by decide⟩
  src_mem := List.get_mem _ _
  src_type := by decide +kernel
  src_size := by decide +kernel
  dst := portReplyExts.get ⟨2, by decide⟩
  dst_mem := List.get_mem _ _
  dst_type := by decide +kernel
  dst_size := by decide +kernel
  policy := portReplyExts.get ⟨0, by decide⟩
  policy_mem := List.get_mem _ _
  policy_type := by decide +kernel
  policy_size := by decide +kernel
  requests := [sadbIpsecrequest.put { len := 16, proto := 50, mode := 1, level := IPSEC_LEVEL_REQUIRE, reqid := 0 }]
  requests_eq := by decide +kernel
  whole := by decide +kernel

/-- The node it was made from. -/
def portNode : Ipv4Node where
  node := { (default : SpdEntryNode) with
    policyDir := IPSEC_DIR_OUTBOUND, srcport := 500, innerProtocol := 17
    localSubnet := .lit "192.168.201.0/24", remoteSubnet := .lit "192.168.202.0/24" }
  localAddr := quad 192 168 201 0
  localLen := 24
  local_text := ⟨by decide +kernel, by decide +kernel, by decide +kernel, by decide +kernel⟩
  remoteAddr := quad 192 168 202 0
  remoteLen := 24
  remote_text := ⟨by decide +kernel, by decide +kernel, by decide +kernel, by decide +kernel⟩

def portLookup : SpdLookup where
  node := portNode
  dump := ⟨[], portReply, nofun, by decide +kernel⟩
  sameProtocol := fun protocol proto => proto = protocol.setWidth 8
  before := []
  own := portReply
  after := []
  replies := rfl
  selected := ⟨by decide +kernel,
    ⟨by decide +kernel, by decide +kernel, by decide +kernel, by decide +kernel, by decide +kernel⟩,
    by decide +kernel, by decide +kernel, by decide +kernel, by decide +kernel, by decide +kernel⟩
  others := nofun

/-- The only policy of the dump is the node's, and its lookup misses it. -/
theorem own_policy_missed :
    portReply.id = 17 ∧
      (pfAddpolicy ⟨⟨⟨7, 0, 0⟩, 0, 0⟩, ⟨default, default, 0, 0, 0, 0, 0⟩, .zeros, portLookup.dump.datagrams⟩
        portNode.node).map (·.2.index) = some 0 ∧
      ¬FindsOwn ⟨⟨7, 0, 0⟩, 0, 0⟩ ⟨default, default, 0, 0, 0, 0, 0⟩ .zeros portLookup [] := by
  have hrun : (pfAddpolicy ⟨⟨⟨7, 0, 0⟩, 0, 0⟩, ⟨default, default, 0, 0, 0, 0, 0⟩, .zeros, portLookup.dump.datagrams⟩
      portNode.node).map (·.2.index) = some 0 := by decide +kernel
  refine ⟨by decide +kernel, hrun, fun h => ?_⟩
  have hid : some portReply.id = some 0 := h.symm.trans hrun
  exact absurd hid (by decide +kernel)

end CfgIpsec.Proof
