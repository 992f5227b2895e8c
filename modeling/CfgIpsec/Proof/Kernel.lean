import CfgIpsec.Proof.Indexes
import CfgIpsec.Proof.KeyExts
import CfgIpsec.Proof.Restart
import CfgIpsec.Proof.SadLedger
import CfgIpsec.Spec.Kernel

/-!
# The lists and the databases of the kernel

What `addSPD_entry` and `removeSPD_entry` send asks for the policies of the
entry to be inserted and erased (`requests_addPolicies`,
`requests_delPolicies`), so the kernel has those of the list as long as it
accepts what it is asked (`kernel_policies`). An SA is added with keys that are
those of the entry only when they are as long as is declared, and is erased by
the far end of the entry's subnets, which is only in transport mode that of the
SA: `kernel_sas`.
-/

namespace CfgIpsec.Proof

open Impl Spec Run Tables
open CStr (lit)

/-! ## What a message asks of the policies -/

theorem spRequest?_of_type {msg : Bytes} (hadd : msgType msg ≠ SADB_X_SPDADD) (hdel : msgType msg ≠ SADB_X_SPDDELETE) :
    spRequest? msg = none := by
  rw [spRequest?, if_neg hadd, if_neg hdel]

theorem spRule_policyExt (e : PolicyEnv) (n : SpdEntryNode) (dir : BitVec 16) (tail : Bytes) :
    spRule (policyExt e n ++ tail) = (spRow n dir).2 := by
  have hsize : (sadbPolicy.put (addedPolicy e n)).length = 16 := sadbPolicy.length_put _
  have hreq : (policyExt e n ++ tail).drop 16 =
      sadbIpsecrequest.put (addedRequest e n) ++ (tunnelAddrs e n ++ tail) := by
    rw [policyExt_eq, List.append_assoc, List.drop_left' hsize, List.append_assoc]
  have hdrop : ∀ k, (policyExt e n ++ tail).drop (16 + k) = ((policyExt e n ++ tail).drop 16).drop k :=
    fun k => (List.drop_drop ..).symm
  have hpolicy : sadbPolicy.get (policyExt e n ++ tail) = addedPolicy e n := by
    rw [policyExt_eq, List.append_assoc, Codec.get_put]
  have hends : (if (sadbIpsecrequest.get ((policyExt e n ++ tail).drop 16)).len = 48 then
      some ((sockaddrIn.get ((policyExt e n ++ tail).drop (16 + 16))).addr,
        (sockaddrIn.get ((policyExt e n ++ tail).drop (16 + 32))).addr)
      else none) = (spRow n dir).2.ends := by
    have hiff := hasEndpoints_iff e n tail
    rw [hdrop 16, hdrop 32, hreq]
    by_cases hmode : n.ipsecMode = IPSEC_MODE_TUNNEL
    · have hhas := hiff.mpr hmode
      rw [if_pos hhas.len, hhas.src, hhas.dst, spRow, if_pos hmode]
    · have hlen : (sadbIpsecrequest.get (sadbIpsecrequest.put (addedRequest e n) ++ (tunnelAddrs e n ++ tail))).len = 16 := by
        rw [Codec.get_put, addedRequest, tunnelAddrs, if_neg hmode]
        rfl
      rw [hlen, if_neg (by decide), spRow, if_neg hmode]
  rw [spRule, hends, hpolicy, hreq, Codec.get_put]
  rfl

/-- `pf_addpolicy` asks for the policy of the node, and gives the node an index. -/
theorem requests_pfAddpolicy {e : AddpolicyEnv} {n n' : SpdEntryNode} {msgs : List Bytes}
    (h : pfAddpolicy e n = some (msgs, n')) :
    msgs.filterMap spRequest? = inserts [spRow n n.policyDir] ∧ ∃ index, n' = { n with index := index } := by
  obtain ⟨msg, dump, index, rfl, rfl, hmsg, htype, hdump⟩ := pfAddpolicy_messages h
  obtain ⟨msg', dump', index', heq, -, -, hident, -⟩ := pfAddpolicy_spec h
  cases heq
  obtain ⟨src, dst, -, -, -, hsaid⟩ := addpolicyMessage_says hmsg
  obtain ⟨tail, hext⟩ := hsaid.first
  have hreq : spRequest? msg = some (.insert (spRow n n.policyDir).1 (spRow n n.policyDir).2) := by
    rw [spRequest?, if_pos htype, hident, hext, Option.bind_eq_bind, Option.bind_some, Option.bind_eq_bind,
      Option.bind_some, spRule_policyExt e.toPolicyEnv n n.policyDir]
    rfl
  have hnone : spRequest? dump = none :=
    spRequest?_of_type (by rw [hdump]; decide) (by rw [hdump]; decide)
  exact ⟨by rw [List.filterMap_cons_some hreq, List.filterMap_cons_none hnone]; rfl, index, rfl⟩

/-- `pf_delpolicy` asks for the policy of the node to be erased. -/
theorem spRequest?_pfDelpolicy {e : MsgEnv} {n : SpdEntryNode} {msg : Bytes} (h : pfDelpolicy e n = some msg) :
    spRequest? msg = some (.erase (spRow n n.policyDir).1) := by
  obtain ⟨htype, hident⟩ := pfDelpolicy_spec h
  rw [spRequest?, if_neg (by rw [htype]; decide), if_pos htype, hident]
  rfl

theorem spRows_congr {n n' : SpdEntryNode} (h : unindexed n' = unindexed n) : spRows n' = spRows n := by
  change spRows (unindexed n') = spRows (unindexed n)
  rw [h]

/-- The policies of an entry are asked for. -/
theorem requests_addPolicies {e : AddSpdEnv} {n n' : SpdEntryNode} {msgs : List Bytes}
    (h : addPolicies e n = some (msgs, n')) : msgs.filterMap spRequest? = inserts (spRows n) := by
  rw [addPolicies] at h
  obtain ⟨⟨msgs₁, n₁⟩, h₁, h⟩ := Option.bind_eq_some_iff.mp h
  obtain ⟨hreq, index, rfl⟩ := requests_pfAddpolicy h₁
  dsimp only at h
  by_cases hd : n.policyDir = IPSEC_DIR_INBOUND
  · rw [if_pos hd] at h
    obtain ⟨⟨msgs₂, n₂⟩, h₂, h⟩ := Option.bind_eq_some_iff.mp h
    obtain ⟨hreq₂, -⟩ := requests_pfAddpolicy h₂
    cases h
    rw [List.filterMap_append, hreq, hreq₂, spRows, if_pos hd]
    rfl
  · rw [if_neg hd] at h
    cases h
    rw [hreq, spRows, if_neg hd]

/-- The policies of an entry are asked to be erased. -/
theorem requests_delPolicies {e : RemoveSpdEnv} {n n' : SpdEntryNode} {msgs : List Bytes}
    (h : delPolicies e n = some (msgs, n')) : msgs.filterMap spRequest? = erases ((spRows n).map Prod.fst) := by
  rw [delPolicies] at h
  obtain ⟨del, hdel, h⟩ := Option.bind_eq_some_iff.mp h
  have hreq := spRequest?_pfDelpolicy hdel
  by_cases hd : n.policyDir = IPSEC_DIR_INBOUND
  · rw [if_pos hd] at h
    obtain ⟨forward, hforward, h⟩ := Option.bind_eq_some_iff.mp h
    cases h
    rw [List.filterMap_cons_some hreq, List.filterMap_cons_some (spRequest?_pfDelpolicy hforward), spRows, if_pos hd]
    rfl
  · rw [if_neg hd] at h
    cases h
    rw [List.filterMap_cons_some hreq, spRows, if_neg hd]
    rfl

/-! ## Runs over the SPD list -/

section Policies

variable {σ : Type} {K : Keeper σ Bytes SpKey SpRule}

/-- A call keeps the policies of the kernel those of the list exactly when the
kernel accepts what it asks for. -/
theorem spdMirrored_step_iff (hK : K.Lawful spRequest?) {s s' : Store SpdEntryNode} {op : SpdOp}
    (h : SpdMirrored K s) (hs : op.step s = some s') : SpdMirrored K s' ↔ op.Taken K s := by
  have htaken : op.Taken K s ↔ K.Takes spRequest? (K.after K.start s.sent) (s'.sent.drop s.sent.length) :=
    ⟨fun ht => ht s' hs, fun ht s₁ hs₁ => Option.some.inj (hs.symm.trans hs₁) ▸ ht⟩
  have hnothing : ∀ st, K.Takes spRequest? st [] := fun _ => rfl
  rw [htaken]
  cases op with
  | add e it xpath x =>
    obtain ⟨⟨rc, it', s₁⟩, hadd, rfl⟩ := Option.map_eq_some_iff.mp hs
    rcases addSpdEntry_cases hadd with
      ⟨-, -, -, rfl⟩ | ⟨-, err, node, -, -, rfl⟩ | ⟨-, node, msgs, node', -, hpol, -, rfl⟩
    · exact iff_of_true h (List.drop_length ▸ hnothing _)
    · exact iff_of_true h (List.drop_length ▸ hnothing _)
    · have hrows : (s.entries ++ [node']).map spRows = (s.entries ++ [node]).map spRows := by
        rw [List.map_append, List.map_append, List.map_singleton, List.map_singleton,
          spRows_congr (addPolicies_spec hpol).1]
      rw [SpdMirrored, mirrors_congr hrows, Keeper.tableAfter, Keeper.after_append, List.drop_left]
      exact hK.install_iff h (requests_addPolicies hpol)
  | remove e x =>
    obtain ⟨⟨rc, s₁⟩, hrem, rfl⟩ := Option.map_eq_some_iff.mp hs
    rcases removeSpdEntry_cases hrem with ⟨-, -, rfl⟩ | ⟨pre, n, post, msgs, node, -, he, -, -, hdel, -, rfl⟩
    · exact iff_of_true h (List.drop_length ▸ hnothing _)
    · rw [SpdMirrored, he] at h
      rw [SpdMirrored, Keeper.tableAfter, Keeper.after_append, List.drop_left]
      exact hK.retire_iff h (requests_delPolicies hdel)

theorem spdMirrored_start (hK : K.Lawful spRequest?) : SpdMirrored K emptyStore := by
  rw [SpdMirrored, Keeper.tableAfter]
  exact hK.start.symm ▸ Mirrors.nil spRows

/-- In every run over the SPD list the kernel has the policies of its entries
and no others, each with the rule of its entry, exactly as long as it accepts
what each call asks for. -/
theorem kernel_policies (hK : K.Lawful spRequest?) (ops : List SpdOp) :
    Always SpdOp.step (SpdMirrored K) ops emptyStore ↔ Along SpdOp.step (fun s op => op.Taken K s) ops emptyStore :=
  always_iff_along (spdMirrored_step_iff hK) (spdMirrored_start hK)

end Policies

/-! ## Keys -/

/-- The key of a record is the whole string exactly when the string is as long as
the record says, and has room in it. -/
theorem secret?_eq_iff {u : KeyUse} {n : SadEntryNode} {msg rest : Bytes} {t : BitVec 16} {len bits : Nat}
    (h : keyExt? u msg = some (keyRecord rest t len bits (u.string n))) (halg : u.alg n ≠ 0) (hbits : bits < 2 ^ 16) :
    secret? u msg = u.secret n ↔ bits = 8 * strlen (u.string n) ∧ strlen (u.string n) ≤ 8 * len - 8 := by
  have hof : (BitVec.ofNat 16 bits).toNat = bits := by rw [BitVec.toNat_ofNat, Nat.mod_eq_of_lt hbits]
  rw [secret?, h, Option.map_some, KeyUse.secret, if_neg halg, get_keyRecord, drop_keyRecord, hof,
    Option.some.injEq, Prod.mk.injEq, and_congr_right_iff]
  rintro rfl
  rw [Nat.mul_div_cancel_left _ (by decide), List.take_take]
  constructor
  · intro heq
    have hlen := congrArg List.length heq
    rw [List.length_take, ← strlen] at hlen
    omega
  · intro hroom
    rw [Nat.min_eq_left hroom, overlay, strlen, List.take_left]

/-- Without an algorithm there is no key. -/
theorem secret?_none {u : KeyUse} {e : MsgEnv} {n : SadEntryNode} {msg : Bytes} (h : pfAddsad e n = some msg)
    (halg : u.alg n = 0) : secret? u msg = u.secret n := by
  obtain ⟨addrs, -, hsaid⟩ := pfAddsad_says h
  have htype : u.ext ∉ sadTypes n := by
    rw [sadTypes, keyTypes]
    cases u with
    | encryption =>
      have henc : n.encryptionAlg = SADB_EALG_NONE := halg
      rw [if_neg (not_not_intro henc)]
      split <;> decide
    | integrity =>
      have hint : n.integrityAlg = SADB_AALG_NONE := halg
      rw [if_neg (not_not_intro hint)]
      split <;> decide
  have hnone : ext? msg u.ext = none := by simpa using mt (hsaid.types u.ext).mp htype
  rw [secret?, keyExt?, hnone, KeyUse.secret, if_pos halg]
  rfl

/-- How long a key is that an encryption extension holds whole; for AES the
declared bits do not fit. -/
theorem encryptKeyArea_iff (alg : BitVec 32) (k : Nat) :
    (encryptKeyArea alg).bits = 8 * k ∧ k ≤ 8 * (encryptKeyArea alg).len - 8 ↔
      alg ≠ SADB_X_EALG_AESCBC ∧ k = keyLength .encryption alg := by
  have hdesLen : 8 * keyLen EALG_DESCBC_KEY_BITS - 8 = 8 := by decide
  have hlen : 8 * keyLen EALG_3DESCBC_KEY_BITS - 8 = 24 := by decide
  rw [encryptKeyArea, keyLength]
  by_cases hdes : alg = SADB_EALG_DESCBC
  · have haes : alg ≠ SADB_X_EALG_AESCBC := by rw [hdes]; decide
    rw [if_pos hdes, if_pos hdes, hdesLen, EALG_DESCBC_KEY_BITS]
    simp only [haes, ne_eq, not_false_eq_true, true_and]
    omega
  · rw [if_neg hdes, if_neg hdes]
    by_cases haes : alg = SADB_X_EALG_AESCBC
    · rw [if_pos haes, hlen]
      refine iff_of_false ?_ fun h => h.1 haes
      show ¬(256 = 8 * k ∧ k ≤ 24)
      omega
    · rw [if_neg haes, hlen, EALG_3DESCBC_KEY_BITS]
      simp only [haes, ne_eq, not_false_eq_true, true_and]
      omega

theorem authKeyArea_iff (alg : BitVec 32) (k : Nat) :
    (authKeyArea alg).bits = 8 * k ∧ k ≤ 8 * (authKeyArea alg).len - 8 ↔ k = keyLength .integrity alg := by
  have hbits : (authKeyArea alg).bits = 160 := by
    rw [authKeyArea]
    split <;> rfl
  rw [hbits, authKeyArea_len, keyLength]
  omega

theorem encryptKeyArea_bits (alg : BitVec 32) : (encryptKeyArea alg).bits < 2 ^ 16 := by
  unfold encryptKeyArea
  split
  · decide
  · split <;> decide

theorem authKeyArea_bits (alg : BitVec 32) : (authKeyArea alg).bits < 2 ^ 16 := by
  unfold authKeyArea
  split <;> decide

/-- The keys of an entry are sent as they are exactly when they are whole. -/
theorem keysWhole_iff {e : MsgEnv} {n : SadEntryNode} {msg : Bytes} (h : pfAddsad e n = some msg) :
    (∀ u : KeyUse, secret? u msg = u.secret n) ↔ KeysWhole n := by
  have henc : ∀ halg : n.encryptionAlg ≠ 0, secret? .encryption msg = KeyUse.encryption.secret n ↔ _ := fun halg =>
    (secret?_eq_iff (keyExt_encryption h halg) halg (encryptKeyArea_bits _)).trans (encryptKeyArea_iff ..)
  have hint : ∀ halg : n.integrityAlg ≠ 0, secret? .integrity msg = KeyUse.integrity.secret n ↔ _ := fun halg =>
    (secret?_eq_iff (keyExt_integrity h halg) halg (authKeyArea_bits _)).trans (authKeyArea_iff ..)
  constructor
  · intro hall
    refine ⟨fun haes => ?_, fun u halg => ?_⟩
    · have halg : n.encryptionAlg ≠ 0 := by rw [haes]; decide
      exact ((henc halg).mp (hall .encryption)).1 haes
    · cases u with
      | encryption => exact ((henc halg).mp (hall .encryption)).2
      | integrity => exact (hint halg).mp (hall .integrity)
  · rintro ⟨haes, hlen⟩ u
    by_cases halg : u.alg n = 0
    · exact secret?_none h halg
    · cases u with
      | encryption => exact (henc halg).mpr ⟨haes, hlen .encryption halg⟩
      | integrity => exact (hint halg).mpr (hlen .integrity halg)

/-! ## What a message asks of the SAs -/

theorem saRequest?_of_type {msg : Bytes} (hadd : msgType msg ≠ SADB_ADD) (hdel : msgType msg ≠ SADB_DELETE) :
    saRequest? msg = none := by
  rw [saRequest?, if_neg hadd, if_neg hdel]

/-- `pf_addsad` asks for an SA that is found as that of the entry is, and is that
of the entry exactly when the keys are whole. -/
theorem saRequest?_pfAddsad {e : MsgEnv} {n : SadEntryNode} {msg : Bytes} (h : pfAddsad e n = some msg) :
    ∃ r, saRequest? msg = some (.insert (saWanted n).key r) ∧ (((saWanted n).key, r) ∈ saRows n ↔ KeysWhole n) := by
  obtain ⟨htype, hident⟩ := saIdent?_pfAddsad h
  obtain ⟨addrs, -, hsaid⟩ := pfAddsad_says h
  -- The source is that of the SA the message names.
  have hsrc : addrs.1.sockaddr.addr = (saWanted n).src := by
    rw [saIdent?, hsaid.sa, hsaid.src, hsaid.dst] at hident
    exact congrArg SaIdent.src (Option.some.inj hident)
  refine ⟨⟨(saWanted n).src, saExt n, sa2Ext n, hardExt n, softExt n, secret? .encryption msg, secret? .integrity msg⟩,
    ?_, ?_⟩
  · rw [saRequest?, if_pos htype, hident, saRule?, hsaid.src, hsaid.sa, hsaid.sa2, hsaid.hard, hsaid.soft, ← hsrc]
    rfl
  · rw [← keysWhole_iff h, saRows, List.mem_singleton]
    simp only [Prod.mk.injEq, SaRule.mk.injEq, true_and]
    refine ⟨fun h u => ?_, fun hall => ⟨hall .encryption, hall .integrity⟩⟩
    cases u with
    | encryption => exact h.1
    | integrity => exact h.2

/-- `pf_delsad` asks for the SA with the far end of the subnets to be erased. -/
theorem saRequest?_pfDelsad {e : MsgEnv} {n : SadEntryNode} {msg : Bytes} (h : pfDelsad e n = some msg) :
    saRequest? msg = some (.erase (saBetween n (subnetIp n.localSubnet) (subnetIp n.remoteSubnet)).key) := by
  obtain ⟨htype, hident⟩ := saIdent?_sadRequest h
  rw [saRequest?, if_neg (by rw [htype]; decide), if_pos htype, hident]
  rfl

theorem saRequest?_pfGetsad {e : MsgEnv} {n : SadEntryNode} {msg : Bytes} (h : pfGetsad e n = some msg) :
    saRequest? msg = none := by
  obtain ⟨htype, -⟩ := saIdent?_sadRequest h
  exact saRequest?_of_type (by rw [htype]; decide) (by rw [htype]; decide)

/-- The SA between the subnets is found by what that of the entry is exactly when
its far end is the same in either mode. -/
theorem key_saBetween_iff {n : SadEntryNode} :
    (saWanted n).key = (saBetween n (subnetIp n.localSubnet) (subnetIp n.remoteSubnet)).key ↔ SameFarEnd n := by
  rw [saWanted, SameFarEnd]
  split
  · rename_i h
    simp [saBetween, SaIdent.key, h]
  · rename_i h
    simp [h]

/-! ## Runs over the SAD list -/

section SAs

variable {σ : Type} {K : Keeper σ Bytes SaKey SaRule}

/-- What a call asks of a kernel that has the SAs of the list keeps it so exactly
when the kernel accepts it, and it is just what the entry is. -/
theorem mirrors_sadStep (hK : K.Lawful saRequest?) {st : σ} {s s' : Store SadEntryNode} {op : SadOp}
    (h : Mirrors saRows (K.table st) s.entries) (hs : op.step s = some s') :
    ∃ msgs, s'.sent = s.sent ++ msgs ∧ (Mirrors saRows (K.table (K.after st msgs)) s'.entries ↔ op.Taken K st s) := by
  have hiff : ∀ {msgs}, s'.sent = s.sent ++ msgs → (op.Taken K st s ↔ op.Exact s.entries ∧ K.Takes saRequest? st msgs) := by
    intro msgs hmsgs
    have hdrop : s'.sent.drop s.sent.length = msgs := by rw [hmsgs, List.drop_left]
    constructor
    · exact fun ht => ⟨ht.about, hdrop ▸ ht.taken s' hs⟩
    · exact fun ⟨hexact, ht⟩ => ⟨hexact, fun s₁ hs₁ => Option.some.inj (hs.symm.trans hs₁) ▸ hdrop ▸ ht⟩
  have hnothing : K.Takes saRequest? st [] := rfl
  cases op with
  | add e it xpath x =>
    obtain ⟨⟨rc, it', s₁⟩, hadd, rfl⟩ := Option.map_eq_some_iff.mp hs
    rcases addSadEntry_cases hadd with ⟨err, node, hread, -, rfl⟩ | ⟨node, add, get, hread, hmsg, hget, -, rfl⟩
    · have hsame := (List.append_nil s₁.sent).symm
      refine ⟨[], hsame, iff_of_true h ((hiff hsame).mpr ⟨fun it' n hn => ?_, hnothing⟩)⟩
      rw [hread] at hn
      cases hn
    · obtain ⟨r, hreq, hrow⟩ := saRequest?_pfAddsad hmsg
      have hmsgs : [add, get].filterMap saRequest? = inserts [((saWanted node).key, r)] := by
        rw [List.filterMap_cons_some hreq, List.filterMap_cons_none (saRequest?_pfGetsad hget)]
        rfl
      have hexact : SadOp.Exact s.entries (.add e it xpath x) ↔ KeysWhole node := by
        refine ⟨fun hall => hall it' node hread, fun hkeys it₁ n hn => ?_⟩
        rw [hread] at hn
        cases hn
        exact hkeys
      refine ⟨[add, get], rfl, ?_⟩
      rw [hiff rfl, hexact, ← hrow, saRows, List.mem_singleton, Prod.mk.injEq, eq_self, true_and]
      exact hK.install_one_iff h rfl hmsgs
  | remove e x =>
    obtain ⟨⟨rc, s₁⟩, hrem, rfl⟩ := Option.map_eq_some_iff.mp hs
    rcases removeSadEntry_cases hrem with
      ⟨hn, -, rfl⟩ | ⟨pre, n, post, get, del, hn, he, -, -, hget, hdel, -, rfl⟩
    · have hsame := (List.append_nil s₁.sent).symm
      refine ⟨[], hsame, iff_of_true h ((hiff hsame).mpr ⟨fun n hn' => ?_, hnothing⟩)⟩
      rw [hn] at hn'
      cases hn'
    · have hexact : SadOp.Exact s.entries (.remove e x) ↔ SameFarEnd n := by
        rw [SadOp.Exact, hn]
        exact ⟨fun hall => hall n rfl, fun hsame m hm => Option.some.inj hm ▸ hsame⟩
      have hmsgs : [get, del].filterMap saRequest? =
          erases [(saBetween n (subnetIp n.localSubnet) (subnetIp n.remoteSubnet)).key] := by
        rw [List.filterMap_cons_none (saRequest?_pfGetsad hget), List.filterMap_cons_some (saRequest?_pfDelsad hdel)]
        rfl
      refine ⟨[get, del], rfl, ?_⟩
      rw [hiff rfl, hexact, ← key_saBetween_iff]
      exact hK.retire_one_iff (he ▸ h) rfl hmsgs

theorem sadMirrored_step_iff (hK : K.Lawful saRequest?) {s s' : Store SadEntryNode} {op : SadOp}
    (h : SadMirrored K s) (hs : op.step s = some s') :
    SadMirrored K s' ↔ op.Taken K (K.after K.start s.sent) s := by
  obtain ⟨msgs, hsent, hiff⟩ := mirrors_sadStep hK h hs
  rw [SadMirrored, hsent, Keeper.tableAfter, Keeper.after_append]
  exact hiff

theorem sadMirrored_start (hK : K.Lawful saRequest?) : SadMirrored K emptyStore := by
  rw [SadMirrored, Keeper.tableAfter]
  exact hK.start.symm ▸ Mirrors.nil saRows

/-- In every run over the SAD list the kernel has the SAs of its entries and no
others, each as its entry describes it, exactly as long as it accepts what each
call asks for, the keys of each entry that is added are as long as is declared
for its algorithms, and each that is removed has the same far end in either
mode. -/
theorem kernel_sas (hK : K.Lawful saRequest?) (ops : List SadOp) :
    Always SadOp.step (SadMirrored K) ops emptyStore ↔
      Along SadOp.step (fun s op => op.Taken K (K.after K.start s.sent) s) ops emptyStore :=
  always_iff_along (sadMirrored_step_iff hK) (sadMirrored_start hK)

end SAs

/-! ## Transactions -/

section Items

variable {xpath : CStr → CStr} {α ρ δ : Type} {ops : EntryOps α ρ δ} {name : α → CStr}
  {adds : CStr → List CStr → List CStr}

/-- What each item keeps that is applied, the items of a batch keep. -/
theorem applyItems_keeps {P : Store α → Prop} {C : CallbackEnv ρ δ → Store α → Item xpath → Prop}
    (h : ChangesNames name adds ops)
    (hstep : ∀ {e s s'} {i : Item xpath}, P s → C e s i → i.apply ops e s = some (.ok (), s') → P s')
    {items : List (Item xpath)} {e : CallbackEnv ρ δ} {s s' : Store α} {rc : Rc} (hs : P s)
    (hc : AlongItems ops C e s items) (hr : applyItems ops e s items = some (rc, s')) : P s' := by
  induction items generalizing e s with
  | nil => cases hr; exact hs
  | cons i items ih =>
    obtain ⟨⟨rc₁, s₁⟩, hi, hr⟩ := Option.bind_eq_some_iff.mp hr
    cases rc₁ with
    | ok u =>
      obtain ⟨hci, hc⟩ := hc s₁ hi
      exact ih (hstep hs hci hi) hc hr
    | error err =>
      cases hr
      rwa [apply_error h hi]

end Items

theorem spdOp_step {e : CallbackEnv AddSpdEnv RemoveSpdEnv} {s s' : Store SpdEntryNode} {i : Item spdEntryXpath}
    {rc : Rc} (h : i.apply spdOps e s = some (rc, s')) : (i.spdOp e).step s = some s' := by
  cases i with
  | created b =>
    obtain ⟨r, hr, heq⟩ := Option.map_eq_some_iff.mp h
    cases heq
    exact Option.map_eq_some_iff.mpr ⟨r, hr, rfl⟩
  | deleted b => exact Option.map_eq_some_iff.mpr ⟨_, h, rfl⟩

theorem sadOp_step {e : CallbackEnv AddSadEnv RemoveSadEnv} {s s' : Store SadEntryNode} {i : Item sadEntryXpath}
    {rc : Rc} (h : i.apply sadOps e s = some (rc, s')) : (i.sadOp e).step s = some s' := by
  cases i with
  | created b =>
    obtain ⟨r, hr, heq⟩ := Option.map_eq_some_iff.mp h
    cases heq
    exact Option.map_eq_some_iff.mpr ⟨r, hr, rfl⟩
  | deleted b => exact Option.map_eq_some_iff.mpr ⟨_, h, rfl⟩

section System

variable {σ τ : Type} {K : Kernel σ τ}

theorem kernelFollows_start (hK : K.Lawful) : KernelFollows K .start :=
  ⟨⟨rfl, rfl⟩, spdMirrored_start hK.policies, sadMirrored_start hK.sas⟩

theorem kernelFollows_step (hK : K.Lawful) {s s' : System} {t : Transaction} (hs : KernelFollows K s)
    (ht : t.Fits s ∧ t.Accepted s ∧ t.Taken K s) (h : s.step t = some s') : KernelFollows K s' := by
  obtain ⟨hfits, haccepted, htaken⟩ := ht
  have hspd : ∀ {rc spd}, applyItems spdOps t.spdCalls s.spd t.spd = some (rc, spd) → SpdMirrored K.policies spd :=
    applyItems_keeps changesNames_spd
      (fun hs hc hi => (spdMirrored_step_iff hK.policies hs (spdOp_step hi)).mpr hc) hs.policies htaken.spd
  have hsad : ∀ {rc sad}, applyItems sadOps t.sadCalls s.sad t.sad = some (rc, sad) → SadMirrored K.sas sad :=
    applyItems_keeps changesNames_sad
      (fun hs hc hi => (sadMirrored_step_iff hK.sas hs (sadOp_step hi)).mpr hc) hs.sas htaken.sad
  refine ⟨(inSync_step hs.lists hfits h).mpr (.inl haccepted), ?_, ?_⟩
  · rcases system_step_cases hfits.oneList hfits.spdItems hfits.sadItems h with ⟨err, hrun, -, -⟩ | ⟨hrun, -⟩
    · exact hspd hrun
    · exact hspd hrun
  · rcases system_step_cases hfits.oneList hfits.spdItems hfits.sadItems h with ⟨err, -, heq, -⟩ | ⟨-, rc, hrun, -⟩
    · rw [heq]
      exact hs.sas
    · exact hsad hrun

/-- From the committed configuration down to the kernel: along accepted
transactions whose requests the kernel accepts, and which ask for just what
their entries are, the lists have the committed entries, and the kernel has
their policies and SAs and no others. -/
theorem kernel_follows (hK : K.Lawful) {ts : List Transaction}
    (ht : Along System.step (fun s t => t.Fits s ∧ t.Accepted s ∧ t.Taken K s) ts .start) :
    Always System.step (KernelFollows K) ts .start :=
  always_of_along (fun hs hc h => kernelFollows_step hK hs hc h) (kernelFollows_start hK) ht

end System

/-! ## A kernel, and an entry of each list -/

/-- A policy that can be added: of a direction, with an action, and with a
protocol and a mode when it protects. -/
def spAddable (msg : Bytes) : Bool :=
  (spIdent? msg).any fun i => (ext? msg SADB_X_EXT_POLICY).any fun policy =>
    let r := spRule policy
    1 ≤ i.dir ∧ i.dir ≤ 3 ∧ r.action ≤ 2 ∧ (r.action = 2 → (r.proto = 50 ∨ r.proto = 51) ∧ 1 ≤ r.mode ∧ r.mode ≤ 2)

/-- A key extension has bits, and is as long as they take. -/
def keyAddable (u : KeyUse) (msg : Bytes) : Bool :=
  (keyExt? u msg).all fun ext =>
    let k := sadbKey.get ext
    k.bits ≠ 0 ∧ k.len.toNat = 1 + (k.bits.toNat + 63) / 64

/-- An SA that can be added: of AH or of ESP, the latter with a key to encrypt. -/
def saAddable (msg : Bytes) : Bool :=
  (saRequest? msg).isSome ∧ keyAddable .encryption msg ∧ keyAddable .integrity msg ∧
    ((sadbMsg.get msg).satype = 2 ∨ (sadbMsg.get msg).satype = SADB_SATYPE_ESP ∧ (keyExt? .encryption msg).isSome)

/-- A kernel that looks at what is added. -/
def pfKernel : Kernel (Table SpKey SpRule) (Table SaKey SaRule) where
  policies := tableKeeper spRequest? fun msg => msgType msg = SADB_X_SPDDELETE || spAddable msg
  sas := tableKeeper saRequest? fun msg => msgType msg = SADB_DELETE || saAddable msg

theorem pfKernel_lawful : pfKernel.Lawful := ⟨lawful_tableKeeper _ _, lawful_tableKeeper _ _⟩

instance {σ μ κ υ : Type} [DecidableEq κ] [DecidableEq υ] (K : Keeper σ μ κ υ) (request? : μ → Option (Request κ υ))
    (st : σ) (ms : List μ) : Decidable (K.Takes request? st ms) := inferInstanceAs (Decidable (_ = _))

/-- Packets are protected with ESP. -/
def espPolicy : List SpdSetting :=
  [⟨⟨[.child (lit "ipsec-policy-config"), .child (lit "processing-info"), .child (lit "action")],
      .enumeration [lit "protect", lit "bypass", lit "discard"]⟩, [], ⟨0x1000, some (lit "protect")⟩,
      by decide +kernel, noKeys, by decide +kernel⟩,
   ⟨⟨[.child (lit "ipsec-policy-config"), .child (lit "processing-info"), .child (lit "ipsec-sa-cfg"),
      .child (lit "mode")], .enumeration [lit "transport", lit "tunnel"]⟩, [], ⟨0x1000, some (lit "transport")⟩,
      by decide +kernel, noKeys, by decide +kernel⟩,
   ⟨⟨[.child (lit "ipsec-policy-config"), .child (lit "processing-info"), .child (lit "ipsec-sa-cfg"),
      .child (lit "protocol-parameters")], .enumeration [lit "esp"]⟩, [], ⟨0x1000, some (lit "esp")⟩,
      by decide +kernel, noKeys, by decide +kernel⟩]

theorem mem_sadSchema_spi : (⟨[.child (lit "ipsec-sa-config"), .child (lit "spi")], .uint 32⟩ : SchemaNode) ∈ sadSchema := by
  decide +kernel

theorem mem_sadSchema_mode : (⟨[.child (lit "ipsec-sa-config"), .child (lit "mode")],
    .enumeration [lit "transport", lit "tunnel"]⟩ : SchemaNode) ∈ sadSchema := by
  decide +kernel

theorem mem_sadSchema_protocol : (⟨[.child (lit "ipsec-sa-config"), .child (lit "protocol-parameters")],
    .enumeration [lit "esp"]⟩ : SchemaNode) ∈ sadSchema := by
  decide +kernel

theorem algorithmNode_mem (u : KeyUse) : algorithmNode u ∈ sadSchema := by
  cases u <;> decide +kernel

theorem keyNode_mem (u : KeyUse) : keyNode u ∈ sadSchema := by
  cases u <;> decide +kernel

/-- An SA of ESP, with 3DES and SHA-1 and keys for them. -/
def espSa : List Setting :=
  [configSetting [.child (lit "spi")] (.uint 32) ⟨34502, none⟩ mem_sadSchema_spi rfl,
   configSetting [.child (lit "protocol-parameters")] (.enumeration [lit "esp"]) ⟨0x1000, some (lit "esp")⟩
      mem_sadSchema_protocol (by decide +kernel),
   configSetting [.child (lit "mode")] (.enumeration [lit "transport", lit "tunnel"]) ⟨0x1000, some (lit "transport")⟩
      mem_sadSchema_mode (by decide +kernel),
   configSetting [.child (lit "esp-sa"), .child (lit "encryption"), .child (lit "encryption-algorithm")] (.uint 16)
      ⟨3, none⟩ (algorithmNode_mem .encryption) rfl,
   encryptionKey "01:23:45:67:89:AB:CE:DF:01:23:45:67:89:AB:CE:DF:01:23:45:67:89:AB:CE:DF" (by decide +kernel),
   configSetting [.child (lit "esp-sa"), .child (lit "integrity"), .child (lit "integrity-algorithm")] (.uint 16)
      ⟨3, none⟩ (algorithmNode_mem .integrity) rfl,
   configSetting [.child (lit "esp-sa"), .child (lit "integrity"), .child (lit "key")] .hexString
      ⟨0x1000, some (lit "01:23:45:67:89:AB:CE:DF:01:23:45:67:89:AB:CE:DF:01:23:45:67")⟩ (keyNode_mem .integrity)
      (by decide +kernel)]

/-- The policy `gw`. -/
def gwPolicyBlock : Block spdEntryXpath where
  name := lit "gw"
  listData := ⟨0, none⟩
  nameRaw := 0
  values := (addSpdSettings ++ espPolicy).map (·.value (lit "gw"))
  ne_nil := List.cons_ne_nil _ _
  extend v hv := by
    obtain ⟨w, -, rfl⟩ := List.mem_map.mp hv
    exact List.isPrefixOf_iff_prefix.mpr (List.prefix_append ..)

/-- The SA `gw`. -/
def gwSaBlock : Block sadEntryXpath where
  name := lit "gw"
  listData := ⟨0, none⟩
  nameRaw := 0
  values := (addSadPrefixes ++ espSa).map (·.value (lit "gw"))
  ne_nil := List.cons_ne_nil _ _
  extend v hv := by
    obtain ⟨w, -, rfl⟩ := List.mem_map.mp hv
    exact List.isPrefixOf_iff_prefix.mpr (List.prefix_append ..)

def gwSpdOp : SpdOp := (Item.created gwPolicyBlock).spdOp spdCalls

def gwSadOp : SadOp := (Item.created gwSaBlock).sadOp sadCalls

/-- The kernel accepts the policies of the entry. -/
theorem taken_gwSpdOp : gwSpdOp.Taken pfKernel.policies emptyStore := by
  have hall : (gwSpdOp.step emptyStore).all (fun s => pfKernel.policies.Takes spRequest? .empty s.sent) = true := by
    decide +kernel
  intro s hs
  rw [hs] at hall
  exact of_decide_eq_true hall

/-- The kernel accepts the SA of the entry, with its keys. -/
theorem taken_gwSadOp (st : Table SaKey SaRule) (hst : st = .empty) : gwSadOp.Taken pfKernel.sas st emptyStore := by
  subst hst
  constructor
  · have hall : (readSadEntry gwSaBlock.body (sadEntryXpath (lit "gw")) ((createSadNode default).setName (lit "gw"))).all
        (fun r => r.2.2.encryptionAlg = 3 ∧ strlen r.2.2.encryptionKey = 24 ∧ strlen r.2.2.integrityKey = 20) = true := by
      decide +kernel
    intro it n hread
    change readSadEntry gwSaBlock.body (sadEntryXpath (lit "gw")) ((createSadNode default).setName (lit "gw")) = _ at hread
    rw [hread] at hall
    obtain ⟨halg, henc, hint⟩ := of_decide_eq_true hall
    dsimp only at halg henc hint
    refine ⟨by rw [halg]; decide, fun u _ => ?_⟩
    cases u with
    | encryption =>
      change strlen n.encryptionKey = keyLength .encryption n.encryptionAlg
      rw [henc, halg]
      decide
    | integrity => exact hint
  · have hall : (gwSadOp.step emptyStore).all (fun s => pfKernel.sas.Takes saRequest? .empty s.sent) = true := by
      decide +kernel
    intro s hs
    rw [hs] at hall
    exact of_decide_eq_true hall

/-- The kernel has the policies of the entry. -/
theorem kernel_policies_gw :
    ∃ s, gwSpdOp.step emptyStore = some s ∧ s.entries.map (·.name) = [lit "gw"] ∧ SpdMirrored pfKernel.policies s := by
  have hrun : (gwSpdOp.step emptyStore).any (fun s => s.entries.map (·.name) = [lit "gw"]) = true := by decide +kernel
  obtain ⟨s, hs, hnames⟩ := (Option.any_eq_true _ _).mp hrun
  have halways := (kernel_policies pfKernel_lawful.policies [gwSpdOp]).mpr fun _ _ => ⟨taken_gwSpdOp, trivial⟩
  exact ⟨s, hs, of_decide_eq_true hnames, (halways.2 s hs).head⟩

/-- The kernel has the SA of the entry. -/
theorem kernel_sas_gw :
    ∃ s, gwSadOp.step emptyStore = some s ∧ s.entries.map (·.name) = [lit "gw"] ∧ SadMirrored pfKernel.sas s := by
  have hrun : (gwSadOp.step emptyStore).any (fun s => s.entries.map (·.name) = [lit "gw"]) = true := by decide +kernel
  obtain ⟨s, hs, hnames⟩ := (Option.any_eq_true _ _).mp hrun
  have halways := (kernel_sas pfKernel_lawful.sas [gwSadOp]).mpr fun _ _ => ⟨taken_gwSadOp _ rfl, trivial⟩
  exact ⟨s, hs, of_decide_eq_true hnames, (halways.2 s hs).head⟩

/-- The policy, and then the SA. -/
def gwCreations : List Transaction := [creation [gwPolicyBlock] [], creation [] [gwSaBlock]]

/-- The system after the policy is created, and after both are. -/
def gwProtected : System := (System.start.step (creation [gwPolicyBlock] [])).get (by decide +kernel)

def gwEstablished : System := (gwProtected.step (creation [] [gwSaBlock])).get (by decide +kernel)

theorem step_gwProtected : System.start.step (creation [gwPolicyBlock] []) = some gwProtected :=
  (Option.some_get _).symm

theorem step_gwEstablished : gwProtected.step (creation [] [gwSaBlock]) = some gwEstablished := (Option.some_get _).symm

theorem fits_gwPolicy : (creation [gwPolicyBlock] []).Fits .start :=
  fits_creation (.inr rfl) ⟨by decide +kernel, by decide +kernel, by decide +kernel⟩
    ⟨by decide, by decide, by decide⟩ (by decide +kernel)

theorem accepted_gwPolicy : (creation [gwPolicyBlock] []).Accepted .start := by
  have hconforms : (creation [gwPolicyBlock] []).Conforms := by
    intro i hi
    rw [spd_creation] at hi
    obtain rfl := List.mem_singleton.mp hi
    exact ⟨addSpdSettings ++ espPolicy, rfl⟩
  exact accepted_of_conforms ⟨rfl, rfl⟩ fits_gwPolicy hconforms step_gwProtected

/-- Both entries are accepted, and by the kernel too. -/
theorem along_gwCreations :
    Along System.step (fun s t => t.Fits s ∧ t.Accepted s ∧ t.Taken pfKernel s) gwCreations .start := by
  intro s hs
  obtain rfl : gwProtected = s := Option.some.inj (step_gwProtected.symm.trans hs)
  refine ⟨⟨fits_gwPolicy, accepted_gwPolicy, fun _ _ => ⟨taken_gwSpdOp, trivial⟩, trivial⟩, fun _ _ => ⟨⟨?_, ?_, ?_⟩, trivial⟩⟩
  · exact fits_creation (.inl rfl) ⟨by decide, by decide, by decide⟩
      ⟨by decide +kernel, by decide +kernel, by decide +kernel⟩ (by decide +kernel)
  · exact ⟨gwProtected.spd, rfl⟩
  · have hsad : gwProtected.sad = emptyStore := by
      rcases step_cases step_gwProtected with ⟨err, -, heq, -⟩ | ⟨-, rc, heq, -⟩
      · exact heq
      · exact (Prod.mk.inj (Option.some.inj heq)).2.symm
    refine ⟨trivial, fun _ _ => ⟨?_, trivial⟩⟩
    rw [hsad]
    exact taken_gwSadOp _ rfl

theorem run_gwCreations : run System.step gwCreations .start = some gwEstablished := by
  rw [gwCreations, run, step_gwProtected, Option.bind_some, run, step_gwEstablished]
  rfl

/-- After both entries are committed the kernel follows. -/
theorem kernel_follows_gw : KernelFollows pfKernel gwEstablished :=
  (kernel_follows pfKernel_lawful along_gwCreations).last run_gwCreations

end CfgIpsec.Proof
