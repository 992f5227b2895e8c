import CfgIpsec.Proof.Walks
import CfgIpsec.Spec.Current

/-!
# Reading current lifetimes

A reply leaves its counters in the node, whether it is about the node's SA or
not (`lifetimeLoop_reply`). So the last reply's are there when none was
(`lifetimeLoop_dump`).
-/

namespace CfgIpsec.Proof

open Impl Spec Tlv

theorem counters_withCounters (n : SadEntryNode) (c : Counters) : counters (withCounters n c) = c := rfl

@[simp] theorem bytes_withCounters (n : SadEntryNode) (c : Counters) :
    (withCounters n c).lftBytesCurrent = c.bytes := rfl

@[simp] theorem packets_withCounters (n : SadEntryNode) (c : Counters) :
    (withCounters n c).lftPacketsCurrent = c.packets := rfl

@[simp] theorem idle_withCounters (n : SadEntryNode) (c : Counters) :
    (withCounters n c).lftIdleCurrent = c.idle := rfl

@[simp] theorem time_withCounters (n : SadEntryNode) (c : Counters) :
    (withCounters n c).lftTimeCurrent = c.time := rfl

theorem withCounters_withCounters (n : SadEntryNode) (c c' : Counters) :
    withCounters (withCounters n c) c' = withCounters n c' := rfl

theorem withCounters_eq_iff (n : SadEntryNode) (c : Counters) : withCounters n c = n ↔ c = counters n := by
  constructor
  · intro h
    rw [← h, counters_withCounters]
  · rintro rfl
    rfl

/-! ## One reply -/

/-- The counters in the lifetime extension at `p`. -/
def countersAt (mem : Bytes) (p : Nat) : Counters :=
  ⟨(getLE mem (p + 4) 32).setWidth 64, getLE mem (p + 8) 64, getLE mem (p + 16) 64, getLE mem (p + 24) 64⟩

/-- What a visit does to the node. -/
theorem lifetimeVisit_node {mem : Bytes} {type : BitVec 16} {p : Nat} {s s' : Search}
    (h : lifetimeVisit mem type p s = some s') :
    s'.node = if type = SADB_EXT_LIFETIME_CURRENT then withCounters s.node (countersAt mem p) else s.node := by
  unfold lifetimeVisit at h
  split at h
  · rename_i hsa
    rw [if_neg (by rw [hsa]; decide)]
    obtain ⟨spi, -, h⟩ := Option.bind_eq_some_iff.mp h
    split at h <;> cases h <;> rfl
  split at h
  · rename_i hcurrent
    rw [if_pos hcurrent]
    obtain ⟨allocations, h₁, h⟩ := Option.bind_eq_some_iff.mp h
    obtain ⟨bytes, h₂, h⟩ := Option.bind_eq_some_iff.mp h
    obtain ⟨addtime, h₃, h⟩ := Option.bind_eq_some_iff.mp h
    obtain ⟨usetime, h₄, h⟩ := Option.bind_eq_some_iff.mp h
    cases h
    rw [countersAt, ← eq_of_getLE? h₁, ← eq_of_getLE? h₂, ← eq_of_getLE? h₃, ← eq_of_getLE? h₄]
    have hidle : (if usetime = 0 then 0 else usetime) = usetime := by
      split
      · exact Eq.symm ‹_›
      · rfl
    rw [hidle]
    rfl
  · rename_i hcurrent
    rw [if_neg hcurrent, ← Option.some.inj h]

/-- What a visit finds. -/
theorem lifetimeVisit_found {mem : Bytes} {type : BitVec 16} {p : Nat} {s s' : Search}
    (h : lifetimeVisit mem type p s = some s') :
    (s'.found, s'.node.spi) = if type = SADB_EXT_SA then
      (s.found || decide ((getBE mem (p + 4) 32).setWidth 64 = s.node.spi), s.node.spi)
      else (s.found, s.node.spi) := by
  have hnode := lifetimeVisit_node h
  unfold lifetimeVisit at h
  split at h
  · rename_i hsa
    rw [if_pos hsa]
    obtain ⟨spi, hspi, h⟩ := Option.bind_eq_some_iff.mp h
    rw [← eq_of_getBE? hspi]
    split at h
    · rename_i heq
      cases h
      rw [decide_eq_true heq, Bool.or_true]
    · rename_i hne
      cases h
      rw [decide_eq_false hne, Bool.or_false]
  · rename_i hsa
    rw [if_neg hsa]
    have hspi : s'.node.spi = s.node.spi := by
      rw [hnode]
      split <;> rfl
    have hfound : s'.found = s.found := by
      split at h
      · obtain ⟨allocations, -, h⟩ := Option.bind_eq_some_iff.mp h
        obtain ⟨bytes, -, h⟩ := Option.bind_eq_some_iff.mp h
        obtain ⟨addtime, -, h⟩ := Option.bind_eq_some_iff.mp h
        obtain ⟨usetime, -, h⟩ := Option.bind_eq_some_iff.mp h
        cases h
        rfl
      · rw [← Option.some.inj h]
    rw [hspi, hfound]

theorem sadbLifetime_get (bs : Bytes) :
    sadbLifetime.get bs =
      ⟨getLE bs 0 16, getLE bs 2 16, getLE bs 4 32, getLE bs 8 64, getLE bs 16 64, getLE bs 24 64⟩ := by
  simp only [sadbLifetime, sadbExt, Codec.iso, Codec.prod, u16, u32, u64, Codec.le, getLE_drop]

theorem replyCounters_eq (r : SadReply) : r.counters = countersAt r.current 0 := by
  simp [SadReply.counters, countersAt, sadbLifetime_get]

/-- The walk over a reply ends. -/
theorem walkRecords_reply (r : SadReply) (post : Bytes) (s : Search) :
    ∃ s', walkRecords (lifetimeVisit (r.msg ++ post)) sadbMsg.size r.exts s = some s' := by
  refine walkRecords_isSome (fun pre e post' h st => ?_) s
  have he : e ∈ r.exts := h ▸ List.mem_append_right _ List.mem_cons_self
  have hlen : 8 ≤ e.length := (r.isMessage.exts.records e he).unit_le
  obtain ⟨before, behind, hmsg, hbefore⟩ := ext_at r.isMessage h
  have hmem : (r.msg ++ post).length = before.length + (e.length + behind.length) + post.length := by
    rw [hmsg, List.length_append, List.length_append, List.length_append]
  rw [← hbefore]
  unfold lifetimeVisit
  split
  · rw [getBE?_eq_some (by omega)]
    simp only [Option.bind_eq_bind, Option.bind_some]
    split <;> rfl
  split
  · rename_i hcurrent
    have hsize : 32 ≤ e.length := by
      obtain rfl : e = r.current :=
        List.inj_on_of_nodup_map r.distinct he r.current_mem (hcurrent.trans r.current_type.symm)
      exact r.current_size
    rw [getLE?_eq_some (by omega), getLE?_eq_some (by omega), getLE?_eq_some (by omega), getLE?_eq_some (by omega)]
    rfl
  · rfl

/-- The walk over a reply. -/
theorem walkExts_reply (r : SadReply) (post : Bytes) (n : SadEntryNode) :
    walkExts (lifetimeVisit (r.msg ++ post)) (r.msg ++ post) PFKEY_BUFFER_SIZE
      ((r.msg.length : Nat) - sadbMsg.size) sadbMsg.size ⟨false, n⟩ =
        some ⟨decide (IsOf n r), withCounters n r.counters⟩ := by
  have hm := r.isMessage
  obtain ⟨s, hs⟩ := walkRecords_reply r post ⟨false, n⟩
  have hnode := walkRecords_field Search.node (fun p n => withCounters n (countersAt (r.msg ++ post) p))
    lifetimeVisit_node r.distinct hs
  have hfound := walkRecords_field (fun s : Search => (s.found, s.node.spi))
    (fun p x => (x.1 || decide ((getBE (r.msg ++ post) (p + 4) 32).setWidth 64 = x.2), x.2))
    lifetimeVisit_found r.distinct hs
  -- both extensions are read where they stand
  obtain ⟨o, before, behind, hloc, hmsg, hbefore⟩ := located hm r.distinct r.current_mem r.current_type
  obtain ⟨o', before', behind', hloc', hmsg', hbefore'⟩ := located hm r.distinct r.sa_mem r.sa_type
  have hcurrent : countersAt (r.msg ++ post) (sadbMsg.size + o) = r.counters := by
    have hsize : 32 ≤ r.current.length := r.current_size
    rw [replyCounters_eq, ← hbefore, hmsg, List.append_assoc, List.append_assoc]
    simp only [countersAt]
    rw [getLE_within _ _ _ (by omega), getLE_within _ _ _ (by omega), getLE_within _ _ _ (by omega),
      getLE_within _ _ _ (by omega)]
  have hspi : getBE (r.msg ++ post) (sadbMsg.size + o' + 4) 32 = r.spi := by
    have hlen : 8 ≤ r.sa.length := (hm.exts.records r.sa r.sa_mem).unit_le
    rw [← hbefore', hmsg', List.append_assoc, List.append_assoc, getBE_within _ _ _ (by omega), SadReply.spi]
  rw [hloc, Option.elim_some, hcurrent] at hnode
  rw [hloc', Option.elim_some, hspi] at hfound
  rw [walkExts_message hm, hs]
  have hf : s.found = decide (IsOf n r) := (Prod.mk.inj hfound).1
  rw [← hf, ← hnode]

/-- The loop at a reply. -/
theorem lifetimeLoop_reply (r : SadReply) (replies : List (Option Bytes)) (buf : Buffer) (n : SadEntryNode) :
    ∃ buf', lifetimeLoop (some r.msg :: replies) buf ⟨false, n⟩ =
      if IsOf n r then some (.ok (), withCounters n r.counters)
      else if msgSeq r.msg = 0 then some (.error .notFound, withCounters n r.counters)
      else lifetimeLoop replies buf' ⟨false, withCounters n r.counters⟩ := by
  have hm := r.isMessage
  have hheader := hm.header
  have hwhole := hm.whole
  have hsize : sadbMsg.size = 16 := rfl
  obtain ⟨buf', post, hread, hbuf⟩ := readInto_message hm.fits buf
  have hget : sadbMsg.get (r.msg ++ post) = sadbMsg.get r.msg := sadbMsg_get_append _ (by omega)
  have hunits : (r.msg.length : Int) = 8 * ((sadbMsg.get r.msg).len.toNat : Int) := by
    rw [← msgUnits_eq]; omega
  have hexts : (r.msg.length : Int) ≠ sadbMsg.size := by
    obtain ⟨pre, post', h⟩ := List.append_of_mem r.sa_mem
    obtain ⟨before, behind, hmsg, hbefore⟩ := ext_at hm h
    have hlen : 8 ≤ r.sa.length := (hm.exts.records r.sa r.sa_mem).unit_le
    have htotal := congrArg List.length hmsg
    rw [List.length_append, List.length_append] at htotal
    omega
  have hseq : msgSeq (r.msg ++ post) = msgSeq r.msg := getLE_append_left post (by omega)
  refine ⟨buf', ?_⟩
  rw [lifetimeLoop, hread]
  simp only [hbuf, hget, ← hunits, r.version, hexts, ne_eq, not_true_eq_false, if_false, walkExts_reply,
    Option.bind_eq_bind, Option.bind_some, hseq, decide_eq_true_eq]
  by_cases hof : IsOf n r
  · rw [if_pos hof, if_pos hof]
    rfl
  · rw [if_neg hof, if_neg hof, decide_eq_false hof]
    rfl

/-! ## A dump -/

/-- What the loop gives at a dump. -/
theorem lifetimeLoop_dump (init : List SadReply) (last : SadReply) (hmore : ∀ r ∈ init, msgSeq r.msg ≠ 0)
    (hdone : msgSeq last.msg = 0) (rest : List (Option Bytes)) (buf : Buffer) (n : SadEntryNode) :
    lifetimeLoop ((init ++ [last]).map (fun r => some r.msg) ++ rest) buf ⟨false, n⟩ =
      some (match (init ++ [last]).find? (IsOf n ·) with
        | some r => (.ok (), withCounters n r.counters)
        | none => (.error .notFound, withCounters n last.counters)) := by
  induction init generalizing buf n with
  | nil =>
    obtain ⟨buf', hloop⟩ := lifetimeLoop_reply last rest buf n
    rw [List.nil_append, List.map_cons, List.map_nil, List.cons_append, List.nil_append, hloop]
    by_cases hof : IsOf n last
    · simp [hof]
    · simp [hof, hdone]
  | cons r init ih =>
    obtain ⟨hr, hmore⟩ := List.forall_mem_cons.mp hmore
    obtain ⟨buf', hloop⟩ := lifetimeLoop_reply r ((init ++ [last]).map (fun r => some r.msg) ++ rest) buf n
    rw [List.cons_append, List.map_cons, List.cons_append, hloop]
    by_cases hof : IsOf n r
    · simp [hof]
    · -- the node goes on with the reply's counters, and the same SPI
      have hspi : ∀ r', decide (IsOf (withCounters n r.counters) r') = decide (IsOf n r') := fun _ => rfl
      rw [if_neg hof, if_neg hr, ih hmore]
      simp only [withCounters_withCounters, hspi, List.find?_cons, decide_eq_false hof]

/-- Reading the current lifetimes of a node gives those of its SA, or an error
and the node as it was, exactly when a reply is about its SA or the last one's
counters are those the node has. -/
theorem current_lifetimes_iff (pid : BitVec 32) (stack : Buffer) (d : SadDump) (rest : List (Option Bytes))
    (n : SadEntryNode) :
    (pfGetSadLifetimeCurrentBySpi (dumpEnv pid stack d rest) n).map (·.2) = some (lookedUp d n) ↔
      (∃ r ∈ d.replies, IsOf n r) ∨ d.last.counters = counters n := by
  have hloop := lifetimeLoop_dump d.init d.last d.more d.done rest stack n
  rw [pfGetSadLifetimeCurrentBySpi, dumpEnv, DumpOf.datagrams, DumpOf.replies, hloop, lookedUp, DumpOf.replies]
  cases hfind : (d.init ++ [d.last]).find? (IsOf n ·) with
  | some r =>
    have hr : IsOf n r := by simpa using List.find?_some hfind
    exact iff_of_true rfl (.inl ⟨r, List.mem_of_find?_eq_some hfind, hr⟩)
  | none =>
    have hnone : ¬∃ r ∈ d.init ++ [d.last], IsOf n r := by
      rintro ⟨r, hr, hof⟩
      exact List.find?_eq_none.mp hfind r hr (decide_eq_true hof)
    have hnode : some ((.error .notFound : Rc), withCounters n d.last.counters) = some (.error .notFound, n) ↔
        withCounters n d.last.counters = n := by simp
    rw [or_iff_right hnone, ← withCounters_eq_iff]
    exact hnode

/-- A reply about one SA. -/
def saReplyExts (spi : BitVec 32) : List Bytes :=
  [sadbSa.put { len := 2, exttype := SADB_EXT_SA, spi := spi },
   sadbLifetime.put {
     len := 4, exttype := SADB_EXT_LIFETIME_CURRENT, allocations := 3, bytes := 1000, addtime := 15, usetime := 16 }]

def saReply : SadReply where
  msg := message { version := PF_KEY_V2, type := SADB_DUMP, satype := SADB_SATYPE_ESP } (saReplyExts 34503).flatten
  exts := saReplyExts 34503
  isMessage := ⟨by decide +kernel, by decide +kernel, by decide +kernel, by decide +kernel, by decide +kernel⟩
  distinct := by decide +kernel
  version := by decide +kernel
  sa := (saReplyExts 34503).head (by decide)
  sa_mem := List.head_mem _
  sa_type := by decide +kernel
  current := (saReplyExts 34503).getLast (by decide)
  current_mem := List.getLast_mem _
  current_type := by decide +kernel
  current_size := by decide +kernel

/-- A dump of that SA alone. -/
def saDump : SadDump := ⟨[], saReply, nofun, by decide +kernel⟩

/-- The kernel has one SA, whose SPI is not that of the node: its counters are
in the node of which there is no SA. -/
theorem current_lifetimes_other :
    (pfGetSadLifetimeCurrentBySpi (dumpEnv 7 .zeros saDump [])
        { (default : SadEntryNode) with spi := 34502 }).map (fun r => (r.2.1, counters r.2.2)) =
      some (.error .notFound, ⟨3, 1000, 15, 16⟩) ∧
    (pfGetSadLifetimeCurrentBySpi (dumpEnv 7 .zeros saDump [])
        { (default : SadEntryNode) with spi := 34502 }).map (·.2) ≠
      some (lookedUp saDump { (default : SadEntryNode) with spi := 34502 }) :=
  ⟨by decide +kernel, by decide +kernel⟩

end CfgIpsec.Proof
