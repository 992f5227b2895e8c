import CfgIpsec.Framework.Run
import CfgIpsec.Proof.Entries
import CfgIpsec.Proof.Expire
import CfgIpsec.Proof.Settings
import CfgIpsec.Spec.Identity
import CfgIpsec.Spec.Lookup

/-!
# Entries that an expiry is about

The reader keeps an SPI as the `uint32` it is, the thread takes it for an `int`:
they agree below 2^31 (`spi_lookup`). An expiry of an SA that is not listed ends
in a missing node when it is a hard one and sysrepo can be reached
(`expire_unknown`). An entry's own expiry leads to it when no other entry with
its SPI stands before it (`expire_requests`).
-/

namespace CfgIpsec.Proof

open Impl Spec Tlv Run
open CStr (lit)

/-! ## The SPI of an entry -/

theorem sadSchema_spi : sadSchema.all (fun node => nodeLeaf node = some .spi ↔ node = spiNode) = true := by
  decide +kernel

theorem nodeLeaf_eq_spi_iff (s : Setting) : nodeLeaf s.node = some .spi ↔ s.node = spiNode := by
  simpa using List.all_eq_true.mp sadSchema_spi s.node s.mem

theorem store_spi {leaf : SadLeaf} {has : CStr → Bool} {d : SrData} {n m : SadEntryNode} (hl : leaf ≠ .spi)
    (h : leaf.store has d n = some (.next m)) : m.spi = n.spi := by
  have hw := store_writes h
  cases leaf
  case spi => exact absurd rfl hl
  case start | key | time | bytes | packets | idle =>
    obtain ⟨x, y, rfl⟩ := hw
    rfl
  all_goals
    obtain ⟨x, rfl⟩ := hw
    rfl

/-- The reader keeps an SPI without a sign. -/
theorem stores_setWidth (spi : BitVec 32) : Stores spi (spi.setWidth 64) := by
  rintro malloc name entry d hd rfl
  have hne : entry ≠ [] := by
    rintro rfl
    cases hd
  obtain ⟨n, hn, hread⟩ := readSettings_eq malloc name hne
  refine ⟨n, hread, ?_⟩
  rw [readSettings_valueAt (·.spi) (fun d => d.uint32Val.setWidth 64) nodeLeaf_eq_spi_iff store_spi
    (fun hs => by cases hs; rfl) hn, hd, Option.map_some, Option.getD_some]

/-- The SPI of a node is a `uint32`. -/
def HasSpi32 (n : SadEntryNode) : Prop := n.spi.toNat < 2 ^ 32

instance (n : SadEntryNode) : Decidable (HasSpi32 n) := inferInstanceAs (Decidable (_ < _))

theorem store_spi32 {leaf : SadLeaf} {has : CStr → Bool} {d : SrData} {n : SadEntryNode} {r : Stored SadEntryNode}
    (h : leaf.store has d n = some r) (hn : HasSpi32 n) : HasSpi32 (Stored.node r) := by
  rcases r with m | m
  · by_cases hl : leaf = .spi
    · subst hl
      cases h
      change (d.uint32Val.setWidth 64).toNat < 2 ^ 32
      rw [BitVec.toNat_setWidth]
      have := d.uint32Val.isLt
      omega
    · exact (congrArg (·.toNat) (store_spi hl h)).trans_lt hn
  · obtain ⟨-, -, -, rfl⟩ := store_rejects h
    exact hn

theorem readSadValue_spi32 (v : SrVal) (n : SadEntryNode) (r : Stored SadEntryNode) (h : readSadValue v n = some r)
    (hn : HasSpi32 n) : HasSpi32 (Stored.node r) := by
  obtain ⟨name, -, h⟩ := Option.bind_eq_some_iff.mp h
  split at h
  · exact store_spi32 h hn
  · cases h; exact hn

theorem readSadEntry_spi32 {it it' : SrChangeIter} {xpath : CStr} {n m : SadEntryNode} {rc : Rc}
    (h : readSadEntry it xpath n = some (rc, it', m)) (hn : HasSpi32 n) : HasSpi32 m := by
  rw [readSadEntry] at h
  split at h
  · cases h; exact hn
  · obtain ⟨⟨it₀, r⟩, hloop, h⟩ := Option.bind_eq_some_iff.mp h
    have hr := readLoop_keeps readSadValue_spi32 hloop hn
    rcases r with m | m <;> cases h <;> exact hr

/-- In every run the SPIs of the list are `uint32`s. -/
theorem sad_spis {ops : List SadOp} {s : Store SadEntryNode} (h : run SadOp.step ops emptyStore = some s) :
    ∀ n ∈ s.entries, HasSpi32 n := by
  refine run_fold (f := fun _ _ => ()) (R := fun _ s => ∀ n ∈ s.entries, HasSpi32 n) (t := ()) ?_
    (by simp [emptyStore]) h
  intro _ s op s' hs hstep
  cases op with
  | add e it xpath x =>
    obtain ⟨⟨rc, it', s₁⟩, hadd, rfl⟩ := Option.map_eq_some_iff.mp hstep
    rcases addSadEntry_cases hadd with ⟨-, -, -, -, rfl⟩ | ⟨node, add, get, hread, -, -, -, rfl⟩
    · exact hs
    · refine List.forall_mem_append.mpr ⟨hs, ?_⟩
      rw [List.forall_mem_singleton]
      exact readSadEntry_spi32 hread (by decide : (0 : BitVec 64).toNat < 2 ^ 32)
  | remove e x =>
    obtain ⟨⟨rc, s₁⟩, hrem, rfl⟩ := Option.map_eq_some_iff.mp hstep
    rcases removeSadEntry_cases hrem with ⟨-, -, rfl⟩ | ⟨pre, n, post, get, del, -, heq, -, -, -, -, -, rfl⟩
    · exact hs
    · rw [heq, List.forall_mem_append, List.forall_mem_cons] at hs
      exact List.forall_mem_append.mpr ⟨hs.1, hs.2.2⟩

/-! ## Turns at an expiry -/

theorem handleExpiry_eq (t : Turn) (rc : Rc) (x : Expiry) :
    handleExpiry t rc x = expiredAs (x.spi.signExtend 64) t rc x.hard := rfl

/-- What a turn does with an expiry. -/
theorem step_expires {t : Turn} {x : Expiry} (h : Expires t x) (s : Thread) :
    ∃ buf : Buffer, s.step t = (printing s t).bind fun _ =>
      (expiredAs (x.spi.signExtend 64) t s.rc x.hard).map fun r => (⟨r.1, buf⟩, r.2) := by
  obtain ⟨msg, rs, ht, hm, hty, rfl⟩ := h
  obtain ⟨buf, hs⟩ := step_message ht hm s
  have hacq : msgType msg ≠ SADB_ACQUIRE := by rw [hty]; decide
  exact ⟨buf, by rw [hs, if_neg hacq, if_pos hty, handleExpiry_eq]⟩

/-- The thread looks an SPI up with a sign. -/
theorem looksUp_signExtend (spi : BitVec 32) : LooksUp spi (spi.signExtend 64) := by
  intro t s hard h
  obtain ⟨buf, hs⟩ := step_expires h s
  rw [hs, Option.map_bind]
  refine Option.bind_congr fun _ _ => ?_
  rw [Function.comp_apply, Option.map_map]
  exact Option.map_id'

/-- An expiry is printed when the message can be. -/
theorem printed_expires {t : Turn} {x : Expiry} (h : Expires t x) (hsized : WellSized t) (s : Thread) :
    (printing s t).isSome ↔ Printable t := by
  obtain ⟨msg, rs, ht, hm, -, -⟩ := h
  rw [printing_isSome_iff ht (hsized msg rs ht hm), printable_iff ht hm]

/-- What a turn does with an expiry that is printed. -/
theorem step_printed {t : Turn} {x : Expiry} (h : Expires t x) {s : Thread} (hp : (printing s t).isSome) :
    ∃ buf : Buffer, s.step t =
      (expiredAs (x.spi.signExtend 64) t s.rc x.hard).map fun r => (⟨r.1, buf⟩, r.2) := by
  obtain ⟨buf, hs⟩ := step_expires h s
  obtain ⟨u, hprinted⟩ := Option.isSome_iff_exists.mp hp
  exact ⟨buf, by rw [hs, hprinted, Option.bind_some]⟩

/-- An expiry that is not printed ends the thread. -/
theorem step_unprinted {t : Turn} {x : Expiry} (h : Expires t x) {s : Thread} (hp : ¬(printing s t).isSome) :
    s.step t = none := by
  obtain ⟨buf, hs⟩ := step_expires h s
  rw [hs, Option.not_isSome_iff_eq_none.mp hp, Option.bind_none]

theorem signExtend_eq_setWidth_iff (spi : BitVec 32) : spi.signExtend 64 = spi.setWidth 64 ↔ spi.toNat < 2 ^ 31 := by
  constructor
  · intro h
    by_contra hge
    have hmsb : spi.msb = true := by
      rw [BitVec.msb_eq_true_iff_two_mul_ge]
      omega
    have hnat := congrArg BitVec.toNat h
    rw [BitVec.toNat_signExtend, hmsb, BitVec.toNat_setWidth, if_pos rfl] at hnat
    omega
  · intro h
    refine BitVec.signExtend_eq_setWidth_of_msb_false ?_
    rw [BitVec.msb_eq_false_iff_two_mul_lt]
    omega

theorem setWidth_signExtend (spi : BitVec 32) : (spi.signExtend 64).setWidth 32 = spi := by
  rw [← BitVec.toNat_inj, BitVec.toNat_setWidth, BitVec.toNat_signExtend, BitVec.toNat_setWidth]
  have := spi.isLt
  split <;> omega

theorem finds_iff (key stored : BitVec 64) : Finds key stored ↔ stored = key := by
  constructor
  · intro h
    obtain ⟨n, hn, hspi⟩ := h [{ (default : SadEntryNode) with spi := stored }] ⟨_, List.mem_singleton_self _, rfl⟩
    have hkey : n.spi = key := by simpa using List.find?_some hn
    exact hspi.symm.trans hkey
  · rintro rfl sad ⟨n, hn, hspi⟩
    have hsome : (getSadNodeBySpi sad stored).isSome = true := by
      rw [getSadNodeBySpi, List.find?_isSome]
      exact ⟨n, hn, by simpa using hspi⟩
    obtain ⟨m, hm⟩ := Option.isSome_iff_exists.mp hsome
    exact ⟨m, hm, by simpa using List.find?_some hm⟩

/-- What the reader keeps of an SPI is what the thread looks up for it, and
finds its entries, exactly below 2^31. -/
theorem spi_lookup (spi : BitVec 32) :
    Stores spi (spi.setWidth 64) ∧ LooksUp spi (spi.signExtend 64) ∧
      (spi.setWidth 64 = spi.signExtend 64 ↔ spi.toNat < 2 ^ 31) ∧
      (Finds (spi.signExtend 64) (spi.setWidth 64) ↔ spi.toNat < 2 ^ 31) := by
  have hiff : spi.setWidth 64 = spi.signExtend 64 ↔ spi.toNat < 2 ^ 31 :=
    eq_comm.trans (signExtend_eq_setWidth_iff spi)
  exact ⟨stores_setWidth spi, looksUp_signExtend spi, hiff, (finds_iff _ _).trans hiff⟩

/-- An SPI of an entry. -/
def spiSetting (spi : BitVec 64) (h : (YangType.uint 32).admits ⟨spi, none⟩ = true) : Setting :=
  configSetting [.child (lit "spi")] (.uint 32) ⟨spi, none⟩ (by decide +kernel) h

/-- A soft expiry of the SPI 2^31, with the lifetime extension, is not found to
be that of the entry which the reader makes for it. -/
theorem spi_lookup_high :
    ∃ n, readSettings default (lit "gw") [spiSetting 0x80000000 (by decide)] = some (.ok (), [], n) ∧
      n.spi = 0x80000000 ∧ getSadNodeBySpi [n] ((0x80000000 : BitVec 32).signExtend 64) = none ∧
      (Thread.step { expireTurn 0x80000000 SADB_EXT_LIFETIME_SOFT with sad := [n] } (.start .zeros)).map (·.2) =
        some [] := by
  have hrun : (readSettings default (lit "gw") [spiSetting 0x80000000 (by decide)]).any (fun r =>
      r.1 = .ok () ∧ r.2.1 = [] ∧ r.2.2.spi = 0x80000000 ∧
        getSadNodeBySpi [r.2.2] ((0x80000000 : BitVec 32).signExtend 64) = none ∧
        (Thread.step { expireTurn 0x80000000 SADB_EXT_LIFETIME_SOFT with sad := [r.2.2] } (.start .zeros)).map
          (·.2) = some []) = true := by decide +kernel
  obtain ⟨⟨rc, it, n⟩, hread, h⟩ := (Option.any_eq_true _ _).mp hrun
  obtain ⟨rfl, rfl, hspi, hnone, hstep⟩ := of_decide_eq_true h
  exact ⟨n, hread, hspi, hnone, hstep⟩

/-! ## Expiries of SAs that are not listed -/

/-- An SPI that no entry has on the wire is not found. -/
theorem getSadNodeBySpi_unknown {sad : List SadEntryNode} {spi : BitVec 32}
    (h : ∀ n ∈ sad, n.spi.setWidth 32 ≠ spi) : getSadNodeBySpi sad (spi.signExtend 64) = none := by
  rw [getSadNodeBySpi, List.find?_eq_none]
  intro n hn hspi
  refine h n hn ?_
  rw [of_decide_eq_true hspi, setWidth_signExtend]

/-- Without an entry there is no notification. -/
theorem sendSaExpireNotification_unknown {e : NotifyEnv} {sad : List SadEntryNode} {key : BitVec 64}
    (h : getSadNodeBySpi sad key = none) (soft : Bool) : (sendSaExpireNotification e sad key soft).2 = [] := by
  rw [sendSaExpireNotification, h]
  split <;> rfl

/-- Without an entry the deletion ends when sysrepo cannot be reached. -/
theorem sendDeleteSadRequest_unknown {e : DeleteEnv} {sad : List SadEntryNode} {key : BitVec 64}
    (h : getSadNodeBySpi sad key = none) :
    sendDeleteSadRequest e sad key = if e.connect = .ok () ∧ e.start = .ok () then none else some [] := by
  rw [sendDeleteSadRequest, h]
  rcases e.connect with err | u <;> rcases e.start with err | u <;> simp

/-- What follows on the expiry of an SA that is not listed. -/
theorem harmless_unknown {t : Turn} {x : Expiry} (hu : ∀ n ∈ t.sad, n.spi.setWidth 32 ≠ x.spi) (rc : Rc) (buf : Buffer) :
    Harmless ((expiredAs (x.spi.signExtend 64) t rc x.hard).map fun r => (⟨r.1, buf⟩, r.2)) ↔
      ¬(x.hard = true ∧ rc = .ok () ∧ t.delete.connect = .ok () ∧ t.delete.start = .ok ()) := by
  have hnone := getSadNodeBySpi_unknown hu
  have hnotify := fun soft => sendSaExpireNotification_unknown (e := t.notify) hnone soft
  have hquiet : ∀ r : Rc × List Action, r.2 = [] → Harmless ((some r).map fun r => (⟨r.1, buf⟩, r.2)) :=
    fun r hr => ⟨_, _, rfl, by simp [hr]⟩
  rw [expiredAs]
  by_cases hhard : x.hard = true
  · rw [if_pos hhard]
    by_cases hrc : rc = .ok ()
    · rw [if_pos hrc, sendDeleteSadRequest_unknown hnone]
      by_cases hsys : t.delete.connect = .ok () ∧ t.delete.start = .ok ()
      · rw [if_pos hsys]
        refine iff_of_false ?_ (not_not_intro ⟨hhard, hrc, hsys⟩)
        rintro ⟨s', acts, h, -⟩
        cases h
      · rw [if_neg hsys]
        exact iff_of_true (hquiet _ ((List.append_nil _).trans (hnotify false))) fun h => hsys h.2.2
    · rw [if_neg hrc]
      exact iff_of_true (hquiet _ rfl) fun h => hrc h.2.1
  · rw [if_neg hhard]
    exact iff_of_true (hquiet _ (hnotify true)) fun h => hhard h.1

/-- An expiry of an SA that is not listed is harmless when it can be printed,
unless it is a hard one, the last notification succeeded and sysrepo can be
reached: then the entry that is not there is used. -/
theorem expire_unknown {t : Turn} {x : Expiry} (hx : Expires t x) (hsized : WellSized t)
    (hu : ∀ n ∈ t.sad, n.spi.setWidth 32 ≠ x.spi) (s : Thread) :
    Harmless (s.step t) ↔
      Printable t ∧ ¬(x.hard = true ∧ s.rc = .ok () ∧ t.delete.connect = .ok () ∧ t.delete.start = .ok ()) := by
  rw [← printed_expires hx hsized s]
  by_cases hp : (printing s t).isSome
  · obtain ⟨buf, hs⟩ := step_printed hx hp
    rw [and_iff_right hp, hs]
    exact harmless_unknown hu s.rc buf
  · rw [step_unprinted hx hp]
    refine iff_of_false ?_ fun h => hp h.1
    rintro ⟨s', acts, h, -⟩
    cases h

theorem wellSized_of {t : Turn} {msg : Bytes} {rs : List Bytes} (ht : t.datagram = some msg) (hm : IsSized msg rs) :
    WellSized t := by
  intro msg' rs' ht' hm'
  obtain rfl : msg = msg' := Option.some.inj (ht.symm.trans ht')
  exact isSized_of_eq hm hm'

/-- An expiry of the SPI 34502, with a current lifetime. -/
def currentExts (type : BitVec 16) (addtime : BitVec 64) : List Bytes :=
  expireExts 34502 type ++ [sadbLifetime.put ⟨4, SADB_EXT_LIFETIME_CURRENT, 0, 0, addtime, 0⟩]

/-- A turn at that expiry, with an empty list. -/
def unlistedTurn (type : BitVec 16) (addtime : BitVec 64) : Turn :=
  { expireTurn 34502 type with
    datagram := some (message { version := PF_KEY_V2, type := SADB_EXPIRE, satype := SADB_SATYPE_ESP }
      (currentExts type addtime).flatten)
    sad := [] }

/-- The soft expiry of an SA that is not listed, with an empty list. -/
theorem expire_unknown_soft : Harmless ((Thread.start .zeros).step (unlistedTurn SADB_EXT_LIFETIME_SOFT 1700000000)) := by
  have hm : IsMessage (message { version := PF_KEY_V2, type := SADB_EXPIRE, satype := SADB_SATYPE_ESP }
      (currentExts SADB_EXT_LIFETIME_SOFT 1700000000).flatten) (currentExts SADB_EXT_LIFETIME_SOFT 1700000000) :=
    ⟨by decide +kernel, by decide +kernel, by decide +kernel, by decide +kernel, by decide +kernel⟩
  have hx : Expires (unlistedTurn SADB_EXT_LIFETIME_SOFT 1700000000) ⟨34502, false⟩ :=
    ⟨_, _, rfl, hm, by decide +kernel, by decide +kernel⟩
  have hprints : ∀ e ∈ currentExts SADB_EXT_LIFETIME_SOFT 1700000000, TimesPrint (fun _ => 0) e := by decide +kernel
  exact (expire_unknown hx (wellSized_of rfl ⟨hm, by decide +kernel⟩) (List.forall_mem_nil _) _).mpr
    ⟨(printable_iff rfl hm).mpr fun _ => hprints, fun h => by cases h.1⟩

/-- The hard expiry of an SA that is not listed, with an empty list, uses a
missing node; the soft one of an SA added at the end of time is not printed. -/
theorem expire_unknown_hard :
    (Thread.start .zeros).step { expireTurn 34502 SADB_EXT_LIFETIME_HARD with sad := [] } = none ∧
      ¬Harmless ((Thread.start .zeros).step { expireTurn 34502 SADB_EXT_LIFETIME_HARD with sad := [] }) ∧
      ¬Harmless ((Thread.start .zeros).step (unlistedTurn SADB_EXT_LIFETIME_SOFT 0x7fffffffffffffff)) := by
  have hstep : (Thread.start .zeros).step { expireTurn 34502 SADB_EXT_LIFETIME_HARD with sad := [] } = none := by
    decide +kernel
  have hsoft : (Thread.start .zeros).step (unlistedTurn SADB_EXT_LIFETIME_SOFT 0x7fffffffffffffff) = none := by
    decide +kernel
  refine ⟨hstep, ?_, ?_⟩
  · rw [hstep]
    rintro ⟨s, acts, h, -⟩
    cases h
  · rw [hsoft]
    rintro ⟨s, acts, h, -⟩
    cases h

/-! ## Expiries of entries -/

/-- What follows on an expiry when every call succeeds. -/
theorem expiredAs_reachable {t : Turn} (ht : Reachable t) {key : BitVec 64} (rc : Rc) {hard : Bool} :
    (expiredAs key t rc hard).map (·.2) =
      match getSadNodeBySpi t.sad key with
      | some m => if hard = true ∧ rc ≠ .ok () then some [] else if hard = true ∧ ¬PathFits m.name then none
        else some (requestsFor m hard)
      | none => if hard = true ∧ rc = .ok () then none else some [] := by
  rw [expiredAs, sendSaExpireNotification, sendSaExpireNotification, sendDeleteSadRequest, ht.notify, ht.delete]
  cases hard
  · cases getSadNodeBySpi t.sad key <;> rfl
  · by_cases hrc : rc = .ok ()
    · cases hn : getSadNodeBySpi t.sad key with
      | none => simp [hrc]
      | some m =>
        by_cases hp : PathFits m.name
        · simp [hrc, hp, deleteXpath_eq hp, requestsFor]
        · simp [hrc, hp, deleteXpath_eq_none hp]
    · cases hn : getSadNodeBySpi t.sad key <;> simp [hrc]

/-- What an SPI from 2^31 on is looked up by is no SPI. -/
theorem getSadNodeBySpi_high {sad : List SadEntryNode} {spi : BitVec 32} (h : 2 ^ 31 ≤ spi.toNat)
    (hspis : ∀ m ∈ sad, m.spi.toNat < 2 ^ 32) : getSadNodeBySpi sad (spi.signExtend 64) = none := by
  rw [getSadNodeBySpi, List.find?_eq_none]
  intro m hm hspi
  have hlt := hspis m hm
  have hmsb : spi.msb = true := by
    rw [BitVec.msb_eq_true_iff_two_mul_ge]
    omega
  rw [of_decide_eq_true hspi, BitVec.toNat_signExtend, hmsb, if_pos rfl] at hlt
  omega

theorem requestsFor_inj {n m : SadEntryNode} {hard : Bool} :
    requestsFor m hard = requestsFor n hard ↔ m.name = n.name := by
  constructor
  · intro h
    have hhead := congrArg List.head? h
    simpa [requestsFor] using hhead
  · intro h
    rw [requestsFor, requestsFor, h]

/-- What follows on the expiry of an entry's SA. -/
theorem expiredAs_requests {t : Turn} {n : SadEntryNode} {hard : Bool} (ht : Reachable t) (hn : n ∈ t.sad)
    (hspis : ∀ m ∈ t.sad, HasSpi32 m) (rc : Rc) :
    (expiredAs ((n.spi.setWidth 32).signExtend 64) t rc hard).map (·.2) = some (requestsFor n hard) ↔
      n.spi.toNat < 2 ^ 31 ∧ (getSadNodeBySpi t.sad n.spi).map (·.name) = some n.name ∧
        (hard = true → rc = .ok () ∧ PathFits n.name) := by
  have hne : requestsFor n hard ≠ [] := by simp [requestsFor]
  have hwidth : (n.spi.setWidth 32).setWidth 64 = n.spi := by
    have hlt : n.spi.toNat < 2 ^ 32 := hspis n hn
    rw [← BitVec.toNat_inj, BitVec.toNat_setWidth, BitVec.toNat_setWidth]
    omega
  rw [expiredAs_reachable ht]
  by_cases hlt : n.spi.toNat < 2 ^ 31
  · have hkey : (n.spi.setWidth 32).signExtend 64 = n.spi := by
      rw [(signExtend_eq_setWidth_iff _).mpr (by rw [BitVec.toNat_setWidth]; omega), hwidth]
    obtain ⟨m, hm, -⟩ := (finds_iff n.spi n.spi).mpr rfl t.sad ⟨n, hn, rfl⟩
    rw [hkey, hm]
    by_cases hrc : hard = true ∧ rc ≠ .ok ()
    · refine iff_of_false ?_ fun h => hrc.2 (h.2.2 hrc.1).1
      simpa [hrc] using hne.symm
    have hok : hard = true → rc = .ok () := fun h => by_contra fun hrc' => hrc ⟨h, hrc'⟩
    by_cases hpath : hard = true ∧ ¬PathFits m.name
    · refine iff_of_false (by simp [hok hpath.1, hpath]) fun h => hpath.2 ?_
      have hname : m.name = n.name := by simpa using h.2.1
      rw [hname]
      exact (h.2.2 hpath.1).2
    · have hfits : hard = true → PathFits m.name := fun h => by_contra fun hp => hpath ⟨h, hp⟩
      simp only [if_neg hrc, if_neg hpath, Option.some_inj, requestsFor_inj, hlt, Option.map_some, true_and]
      exact ⟨fun h => ⟨h, fun hh => ⟨hok hh, h ▸ hfits hh⟩⟩, And.left⟩
  · have hhigh : 2 ^ 31 ≤ (n.spi.setWidth 32).toNat := by
      have := hspis n hn
      rw [BitVec.toNat_setWidth, Nat.mod_eq_of_lt this]
      omega
    rw [getSadNodeBySpi_high hhigh hspis]
    refine iff_of_false ?_ fun h => hlt h.1
    by_cases hrc : hard = true ∧ rc = .ok ()
    · simp [hrc]
    · simpa [hrc] using hne.symm

/-- The expiry of an entry's SA leads to the notification and, when it is a
hard one, the deletion of that entry, exactly when it can be printed, an `int`
holds the SPI, the first entry with the SPI has its name, no failed
notification keeps a hard expiry from being handled and the path to delete the
entry fits. -/
theorem expire_requests {t : Turn} {n : SadEntryNode} {hard : Bool} (ht : Reachable t)
    (hx : Expires t ⟨n.spi.setWidth 32, hard⟩) (hsized : WellSized t) (hn : n ∈ t.sad) (hspis : ∀ m ∈ t.sad, HasSpi32 m)
    (s : Thread) :
    (s.step t).map (·.2) = some (requestsFor n hard) ↔
      Printable t ∧ n.spi.toNat < 2 ^ 31 ∧ (getSadNodeBySpi t.sad n.spi).map (·.name) = some n.name ∧
        (hard = true → s.rc = .ok () ∧ PathFits n.name) := by
  rw [← printed_expires hx hsized s]
  by_cases hp : (printing s t).isSome
  · obtain ⟨buf, hs⟩ := step_printed hx hp
    rw [and_iff_right hp, hs, Option.map_map, ← expiredAs_requests ht hn hspis s.rc]
    rfl
  · rw [step_unprinted hx hp]
    exact iff_of_false (fun h => (by cases h)) fun h => hp h.1

/-- An entry of the SPI 34502 to a remote address. -/
def gateway (name remote : String) : SadEntryNode :=
  { (default : SadEntryNode) with
    name := lit name, spi := 34502, localSubnet := lit "10.0.0.1/32", remoteSubnet := lit remote ++ lit "/32" }

/-- The extensions of a hard expiry of the SA to a remote address. -/
def gatewayExts (remote : String) : List Bytes :=
  expireExts 34502 SADB_EXT_LIFETIME_HARD ++
    [sadbAddress.put (address 0 SADB_EXT_ADDRESS_SRC 0 32 0 (lit "10.0.0.1")),
      sadbAddress.put (address 0 SADB_EXT_ADDRESS_DST 0 32 0 (lit remote))]

/-- The message of that expiry. -/
def gatewayMessage (remote : String) : Bytes :=
  message { version := PF_KEY_V2, type := SADB_EXPIRE, satype := SADB_SATYPE_ESP } (gatewayExts remote).flatten

/-- A turn at that expiry, when two entries have the SPI. -/
def gatewayTurn (remote : String) : Turn where
  datagram := some (gatewayMessage remote)
  sad := [gateway "a" "10.0.1.1", gateway "b" "10.0.2.1"]
  notify := ⟨true, true, true, .ok ()⟩
  delete := ⟨.ok (), .ok (), .ok ()⟩
  zone := fun _ => 0

/-- The expiry of the first one leads to it. -/
theorem expire_requests_first :
    ((Thread.start .zeros).step (gatewayTurn "10.0.1.1")).map (·.2) =
      some (requestsFor (gateway "a" "10.0.1.1") true) := by
  have hm : IsMessage (gatewayMessage "10.0.1.1") (gatewayExts "10.0.1.1") :=
    ⟨by decide +kernel, by decide +kernel, by decide +kernel, by decide +kernel, by decide +kernel⟩
  have hx : Expires (gatewayTurn "10.0.1.1") ⟨(gateway "a" "10.0.1.1").spi.setWidth 32, true⟩ :=
    ⟨_, _, rfl, hm, by decide +kernel, by decide +kernel⟩
  have hprints : ∀ e ∈ gatewayExts "10.0.1.1", TimesPrint (fun _ => 0) e := by decide +kernel
  have hspis : ∀ m ∈ (gatewayTurn "10.0.1.1").sad, HasSpi32 m := by
    simp only [gatewayTurn, List.forall_mem_cons, List.not_mem_nil, false_implies, implies_true, and_true]
    exact ⟨by decide, by decide⟩
  exact (expire_requests ⟨rfl, rfl⟩ hx (wellSized_of rfl ⟨hm, by decide +kernel⟩) (List.mem_cons_self ..) hspis _).mpr
    ⟨(printable_iff rfl hm).mpr fun _ => hprints, by decide, by decide +kernel, fun _ => ⟨rfl, by decide +kernel⟩⟩

/-- The expiry of the second one leads to the first. -/
theorem expire_requests_second :
    (∃ msg, (gatewayTurn "10.0.2.1").datagram = some msg ∧
      (decode sadbSa msg SADB_EXT_SA).map (·.spi) = some 34502 ∧
      (decode sadbAddress msg SADB_EXT_ADDRESS_DST).map (·.sockaddr.addr) = some (inetAddr (lit "10.0.2.1"))) ∧
    ((Thread.start .zeros).step (gatewayTurn "10.0.2.1")).map (·.2) =
      some (requestsFor (gateway "a" "10.0.1.1") true) ∧
    requestsFor (gateway "a" "10.0.1.1") true ≠ requestsFor (gateway "b" "10.0.2.1") true := by
  refine ⟨⟨_, rfl, by decide +kernel, by decide +kernel⟩, by decide +kernel, ?_⟩
  rw [Ne, requestsFor_inj]
  decide +kernel

end CfgIpsec.Proof
