import CfgIpsec.Proof.Host
import CfgIpsec.Proof.Kernel
import CfgIpsec.Proof.Thread
import CfgIpsec.Spec.Loop

/-!
# The kernel follows, and is followed

While every entry has an SPI of its own, the entry whose SA the kernel drops is
the one that the thread finds, and what is sent to delete its SA is about no
other, whether the kernel accepts it or not (`mirrors_retires`): the kernel and
the list have the same SAs again.
-/

namespace CfgIpsec.Proof

open Impl Spec Run Tables
open CStr (lit)

/-! ## SPIs -/

/-- Every entry has an SPI of its own, of 32 bits, and can be deleted. -/
structure OwnSpis (entries : List SadEntryNode) : Prop where
  nodup : (entries.map (·.spi)).Nodup
  fits : ∀ n ∈ entries, HasSpi32 n
  retirable : ∀ n ∈ entries, Retirable n

theorem OwnSpis.sublist {entries entries' : List SadEntryNode} (h : OwnSpis entries) (hs : entries'.Sublist entries) :
    OwnSpis entries' :=
  ⟨h.nodup.sublist (hs.map _), fun n hn => h.fits n (hs.subset hn), fun n hn => h.retirable n (hs.subset hn)⟩

/-- Of different entries the SPIs differ also in the messages. -/
theorem OwnSpis.unique {entries : List SadEntryNode} (h : OwnSpis entries) {m n : SadEntryNode} (hm : m ∈ entries)
    (hn : n ∈ entries) (heq : m.spi.setWidth 32 = n.spi.setWidth 32) : m = n := by
  have hnat := congrArg BitVec.toNat heq
  rw [BitVec.toNat_setWidth, BitVec.toNat_setWidth, Nat.mod_eq_of_lt (h.fits m hm), Nat.mod_eq_of_lt (h.fits n hn)] at hnat
  exact List.inj_on_of_nodup_map h.nodup hm hn (BitVec.eq_of_toNat_eq hnat)

theorem ownSpis_step {s s' : Store SadEntryNode} {op : SadOp} (h : OwnSpis s.entries) (ho : op.SpiFree s.entries)
    (hs : op.step s = some s') : OwnSpis s'.entries := by
  cases op with
  | add e it xpath x =>
    obtain ⟨⟨rc, it', s₁⟩, hadd, rfl⟩ := Option.map_eq_some_iff.mp hs
    rcases addSadEntry_cases hadd with ⟨err, node, -, -, rfl⟩ | ⟨node, add, get, hread, -, hget, -, rfl⟩
    · exact h
    · obtain ⟨hnew, hdel⟩ := ho it' node hread
      -- The SA was asked for already, as it is when it is deleted.
      have hretirable : Retirable node := ⟨hdel, sadRequest_isSome_iff.mp (Option.isSome_of_mem hget)⟩
      have hspi : HasSpi32 node := readSadEntry_spi32 hread (by decide : (0 : BitVec 64).toNat < 2 ^ 32)
      refine ⟨?_, ?_, ?_⟩
      · rw [List.map_append, List.map_singleton]
        refine h.nodup.append (List.nodup_singleton _) fun spi hspi hmem => ?_
        obtain ⟨m, hm, rfl⟩ := List.mem_map.mp hspi
        exact hnew m hm (List.mem_singleton.mp hmem)
      · exact List.forall_mem_append.mpr ⟨h.fits, List.forall_mem_singleton.mpr hspi⟩
      · exact List.forall_mem_append.mpr ⟨h.retirable, List.forall_mem_singleton.mpr hretirable⟩
  | remove e x =>
    obtain ⟨⟨rc, s₁⟩, hrem, rfl⟩ := Option.map_eq_some_iff.mp hs
    rcases removeSadEntry_cases hrem with ⟨-, -, rfl⟩ | ⟨pre, n, post, get, del, -, he, -, -, -, -, -, rfl⟩
    · exact h
    · rw [he] at h
      exact h.sublist ((List.sublist_cons_self n post).append_left pre)

/-! ## SAs that the kernel drops -/

section Kernel

variable {τ : Type} {K : SaKernel τ}

theorem sentSince_append {st : τ} {s s' : Store SadEntryNode} {msgs : List Bytes} (h : s'.sent = s.sent ++ msgs) :
    sentSince K st s s' = K.after st msgs := by
  rw [sentSince, h, List.drop_left]

theorem sentSince_self (st : τ) (s : Store SadEntryNode) : sentSince K st s s = st :=
  sentSince_append (List.append_nil _).symm

theorem spi_saWanted (n : SadEntryNode) : (saWanted n).key.spi = n.spi.setWidth 32 := by
  rw [saWanted]
  split <;> rfl

/-- An SA of the kernel is that of an entry. -/
theorem entry_of_key {t : Table SaKey SaRule} {entries : List SadEntryNode} (h : Mirrors saRows t entries) {k : SaKey}
    (hk : (t k).isSome) : ∃ n ∈ entries, k = (saWanted n).key := by
  obtain ⟨r, hr⟩ := Option.isSome_iff_exists.mp hk
  obtain ⟨n, hn, hrow⟩ := List.mem_flatMap.mp ((h.mem_iff k r).mp hr)
  exact ⟨n, hn, congrArg Prod.fst (List.mem_singleton.mp hrow)⟩

/-- An SA of the kernel with the SPI of an entry is that of the entry. -/
theorem key_of_spi {t : Table SaKey SaRule} {entries : List SadEntryNode} (h : Mirrors saRows t entries)
    (ho : OwnSpis entries) {k : SaKey} (hk : (t k).isSome) {n : SadEntryNode} (hn : n ∈ entries)
    (hspi : k.spi = n.spi.setWidth 32) : k = (saWanted n).key := by
  obtain ⟨m, hm, rfl⟩ := entry_of_key h hk
  rw [spi_saWanted] at hspi
  rw [ho.unique hm hn hspi]

/-- The list has an entry with the SPI of an SA of the kernel. -/
theorem listed_of_key {t : Table SaKey SaRule} {entries : List SadEntryNode} (h : Mirrors saRows t entries)
    (ho : OwnSpis entries) {k : SaKey} (hk : (t k).isSome) : ∃ n ∈ entries, n.spi = k.spi.setWidth 64 := by
  obtain ⟨n, hn, rfl⟩ := entry_of_key h hk
  refine ⟨n, hn, BitVec.eq_of_toNat_eq ?_⟩
  have hfits : n.spi.toNat < 2 ^ 32 := ho.fits n hn
  rw [spi_saWanted, BitVec.toNat_setWidth, BitVec.toNat_setWidth, Nat.mod_eq_of_lt hfits, Nat.mod_eq_of_lt n.spi.isLt]

/-- After the kernel drops an SA and its entry is retired, the kernel has the SAs
of the list again. -/
theorem mirrors_retires (hK : K.Lawful) {st : τ} {k : SaKey} {s s' : Store SadEntryNode}
    (h : Mirrors saRows (K.table st) s.entries) (ho : OwnSpis s.entries) (hk : (K.table st k).isSome)
    (hr : Retires k.spi s s') : Mirrors saRows (K.table (sentSince K (K.drop st k) s s')) s'.entries := by
  obtain ⟨e, n, get, del, hn, hget, hdel, rfl⟩ := hr
  obtain ⟨pre, post, hs, hspi, hpre⟩ := getSadNodeBySpi_split hn
  have hmem : n ∈ s.entries := List.mem_of_find?_eq_some hn
  have hlow : n.spi.setWidth 32 = k.spi := by
    rw [hspi, BitVec.setWidth_setWidth_of_le _ (by decide), BitVec.setWidth_eq]
  have hkey : k = (saWanted n).key := key_of_spi h ho hk hmem hlow.symm
  have hsub := Keeper.accepted_sublist K.toKeeper saRequest? (K.drop st k) [get, del]
  have hasked : [get, del].filterMap saRequest? =
      erases [(saBetween n (subnetIp n.localSubnet) (subnetIp n.remoteSubnet)).key] := by
    rw [List.filterMap_cons_none (saRequest?_pfGetsad hget), List.filterMap_cons_some (saRequest?_pfDelsad hdel)]
    rfl
  rw [hasked] at hsub
  obtain ⟨keys, hkeys, hacc⟩ := List.sublist_map_iff.mp hsub
  have htable : K.table (sentSince K (K.drop st k) s ⟨withoutSpi s.entries k.spi, s.sent ++ [get, del]⟩) =
      Table.after (K.table st) (erases (k :: keys)) := by
    rw [sentSince_append rfl, hK.keeper.table_after, hacc, hK.drop]
    rfl
  have hrow : k ∈ (saRows n).map Prod.fst := List.mem_singleton.mpr hkey
  have hpart := h
  rw [hs] at hpart
  rw [htable, withoutSpi_split hs hspi hpre, hpart.retire_iff]
  refine ⟨fun r hr => ?_, fun q hq => ?_⟩
  · rw [List.mem_singleton.mp hr, ← hkey]
    exact List.mem_cons_self
  · -- An SA at the far end of the subnets has the SPI of the entry, so it is the one that was dropped.
    rcases List.mem_cons.mp hq with rfl | hq
    · exact .inr hrow
    · obtain rfl := List.mem_singleton.mp (hkeys.subset hq)
      cases hfar : K.table st (saBetween n (subnetIp n.localSubnet) (subnetIp n.remoteSubnet)).key with
      | none => exact .inl rfl
      | some r =>
        rw [key_of_spi h ho (Option.isSome_iff_exists.mpr ⟨r, hfar⟩) hmem rfl, ← hkey]
        exact .inr hrow

/-! ## Steps -/

/-- What holds in the loop: the thread has notified of all it heard. -/
structure LoopInv (K : SaKernel τ) (l : Loop τ) : Prop where
  sync : LoopInSync K l
  spis : OwnSpis l.host.system.sad.entries
  notified : l.host.thread.rc = .ok ()

/-- Items keep the SAs of the kernel those of the list, from any list on. -/
theorem applyItems_loop (hK : K.Lawful) {st : τ} {s₀ s s' : Store SadEntryNode} {items : List (Item sadEntryXpath)}
    {e : CallbackEnv AddSadEnv RemoveSadEnv} {rc : Rc}
    (h : (∃ msgs, s.sent = s₀.sent ++ msgs) ∧ Mirrors saRows (K.table (sentSince K st s₀ s)) s.entries ∧ OwnSpis s.entries)
    (hc : AlongItems sadOps (fun e s i => (i.sadOp e).Taken K.toKeeper (sentSince K st s₀ s) s ∧
      (i.sadOp e).SpiFree s.entries) e s items)
    (hr : applyItems sadOps e s items = some (rc, s')) :
    (∃ msgs, s'.sent = s₀.sent ++ msgs) ∧ Mirrors saRows (K.table (sentSince K st s₀ s')) s'.entries ∧
      OwnSpis s'.entries := by
  refine applyItems_keeps (P := fun s => (∃ msgs, s.sent = s₀.sent ++ msgs) ∧
    Mirrors saRows (K.table (sentSince K st s₀ s)) s.entries ∧ OwnSpis s.entries) changesNames_sad ?_ h hc hr
  rintro e s s' i ⟨⟨msgs, hsent⟩, hm, ho⟩ ⟨htaken, hspi⟩ hi
  have hstep := sadOp_step hi
  obtain ⟨more, hmore, hiff⟩ := mirrors_sadStep hK.keeper hm hstep
  have hall : s'.sent = s₀.sent ++ (msgs ++ more) := by rw [hmore, hsent, List.append_assoc]
  refine ⟨⟨_, hall⟩, ?_, ownSpis_step ho hspi hstep⟩
  rw [sentSince_append hall, Keeper.after_append, ← sentSince_append hsent]
  exact hiff.mpr htaken

/-- A soft expiry of a listed SA, when sysrepo can be reached, is notified of. -/
theorem expiredAs_soft {t : Turn} (ht : Reachable t) {key : BitVec 64} {n : SadEntryNode}
    (hn : getSadNodeBySpi t.sad key = some n) (rc : Rc) :
    expiredAs key t rc false = some (.ok (), [.notify n.name true]) := by
  rw [expiredAs, if_neg Bool.false_ne_true, sendSaExpireNotification, ht.notify, hn]
  rfl

/-- A turn that reads a soft expiry of an SA of the kernel, or something else,
runs to its end and leaves the lists. -/
theorem host_tells {l : Loop τ} (hl : LoopInv K l) {d : Option Bytes} {notify : NotifyEnv} {delete : DeleteEnv}
    {zone : Int → Int} {r : Removal} (hf : (LoopEvent.host (.turn d notify delete zone r)).Fits K l) :
    ∃ h', l.host.step (.turn d notify delete zone r) = some h' ∧ h'.system = l.host.system ∧ h'.thread.rc = .ok () := by
  rcases hf with hother | ⟨k, hk, hx⟩
  · generalize hd : d = d' at hother
    cases hother with
    | other hm ht hp =>
      obtain ⟨buf, -, hstep⟩ :=
        step_other (t := ⟨d, l.host.system.sad.entries, notify, delete, zone⟩) hd hm ht hp l.host.thread
      refine ⟨⟨l.host.system, ⟨l.host.thread.rc, buf⟩⟩, ?_, rfl, hl.notified⟩
      rw [Host.step, ← hd, hstep]
      rfl
  · obtain ⟨buf, hturn⟩ := step_readsExpiry (h := l.host) hx
    obtain ⟨-, -, rfl, rfl⟩ := hx
    obtain ⟨n, hn, -⟩ := (finds_iff _ _).mpr rfl _ (listed_of_key hl.sync.sas hl.spis hk)
    rw [expiredAs_soft ⟨rfl, rfl⟩ hn, Option.map_some] at hturn
    refine ⟨⟨l.host.system, ⟨.ok (), buf⟩⟩, ?_, rfl, rfl⟩
    rw [Host.step, hturn]
    rfl

/-- The kernel drops an SA and tells of it: the entry is retired. -/
theorem host_drops {l : Loop τ} (hl : LoopInv K l) {k : SaKey} {e : HostEvent} (hf : (LoopEvent.drop k e).Fits K l) :
    ∃ h', l.host.step e = some h' ∧ InSync h'.system ∧ Retires k.spi l.host.system.sad h'.system.sad ∧
      h'.thread.rc = .ok () := by
  obtain ⟨hk, hreads⟩ := hf
  obtain ⟨h', hstep, hsync, hretires, -, hrc⟩ :=
    host_retires hreads hl.sync.lists (listed_of_key hl.sync.sas hl.spis hk) hl.spis.retirable hl.notified
  exact ⟨h', hstep, hsync, hretires, hrc⟩

theorem LoopInv.step (hK : K.Lawful) {l l' : Loop τ} {e : LoopEvent} (hl : LoopInv K l) (hf : e.Fits K l)
    (hs : l.step K e = some l') : LoopInv K l' := by
  obtain ⟨h', hhost, rfl⟩ := Option.map_eq_some_iff.mp hs
  cases e with
  | host e =>
    cases e with
    | commit t =>
      obtain ⟨hfits, haccepted, htaken⟩ := hf
      obtain ⟨hstep, hthread⟩ := host_commit hhost
      have hsync := (inSync_step hl.sync.lists hfits hstep).mpr (.inl haccepted)
      have hstart : (∃ msgs, l.host.system.sad.sent = l.host.system.sad.sent ++ msgs) ∧
          Mirrors saRows (K.table (sentSince K l.kernel l.host.system.sad l.host.system.sad)) l.host.system.sad.entries ∧
          OwnSpis l.host.system.sad.entries :=
        ⟨⟨[], (List.append_nil _).symm⟩, (sentSince_self (K := K) ..).symm ▸ hl.sync.sas, hl.spis⟩
      rcases system_step_cases hfits.oneList hfits.spdItems hfits.sadItems hstep with
        ⟨err, -, hsad, -⟩ | ⟨-, rc, hsad, -⟩
      · exact ⟨⟨hsync, hsad ▸ hstart.2.1⟩, hsad ▸ hl.spis, hthread ▸ hl.notified⟩
      · obtain ⟨-, hm, ho⟩ := applyItems_loop hK hstart htaken hsad
        exact ⟨⟨hsync, hm⟩, ho, hthread ▸ hl.notified⟩
    | turn d notify delete zone r =>
      obtain ⟨h₁, hstep, hsystem, hrc⟩ := host_tells hl hf
      obtain rfl : h₁ = h' := Option.some.inj (hstep.symm.trans hhost)
      refine ⟨⟨?_, ?_⟩, ?_, hrc⟩
      · rw [hsystem]; exact hl.sync.lists
      · rw [hsystem]; exact (sentSince_self (K := K) ..).symm ▸ hl.sync.sas
      · rw [hsystem]; exact hl.spis
  | drop k e =>
    obtain ⟨h₁, hstep, hsync, hretires, hrc⟩ := host_drops hl hf
    obtain rfl : h₁ = h' := Option.some.inj (hstep.symm.trans hhost)
    have hsub : (withoutSpi l.host.system.sad.entries k.spi).Sublist l.host.system.sad.entries := List.eraseP_sublist
    refine ⟨⟨hsync, mirrors_retires hK hl.sync.sas hl.spis hf.1 hretires⟩, ?_, hrc⟩
    rw [entries_of_retires hretires]
    exact hl.spis.sublist hsub

end Kernel

/-! ## An SA that is added and dropped -/

end CfgIpsec.Proof
