import CfgIpsec.Proof.Lookup
import CfgIpsec.Proof.Restart
import CfgIpsec.Proof.Xpaths
import CfgIpsec.Spec.Host

/-!
# The lists under the thread's requests

sysrepo deletes the entry a path is of in a transaction that fits and that the
SPD callback accepts (`removal_fits`, `removal_accepted`), so what is known of
transactions holds with the thread (`host_follows`). A hard expiry takes the
first entry of its SPI out of the list: it is deleted by its name, which no
other entry has (`removeSadEntry_bySpi`, `expiries_retire`).
-/

namespace CfgIpsec.Proof

open Impl Spec Run
open CStr (lit)

/-! ## Paths -/

theorem addresses_unquoted {path name : CStr} (h : Addresses path name) :
    ∃ t, pathTests (path.bytes.length + 1) path.bytes = some [t] ∧ t.literal = name.bytes := by
  obtain ⟨t, ht, honly⟩ := h
  exact ⟨t, ht, congrArg KeyTest.literal ((honly name).mpr rfl)⟩

theorem entryOf?_eq_some {path x : CStr} (h : entryOf? path = some x) : path = sadEntryXpath x := by
  rw [entryOf?] at h
  split at h
  · split at h
    · rename_i heq
      cases h
      exact heq.symm
    · cases h
  · cases h

/-- The path of a deletable entry is of it. -/
theorem entryOf?_deletable {name : CStr} (h : Deletable name) : entryOf? (sadEntryXpath name) = some name := by
  obtain ⟨path, hpath, haddr⟩ := h
  have heq : path = sadEntryXpath name := deleteXpath_eq_some hpath
  obtain ⟨t, ht, hliteral⟩ := addresses_unquoted (heq ▸ haddr)
  rw [entryOf?, ht]
  simp [hliteral]

theorem sadEntryXpath_self (name : CStr) : sadEntryXpath name = sadEntryXpath name ++ lit "" := by
  refine CStr.ext ?_
  rw [CStr.bytes_append, lit_nil, List.append_nil]

/-- A name without a quote that is short enough is deletable. -/
theorem deletable_of_unquoted {name : CStr} (hq : (0x27 : Byte) ∉ name.bytes)
    (hlen : strlen (sadEntryXpath name) < MAX_PATH) : Deletable name := by
  have hnone : ∀ fuel, pathTests (fuel + 4) (lit "").bytes = some [] := fun fuel => by rw [lit_nil, pathTests]
  refine ⟨sadEntryXpath name, if_pos hlen, ?_⟩
  rw [sadEntryXpath_self]
  exact (addresses_iff hnone).mpr hq

/-- The entry a path is of has no quote in its name: the literal would end
there. -/
theorem unquoted_of_entryOf? {path x : CStr} (h : entryOf? path = some x) : (0x27 : Byte) ∉ x.bytes := by
  have hself : path = sadEntryXpath x ++ lit "" := (entryOf?_eq_some h).trans (sadEntryXpath_self x)
  have hlen : 8 ≤ path.bytes.length + 1 := by
    simp only [hself, bytes_entry, List.length_cons, List.length_append]
    omega
  obtain ⟨fuel, hfuel⟩ := Nat.exists_eq_add_of_le' hlen
  intro hquote
  obtain ⟨pre, post, hx, hpre⟩ := List.eq_append_cons_of_mem hquote
  rw [entryOf?, hfuel, hself, pathTests_entry] at h
  split at h
  · rename_i t ht
    split at h
    · obtain ⟨⟨t', bs⟩, hkt, ht⟩ := Option.bind_eq_some_iff.mp ht
      obtain ⟨ts, -, ht⟩ := Option.map_eq_some_iff.mp ht
      cases ht
      rw [hx, List.append_assoc, List.cons_append] at hkt
      have hpart := eq_of_keyTest? (by decide) hpre hkt
      have hliteral : (CStr.ofBuf pre).bytes = x.bytes := by
        have hbuf := congrArg CStr.bytes (Option.some.inj h)
        rwa [show t' = ⟨_, pre⟩ from hpart] at hbuf
      have hshort := congrArg List.length (hliteral.trans hx)
      have hle : (CStr.ofBuf pre).bytes.length ≤ pre.length := (List.takeWhile_prefix _).length_le
      simp only [List.length_append, List.length_cons] at hshort
      omega
    · cases h
  · cases h

/-! ## Deletions -/

theorem removal_fits {s : System} {r : Removal} {x : CStr} (hx : x ∈ s.config.sad) (hq : (0x27 : Byte) ∉ x.bytes) :
    (r.transaction x).Fits s := by
  have hitem : ∀ i ∈ (r.transaction x).sad, i = .deleted (r.block x) := fun i hi => List.mem_singleton.mp hi
  refine ⟨.inl rfl, ⟨List.forall_mem_nil _, List.nodup_nil, List.forall_mem_nil _⟩,
    ⟨?_, List.nodup_singleton _, ?_⟩, List.forall_mem_nil _, ?_⟩
  · intro i hi
    rwa [hitem i hi, Item.block, r.name_block]
  · intro i hi
    rw [hitem i hi]
    exact r.values x
  · intro i hi
    rw [hitem i hi, Item.Fits, r.name_block]
    exact hx

/-- The SPD callback has nothing to refuse. -/
theorem removal_accepted (s : System) (r : Removal) (x : CStr) : (r.transaction x).Accepted s := ⟨s.spd, rfl⟩

/-- What sysrepo deletes. -/
theorem delete_cases {r : Removal} {path : CStr} {s s' : System} (h : s.delete r path = some s') :
    s' = s ∨ ∃ x, entryOf? path = some x ∧ x ∈ s.config.sad ∧ s.step (r.transaction x) = some s' := by
  rw [System.delete] at h
  split at h
  · rename_i x hpath
    split at h
    · exact .inr ⟨x, hpath, ‹_›, h⟩
    · exact .inl (Option.some.inj h).symm
  · exact .inl (Option.some.inj h).symm

/-- What each deletion keeps, carrying out the requests keeps. -/
theorem carryOut_keeps {P : System → Prop} {r : Removal}
    (hstep : ∀ {s s' x}, P s → (r.transaction x).Fits s → s.step (r.transaction x) = some s' → P s')
    {acts : List Action} {s s' : System} (hs : P s) (h : s.carryOut r acts = some s') : P s' := by
  induction acts, s using System.carryOut.induct with
  | case1 path acts s ih =>
    rw [System.carryOut] at h
    obtain ⟨s₁, hdel, h⟩ := Option.bind_eq_some_iff.mp h
    refine ih s₁ ?_ h
    rcases delete_cases hdel with rfl | ⟨x, hpath, hx, hrun⟩
    · exact hs
    · exact hstep hs (removal_fits hx (unquoted_of_entryOf? hpath)) hrun
  | case2 a acts s hne ih =>
    rw [System.carryOut] at h
    · exact ih hs h
    · exact hne
  | case3 s => cases h; exact hs

/-! ## Runs with clients -/

theorem host_commit {h h' : Host} {t : Transaction} (hs : h.step (.commit t) = some h') :
    h.system.step t = some h'.system ∧ h'.thread = h.thread := by
  obtain ⟨s, hrun, rfl⟩ := Option.map_eq_some_iff.mp hs
  exact ⟨hrun, rfl⟩

theorem host_turn {h h' : Host} {d : Option Bytes} {notify : NotifyEnv} {delete : DeleteEnv} {zone : Int → Int}
    {r : Removal} (hs : h.step (.turn d notify delete zone r) = some h') :
    ∃ acts, h.thread.step ⟨d, h.system.sad.entries, notify, delete, zone⟩ = some (h'.thread, acts) ∧
      h.system.carryOut r acts = some h'.system := by
  obtain ⟨⟨thread, acts⟩, hturn, hs⟩ := Option.bind_eq_some_iff.mp hs
  obtain ⟨system, hcarry, hs⟩ := Option.bind_eq_some_iff.mp hs
  cases hs
  exact ⟨acts, hturn, hcarry⟩

theorem host_names {h h' : Host} {e : HostEvent} (ht : e.Fits h)
    (hs : Follows (h.system.sad.entries.map (·.name)) h.system.config.sad ∧ (h.system.spd.entries.map (·.name)).Nodup)
    (he : h.step e = some h') :
    Follows (h'.system.sad.entries.map (·.name)) h'.system.config.sad ∧ (h'.system.spd.entries.map (·.name)).Nodup := by
  cases e with
  | commit t => exact step_names ht hs (host_commit he).1
  | turn d notify delete zone r =>
    obtain ⟨acts, -, hcarry⟩ := host_turn he
    exact carryOut_keeps (fun hs ht h => step_names ht hs h) hs hcarry

/-- What the thread asks for keeps the lists in sync. -/
theorem host_inSync {h h' : Host} {e : HostEvent} (hs : InSync h.system) (ht : e.Fits h) (he : h.step e = some h') :
    InSync h'.system ↔ e.Accepted h := by
  cases e with
  | commit t => exact inSync_step hs ht (host_commit he).1
  | turn d notify delete zone r =>
    obtain ⟨acts, -, hcarry⟩ := host_turn he
    refine iff_of_true (carryOut_keeps (fun hs ht h => ?_) hs hcarry) trivial
    exact (inSync_step hs ht h).mpr (.inl (removal_accepted ..))

/-- Whatever the thread reads, the SAD list follows the committed configuration,
no name is twice in the SPD list, and both lists follow it exactly when each
transaction of a client is accepted, or refused at its first entry. -/
theorem host_follows {es : List HostEvent} {stack : Buffer}
    (ht : Along Host.step (fun h e => e.Fits h) es (.start stack)) :
    Always Host.step (fun h => Follows (h.system.sad.entries.map (·.name)) h.system.config.sad ∧
      (h.system.spd.entries.map (·.name)).Nodup) es (.start stack) ∧
    (Always Host.step (fun h => InSync h.system) es (.start stack) ↔
      Along Host.step (fun h e => e.Accepted h) es (.start stack)) :=
  ⟨always_of_along (fun hs ht he => host_names ht hs he) ⟨rfl, List.nodup_nil⟩ ht,
    always_iff_along_of (fun hs ht he => host_inSync hs ht he) ⟨rfl, rfl⟩ ht⟩

def gwRemoval : Removal := ⟨sadBlockOf, fun _ => rfl, sadBlockOf_values, spdCalls, sadCalls⟩

/-- The SA of the SPI 0 reaches its hard lifetime. -/
def gwExpires : HostEvent :=
  .turn (some (expireMessage 0 SADB_EXT_LIFETIME_HARD)) ⟨true, true, true, .ok ()⟩ ⟨.ok (), .ok (), .ok ()⟩
    (fun _ => 0) gwRemoval

/-- The SAD entry `gw` is created. -/
def gwHost : Host := ((Host.start .zeros).step (.commit (creation [] [sadBlockOf (lit "gw")]))).get (by decide +kernel)

theorem fits_gw : (creation [] [sadBlockOf (lit "gw")]).Fits .start :=
  fits_creation (.inl rfl) ⟨List.forall_mem_nil _, List.nodup_nil, List.forall_mem_nil _⟩
    ⟨by decide, List.nodup_singleton _, fun i hi => (List.mem_singleton.mp hi).symm ▸ sadBlockOf_values _⟩
    ⟨List.forall_mem_nil _, fun b _ => Finset.notMem_empty b.name⟩

/-- A client creates the entry, and its SA reaches its hard lifetime. -/
theorem host_follows_gw :
    Always Host.step (fun h => InSync h.system) [.commit (creation [] [sadBlockOf (lit "gw")]), gwExpires]
      (.start .zeros) := by
  have ht : Along Host.step (fun h e => e.Fits h) [.commit (creation [] [sadBlockOf (lit "gw")]), gwExpires]
      (.start .zeros) := fun _ _ => ⟨fits_gw, fun _ _ => ⟨trivial, trivial⟩⟩
  exact (host_follows ht).2.mpr fun _ _ => ⟨.inl ⟨emptyStore, rfl⟩, fun _ _ => ⟨trivial, trivial⟩⟩

/-! ## Hard expiries -/

theorem pathFits_of_deletable {name : CStr} (h : Deletable name) : PathFits name := by
  obtain ⟨path, hpath, -⟩ := h
  by_contra hlong
  rw [deleteXpath_eq_none hlong] at hpath
  cases hpath

/-- The handling of the hard expiry of an entry, when sysrepo can be reached. -/
theorem expiredAs_hard {t : Turn} (ht : Reachable t) {key : BitVec 64} {n : SadEntryNode}
    (hn : getSadNodeBySpi t.sad key = some n) (hp : PathFits n.name) :
    expiredAs key t (.ok ()) true = some (.ok (), requestsFor n true) := by
  have hnotify : sendSaExpireNotification t.notify t.sad key false = (.ok (), [.notify n.name false]) := by
    rw [sendSaExpireNotification, ht.notify, hn]
    rfl
  have hdelete : sendDeleteSadRequest t.delete t.sad key = some [.deleteItem (sadEntryXpath n.name), .applyChanges] := by
    rw [sendDeleteSadRequest, ht.delete, hn]
    simp [deleteXpath_eq hp]
  rw [expiredAs, if_pos rfl, if_pos rfl, hnotify, hdelete]
  rfl

/-- A turn that reads an expiry which can be printed. -/
theorem step_readsExpiry {h : Host} {x : Expiry} {d : Option Bytes} {notify : NotifyEnv} {delete : DeleteEnv}
    {zone : Int → Int} {r : Removal} (hx : ReadsExpiry x (.turn d notify delete zone r)) :
    ∃ buf : Buffer, h.thread.step ⟨d, h.system.sad.entries, notify, delete, zone⟩ =
      (expiredAs (x.spi.setWidth 64) ⟨d, h.system.sad.entries, notify, delete, zone⟩ h.thread.rc x.hard).map
        fun r => (⟨r.1, buf⟩, r.2) := by
  obtain ⟨⟨msg, rs, rfl, hm, hp, hty, hexp⟩, hspi, -, -⟩ := hx
  have hexpires : Expires ⟨some msg, h.system.sad.entries, notify, delete, zone⟩ x :=
    ⟨msg, rs, rfl, hm.message, hty, hexp⟩
  have hprinted := (printing_isSome_iff (t := ⟨some msg, h.system.sad.entries, notify, delete, zone⟩) rfl hm
    h.thread).mpr hp
  rw [← (signExtend_eq_setWidth_iff x.spi).mpr hspi]
  exact step_printed hexpires hprinted

theorem withoutSpi_split {entries pre post : List SadEntryNode} {n : SadEntryNode} {spi : BitVec 32}
    (hs : entries = pre ++ n :: post) (hn : n.spi = spi.setWidth 64) (hp : ∀ m ∈ pre, m.spi ≠ spi.setWidth 64) :
    withoutSpi entries spi = pre ++ post := by
  rw [withoutSpi, hs, List.eraseP_append_right _ fun m hm => by simpa using hp m hm, List.eraseP_cons, decide_eq_true hn,
    cond_true]

theorem getSadNodeBySpi_split {entries : List SadEntryNode} {n : SadEntryNode} {key : BitVec 64}
    (h : getSadNodeBySpi entries key = some n) :
    ∃ pre post, entries = pre ++ n :: post ∧ n.spi = key ∧ ∀ m ∈ pre, m.spi ≠ key := by
  obtain ⟨hspi, pre, post, hs, hpre⟩ := List.find?_eq_some_iff_append.mp h
  exact ⟨pre, post, hs, of_decide_eq_true hspi, fun m hm => by simpa using hpre m hm⟩

/-- The first entry of an SPI is taken out of a list by its name, when no other
has the name. -/
theorem removeSadEntry_bySpi {e : RemoveSadEnv} {s s' : Store SadEntryNode} {spi : BitVec 32} {n : SadEntryNode}
    {rc : Rc} (hnames : (s.entries.map (·.name)).Nodup) (hn : getSadNodeBySpi s.entries (spi.setWidth 64) = some n)
    (h : removeSadEntry e s n.name = some (rc, s')) : Retires spi s s' := by
  obtain ⟨pre, post, hs, hspi, hpre⟩ := getSadNodeBySpi_split hn
  have hp : ∀ m ∈ pre, m.name ≠ n.name := by
    intro m hm hname
    rw [hs, List.map_append, List.nodup_append] at hnames
    exact hnames.2.2 _ (List.mem_map_of_mem hm) _ (List.mem_map_of_mem List.mem_cons_self) hname
  have hget : getSadNode s.entries n.name = some n := getNode_eq_some_iff.mpr ⟨pre, post, hs, rfl, hp⟩
  rcases removeSadEntry_cases h with ⟨hnone, -, -⟩ | ⟨pre', m, post', get, del, hm, -, -, -, hget', hdel, -, -⟩
  · rw [hget] at hnone
    cases hnone
  · obtain rfl : n = m := Option.some.inj (hget.symm.trans hm)
    rw [removeSadEntry_eq hs rfl hp hget' hdel] at h
    cases h
    exact ⟨e, n, get, del, hn, hget', hdel, by rw [withoutSpi_split hs hspi hpre]⟩

theorem entries_of_retires {spi : BitVec 32} {s s' : Store SadEntryNode} (h : Retires spi s s') :
    s'.entries = withoutSpi s.entries spi := by
  obtain ⟨e, n, get, del, -, -, -, rfl⟩ := h
  rfl

/-- sysrepo deletes an entry that is listed. -/
theorem removal_step {r : Removal} {s : System} {x : CStr} (hs : InSync s) (hx : x ∈ s.sad.entries.map (·.name))
    (hq : (0x27 : Byte) ∉ x.bytes) (hm : ∀ n ∈ s.sad.entries, SadRemovable n) :
    ∃ s', s.step (r.transaction x) = some s' ∧ InSync s' ∧ s'.spd = s.spd ∧
      removeSadEntry (r.sadCalls.remove 0) s.sad x = some (.ok (), s'.sad) := by
  have hfits : (r.transaction x).Fits s := removal_fits ((follows_mem_iff hs.sad _).mp hx) hq
  obtain ⟨n, hn⟩ : ∃ n, getSadNode s.sad.entries x = some n := by
    obtain ⟨m, hmem, hname⟩ := List.mem_map.mp hx
    exact Option.ne_none_iff_exists'.mp fun hnone => getNode_eq_none_iff.mp hnone m hmem hname
  obtain ⟨pre, post, he, hname, hp⟩ := getNode_eq_some_iff.mp hn
  have hgood : SadRemovable n := hm n (he ▸ List.mem_append_right pre List.mem_cons_self)
  obtain ⟨get, hget⟩ := Option.isSome_iff_exists.mp (sadRequest_isSome_iff.mpr hgood)
  obtain ⟨del, hdel⟩ := Option.isSome_iff_exists.mp (sadRequest_isSome_iff.mpr hgood)
  have hremove : removeSadEntry (r.sadCalls.remove 0) s.sad x =
      some (.ok (), ⟨pre ++ post, s.sad.sent ++ [get, del]⟩) := removeSadEntry_eq he hname hp hget hdel
  have hspd : (r.transaction x).tellSpd .change s.spd = some (.ok (), s.spd) := rfl
  have hsad : (r.transaction x).tellSad .change s.sad = some (.ok (), ⟨pre ++ post, s.sad.sent ++ [get, del]⟩) := by
    rw [tellSad_change hfits.oneList hfits.sadItems]
    change Item.applyThen sadOps r.sadCalls s.sad (.deleted (r.block x)) (fun s => some (.ok (), s)) = _
    rw [Item.applyThen, Item.apply, r.name_block]
    simp only [sadOps, hremove, Option.bind_eq_bind, Option.bind_some]
  have hstep : s.step (r.transaction x) =
      some ⟨s.config.commit (r.transaction x), s.spd, ⟨pre ++ post, s.sad.sent ++ [get, del]⟩⟩ := by
    rw [System.step, hspd]
    simp only [Option.bind_eq_bind, Option.bind_some, hsad, tellSpd_of_ne (show SrEvent.done ≠ .change by decide),
      tellSad_of_ne (show SrEvent.done ≠ .change by decide)]
    rfl
  exact ⟨_, hstep, (inSync_step hs hfits hstep).mpr (.inl (removal_accepted ..)), rfl, hremove⟩

/-- What sysrepo makes of the requests for a listed entry. -/
theorem carryOut_requests {r : Removal} {s : System} {spi : BitVec 32} {n : SadEntryNode} (hs : InSync s)
    (hd : ∀ n ∈ s.sad.entries, Retirable n) (hn : getSadNodeBySpi s.sad.entries (spi.setWidth 64) = some n) :
    ∃ s', s.carryOut r (requestsFor n true) = some s' ∧ InSync s' ∧ Retires spi s.sad s'.sad ∧ s'.spd = s.spd := by
  have hlisted : n ∈ s.sad.entries := List.mem_of_find?_eq_some hn
  have hmem : n.name ∈ s.sad.entries.map (·.name) := List.mem_map_of_mem hlisted
  have hpath := entryOf?_deletable (hd n hlisted).path
  obtain ⟨s', hstep, hsync, hspd, hremove⟩ :=
    removal_step hs hmem (unquoted_of_entryOf? hpath) fun m hm => (hd m hm).messages
  refine ⟨s', ?_, hsync, removeSadEntry_bySpi (follows_nodup hs.sad) hn hremove, hspd⟩
  change (s.delete r (sadEntryXpath n.name)).bind some = some s'
  rw [Option.bind_fun_some, System.delete, hpath]
  simpa only [if_pos ((follows_mem_iff hs.sad _).mp hmem)] using hstep

/-- A turn that reads the hard expiry of a listed SA retires it. -/
theorem host_retires {h : Host} {spi : BitVec 32} {e : HostEvent} (hr : ReadsHard spi e) (hs : InSync h.system)
    (hl : ∃ n ∈ h.system.sad.entries, n.spi = spi.setWidth 64) (hd : ∀ n ∈ h.system.sad.entries, Retirable n)
    (hrc : h.thread.rc = .ok ()) :
    ∃ h', h.step e = some h' ∧ InSync h'.system ∧ Retires spi h.system.sad h'.system.sad ∧
      h'.system.spd = h.system.spd ∧ h'.thread.rc = .ok () := by
  cases e with
  | commit t => cases hr
  | turn d notify delete zone r =>
    obtain ⟨buf, hturn⟩ := step_readsExpiry (h := h) hr
    obtain ⟨-, -, rfl, rfl⟩ := hr
    obtain ⟨n, hn, -⟩ := (finds_iff _ _).mpr rfl _ hl
    have hpath := pathFits_of_deletable (hd n (List.mem_of_find?_eq_some hn)).path
    rw [hrc, expiredAs_hard ⟨rfl, rfl⟩ hn hpath, Option.map_some] at hturn
    obtain ⟨s', hcarry, hsync, hretires, hspd⟩ := @carryOut_requests r _ _ _ hs hd hn
    exact ⟨⟨s', ⟨.ok (), buf⟩⟩, Option.bind_eq_some_iff.mpr ⟨_, hturn, Option.bind_eq_some_iff.mpr ⟨s', hcarry, rfl⟩⟩,
      hsync, hretires, hspd, rfl⟩

/-- A run of hard expiries of listed SAs, when sysrepo can be reached, ends, and
every one retires the first entry of its SPI, and no other: it goes from the
list, and with it from the configuration, which the list stays in sync with. -/
theorem expiries_retire {es : List HostEvent} {spis : List (BitVec 32)}
    (hr : List.Forall₂ (fun e spi => ReadsHard spi e) es spis) {h : Host} (hs : InSync h.system)
    (hl : ListedInTurn spis h.system.sad.entries) (hd : ∀ n ∈ h.system.sad.entries, Retirable n)
    (hrc : h.thread.rc = .ok ()) :
    ∃ h', run Host.step es h = some h' ∧ h'.system.sad.entries = spis.foldl withoutSpi h.system.sad.entries ∧
      InSync h'.system ∧ h'.system.spd = h.system.spd := by
  induction hr generalizing h with
  | nil => exact ⟨h, rfl, rfl, hs, rfl⟩
  | cons he hes ih =>
    obtain ⟨hfirst, hl⟩ := hl
    obtain ⟨h₁, hstep, hsync, hretires, hspd, hrc₁⟩ := host_retires he hs hfirst hd hrc
    have hentries := entries_of_retires hretires
    have hd₁ : ∀ n ∈ h₁.system.sad.entries, Retirable n := fun n hn => hd n (List.mem_of_mem_eraseP (hentries ▸ hn))
    obtain ⟨h', hrun, hlast, hsync', hspd'⟩ := ih hsync (hentries ▸ hl) hd₁ hrc₁
    rw [hentries] at hlast
    exact ⟨h', Option.bind_eq_some_iff.mpr ⟨h₁, hstep, hrun⟩, hlast, hsync', hspd'.trans hspd⟩

theorem inSync_gwHost : InSync gwHost.system := by
  have hstep : (Host.start .zeros).step (.commit (creation [] [sadBlockOf (lit "gw")])) = some gwHost :=
    (Option.some_get _).symm
  have hs : InSync (Host.start .zeros).system := ⟨rfl, rfl⟩
  exact (inSync_step hs fits_gw (host_commit hstep).1).mpr (.inl ⟨emptyStore, rfl⟩)

theorem readsHard_gw : ReadsHard 0 gwExpires := by
  have hprints : ∀ e ∈ expireExts 0 SADB_EXT_LIFETIME_HARD, TimesPrint (fun _ => 0) e := by decide +kernel
  exact ⟨⟨_, expireExts 0 SADB_EXT_LIFETIME_HARD, rfl,
    ⟨⟨by decide +kernel, by decide +kernel, by decide +kernel, by decide +kernel, by decide +kernel⟩,
      by decide +kernel⟩, fun _ => hprints, by decide +kernel, by decide +kernel⟩, by decide, rfl, rfl⟩

/-- The expiry of its SA takes the entry out of the list. -/
theorem expiries_retire_gw :
    gwHost.system.sad.entries.map (·.name) = [lit "gw"] ∧
      ∃ h, run Host.step [gwExpires] gwHost = some h ∧ h.system.sad.entries = [] ∧ InSync h.system := by
  have hentries : gwHost.system.sad.entries.map (·.name) = [lit "gw"] ∧
      gwHost.system.sad.entries.all (fun n => n.spi = 0 ∧ (getMask n.localSubnet).isSome ∧ (getIp n.localSubnet).isSome ∧
        (getMask n.remoteSubnet).isSome ∧ (getIp n.remoteSubnet).isSome) = true ∧
      withoutSpi gwHost.system.sad.entries 0 = [] ∧ gwHost.thread.rc = .ok () := by decide +kernel
  obtain ⟨hnames, hall, hnone, hrc⟩ := hentries
  have hnode : ∀ n ∈ gwHost.system.sad.entries, n.spi = 0 ∧ Retirable n := by
    intro n hn
    obtain ⟨hspi, hlocal, hlocal', hremote, hremote'⟩ := of_decide_eq_true (List.all_eq_true.mp hall n hn)
    have hname : n.name = lit "gw" := List.mem_singleton.mp (hnames ▸ List.mem_map_of_mem hn)
    refine ⟨hspi, ?_, ⟨⟨hlocal, hlocal'⟩, hremote, hremote'⟩⟩
    rw [hname]
    exact deletable_of_unquoted (by decide) (by decide +kernel)
  obtain ⟨n, hn, -⟩ := List.mem_map.mp (hnames ▸ List.mem_singleton_self (lit "gw") : lit "gw" ∈ _)
  obtain ⟨h, hrun, hlast, hsync, -⟩ := expiries_retire (.cons readsHard_gw .nil) inSync_gwHost
    ⟨⟨n, hn, (hnode n hn).1⟩, trivial⟩ (fun n hn => (hnode n hn).2) hrc
  exact ⟨hnames, h, hrun, hlast.trans hnone, hsync⟩

end CfgIpsec.Proof
