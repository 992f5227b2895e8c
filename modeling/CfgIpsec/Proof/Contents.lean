import CfgIpsec.Proof.Capacity
import CfgIpsec.Proof.Kernel
import CfgIpsec.Proof.Leftovers
import CfgIpsec.Spec.Contents

/-!
# From the values of the configuration to the kernel

An item that is applied keeps one node for each entry, read from its values
(`listed_apply`): the calls are about its name only. Along transactions that
the kernel follows, it has what the committed values say (`kernel_realizes`).
-/

namespace CfgIpsec.Proof

open Impl Spec Run Tables Footprint
open CStr (lit)

/-! ## Room -/

section Room

variable {α : Type} {copies : SrVal → Option (List StrCopy)} {store : SrVal → α → Option (Stored α)}

/-- Values of which all strings have room are stored in the room there is. -/
theorem readLoop_inRoom (hnoted : ∀ v n r, store v n = some r → ∃ cs, copies v = some cs) {xpath : CStr}
    {v : SrVal} {vs : List SrVal} (hroom : ∀ w ∈ v :: vs, ∀ cs, copies w = some cs → ∀ c ∈ cs, HasRoom c) {n : α}
    {r : SrChangeIter × Stored α} (h : readLoop store xpath v.created (vs.map fun w => .ok w.created) n = some r) :
    readLoop (inRoom copies store) xpath v.created (vs.map fun w => .ok w.created) n = some r := by
  have hstore : ∀ w ∈ v :: vs, ∀ m q, store w m = some q → inRoom copies store w m = some q := by
    intro w hw m q hq
    obtain ⟨cs, hcs⟩ := hnoted w m q hq
    exact (inRoom_eq_some_iff (p := True) ⟨cs, hcs, iff_of_true (hroom w hw cs hcs) trivial⟩ m q).mpr ⟨trivial, hq⟩
  clear hroom
  induction vs generalizing v n with
  | nil =>
    rw [List.map_nil, readLoop] at h ⊢
    obtain ⟨w, hw, h⟩ := Option.bind_eq_some_iff.mp h
    cases hw
    refine Option.bind_eq_some_iff.mpr ⟨v, rfl, ?_⟩
    dsimp only at h ⊢
    split
    · rename_i hx
      rw [if_pos hx] at h
      obtain ⟨m, hm, h⟩ := Option.bind_eq_some_iff.mp h
      exact Option.bind_eq_some_iff.mpr ⟨m, hstore v List.mem_cons_self n m hm, h⟩
    · rename_i hx
      rwa [if_neg hx] at h
  | cons w vs ih =>
    rw [List.map_cons, readLoop] at h ⊢
    obtain ⟨w', hw, h⟩ := Option.bind_eq_some_iff.mp h
    cases hw
    refine Option.bind_eq_some_iff.mpr ⟨v, rfl, ?_⟩
    dsimp only at h ⊢
    split
    · rename_i hx
      rw [if_pos hx] at h
      obtain ⟨m, hm, h⟩ := Option.bind_eq_some_iff.mp h
      refine Option.bind_eq_some_iff.mpr ⟨m, hstore v List.mem_cons_self n m hm, ?_⟩
      cases m with
      | next m => exact ih h fun u hu => hstore u (List.mem_cons_of_mem v hu)
      | reject m => exact h
    · rename_i hx
      rwa [if_neg hx] at h

theorem body_eq_cons {xpath : CStr → CStr} (b : Block xpath) :
    ∃ v vs, b.values = v :: vs ∧ b.body = .ok v.created :: vs.map fun w => .ok w.created := by
  obtain ⟨v, vs, hvs⟩ := List.exists_cons_of_ne_nil b.ne_nil
  exact ⟨v, vs, hvs, by rw [Block.body, hvs]; rfl⟩

/-- An entry of which all strings have room is read in the room there is. -/
theorem sadReader_inRoom {b : Block sadEntryXpath} {n : SadEntryNode} (hb : b.InRoom sadValueCopies)
    (h : ReadFrom sadReader b n) : ReadFrom sadReaderInRoom b n := by
  obtain ⟨r, it, h⟩ := h
  obtain ⟨v, vs, hvs, hbody⟩ := body_eq_cons b
  have hname : StrCopy.hasRoom ⟨.name, b.name⟩ = true := decide_eq_true hb.name
  refine ⟨r, it, ?_⟩
  rw [sadReaderInRoom, newSadInRoom, if_pos hname, hbody, readSadInRoom, srGetChangeNext]
  rw [sadReader, hbody, readSadEntry, srGetChangeNext] at h
  obtain ⟨q, hloop, h⟩ := Option.bind_eq_some_iff.mp h
  have hnoted : ∀ v n r, readSadValue v n = some r → ∃ cs, sadValueCopies v = some cs := fun v n r hs =>
    (sadValueCopies_store hs).imp fun _ h => h.1
  have hroom : ∀ w ∈ v :: vs, ∀ cs, sadValueCopies w = some cs → ∀ c ∈ cs, HasRoom c := fun w hw cs hcs c hc =>
    hb.values c ⟨w, hvs ▸ hw, cs, hcs, hc⟩
  exact Option.bind_eq_some_iff.mpr ⟨q, readLoop_inRoom hnoted hroom hloop, h⟩

theorem spdReader_inRoom {b : Block spdEntryXpath} {n : SpdEntryNode} (hb : b.InRoom spdValueCopies)
    (h : ReadFrom spdReader b n) : ReadFrom spdReaderInRoom b n := by
  obtain ⟨r, it, h⟩ := h
  obtain ⟨v, vs, hvs, hbody⟩ := body_eq_cons b
  have hname : StrCopy.hasRoom ⟨.name, b.name⟩ = true := decide_eq_true hb.name
  refine ⟨r, it, ?_⟩
  rw [spdReaderInRoom, newSpdInRoom, if_pos hname, hbody, readSpdInRoom, srGetChangeNext]
  rw [spdReader, hbody, readSpdEntry, srGetChangeNext] at h
  obtain ⟨q, hloop, h⟩ := Option.bind_eq_some_iff.mp h
  have hnoted : ∀ v n r, readSpdValue v n = some r → ∃ cs, spdValueCopies v = some cs := fun v n r hs =>
    (spdValueCopies_store hs).imp fun _ h => h.1
  have hroom : ∀ w ∈ v :: vs, ∀ cs, spdValueCopies w = some cs → ∀ c ∈ cs, HasRoom c := fun w hw cs hcs c hc =>
    hb.values c ⟨w, hvs ▸ hw, cs, hcs, hc⟩
  exact Option.bind_eq_some_iff.mpr ⟨q, readLoop_inRoom hnoted hroom hloop, h⟩

end Room

/-! ## Items -/

section Items

variable {xpath : CStr → CStr} {α ρ δ κ υ : Type} {ops : EntryOps α ρ δ} {name : α → CStr}
  {R : Block xpath → α → Prop}

/-- The entries with values are those of the configuration. -/
def SameDomain (c : Entries xpath) (cfg : Finset CStr) : Prop := ∀ x, x ∈ cfg ↔ (c x).isSome

theorem write_ne {c : Entries xpath} {i : Item xpath} {x : CStr} (h : x ≠ i.block.name) : i.write c x = c x := by
  cases i with
  | created b => exact Function.update_of_ne h ..
  | deleted b => exact Function.update_of_ne h ..

theorem sameDomain_write {c : Entries xpath} {cfg : Finset CStr} (h : SameDomain c cfg) (i : Item xpath) :
    SameDomain (i.write c) (i.commit cfg) := by
  intro x
  by_cases hx : x = i.block.name
  · subst hx
    cases i with
    | created b => simp [Item.write, Item.commit, Item.block]
    | deleted b => simp [Item.write, Item.commit, Item.block]
  · rw [write_ne hx, ← h x]
    have hne : x ∉ [i].map (·.block.name) := by simpa using hx
    exact mem_foldl_commit hne

/-- What holds of the entries of a configuration and of the created ones holds
after their items are written. -/
theorem forall_foldl_write {P : Block xpath → Prop} {c : Entries xpath} {items : List (Item xpath)}
    (hc : ∀ x b, c x = some b → P b) (hi : ∀ b, .created b ∈ items → P b) :
    ∀ x b, items.foldl Item.write c x = some b → P b := by
  induction items generalizing c with
  | nil => exact hc
  | cons i items ih =>
    refine ih (fun x b hb => ?_) fun b hb => hi b (List.mem_cons_of_mem i hb)
    by_cases hx : x = i.block.name
    · subst hx
      cases i with
      | created b' =>
        rw [Item.write, Item.block, Function.update_self] at hb
        cases hb
        exact hi b List.mem_cons_self
      | deleted b' =>
        rw [Item.write, Item.block, Function.update_self] at hb
        cases hb
    · rw [write_ne hx] at hb
      exact hc x b hb

/-- An item that is applied keeps one node for each entry. -/
theorem listed_apply (h : OpsList name ops R) {c : Entries xpath} {cfg : Finset CStr} {i : Item xpath}
    {e : CallbackEnv ρ δ} {s s' : Store α} (hd : SameDomain c cfg) (hl : Listed name R c s.entries) (hi : i.Fits cfg)
    (hr : i.apply ops e s = some (.ok (), s')) : Listed name R (i.write c) s'.entries := by
  intro x
  by_cases hx : x = i.block.name
  · subst hx
    have hold := hl i.block.name
    cases i with
    | created b =>
      have hnone : c b.name = none := by
        simpa using mt (hd b.name).mpr hi
      obtain ⟨⟨rc, it, s₁⟩, hadd, heq⟩ := Option.map_eq_some_iff.mp hr
      cases heq
      rw [Item.block, hnone] at hold
      rw [Item.write, Item.block, Function.update_self]
      exact h.add hold hadd
    | deleted b =>
      obtain ⟨b', hb'⟩ := Option.isSome_iff_exists.mp ((hd b.name).mp hi)
      rw [Item.block, hb'] at hold
      obtain ⟨n, hn, -⟩ := hold
      rw [Item.write, Item.block, Function.update_self]
      exact h.remove hn hr
  · have hsame : ofName name x s'.entries = ofName name x s.entries := (within_apply h.within e i).frame hr x hx
    rw [write_ne hx, hsame]
    exact hl x

/-- Items that are all applied keep one node for each entry. -/
theorem listed_applyItems (h : OpsList name ops R) {c : Entries xpath} {cfg : Finset CStr} {items : List (Item xpath)}
    {e : CallbackEnv ρ δ} {s s' : Store α} (hd : SameDomain c cfg) (hl : Listed name R c s.entries)
    (hn : (itemNames items).Nodup) (hi : ∀ i ∈ items, i.Fits cfg)
    (hr : applyItems ops e s items = some (.ok (), s')) :
    SameDomain (items.foldl Item.write c) (items.foldl Item.commit cfg) ∧
      Listed name R (items.foldl Item.write c) s'.entries := by
  induction items generalizing c cfg e s with
  | nil => cases hr; exact ⟨hd, hl⟩
  | cons i items ih =>
    rw [applyItems_cons] at hr
    obtain ⟨⟨rc, s₁⟩, happ, hr⟩ := Option.bind_eq_some_iff.mp hr
    cases rc with
    | error err => cases hr
    | ok u =>
      exact ih (sameDomain_write hd i) (listed_apply h hd hl (hi i List.mem_cons_self) happ)
        (List.nodup_cons.mp hn).2 (fits_tail hn hi) hr

/-- A table that mirrors a list with one node for each entry realizes them. -/
theorem realizes_of_listed [Inhabited α] {read : Reader α ρ} {rows : α → List (κ × υ)} {c : Entries xpath}
    {t : Table κ υ} {entries : List α} (hl : Listed name R c entries) (hm : Mirrors rows t entries)
    (hR : ∀ x b n, c x = some b → R b n → ∃ m, ReadFrom read b m ∧ rows m = rows n) : Realizes read rows c t := by
  have hnode : ∀ x, ∃ m, ∀ b, c x = some b → ReadFrom read b m ∧ ∃ n, ofName name x entries = [n] ∧ rows m = rows n := by
    intro x
    have hx := hl x
    cases hc : c x with
    | none => exact ⟨default, fun b hb => (by cases hb)⟩
    | some b =>
      rw [hc] at hx
      obtain ⟨n, hn, hRn⟩ := hx
      obtain ⟨m, hm, hrows⟩ := hR x b n hc hRn
      exact ⟨m, fun b' hb' => Option.some.inj hb' ▸ ⟨hm, n, hn, hrows⟩⟩
  choose node hnode using hnode
  refine ⟨node, fun x b hb => (hnode x b hb).1, fun k v => ?_⟩
  rw [hm.mem_iff, List.mem_flatMap]
  constructor
  · rintro ⟨n, hn, hkv⟩
    have hmem : n ∈ ofName name (name n) entries := List.mem_filter.mpr ⟨hn, decide_eq_true rfl⟩
    have hx := hl (name n)
    cases hc : c (name n) with
    | none =>
      rw [hc] at hx
      rw [hx] at hmem
      cases hmem
    | some b =>
      obtain ⟨-, n', hn', hrows⟩ := hnode (name n) b hc
      rw [hn', List.mem_singleton] at hmem
      exact ⟨name n, b, hc, by rwa [hrows, ← hmem]⟩
  · rintro ⟨x, b, hc, hkv⟩
    obtain ⟨-, n, hn, hrows⟩ := hnode x b hc
    have hmem : n ∈ ofName name x entries := hn ▸ List.mem_singleton_self n
    exact ⟨n, (List.mem_filter.mp hmem).1, hrows ▸ hkv⟩

end Items

/-! ## Transactions -/

section Kernel

variable {σ τ : Type} {K : Kernel σ τ}

/-- The lists have one node for each entry of the configuration, and the kernel
follows them. -/
structure FollowsContents (K : Kernel σ τ) (c : Contents) (s : System) : Prop where
  kernel : KernelFollows K s
  spdDomain : SameDomain c.spd s.config.spd
  sadDomain : SameDomain c.sad s.config.sad
  spd : Listed (·.name) ReadUnindexed c.spd s.spd.entries
  sad : Listed (·.name) (ReadFrom sadReader) c.sad s.sad.entries
  spdRoom : ∀ x b, c.spd x = some b → b.InRoom spdValueCopies
  sadRoom : ∀ x b, c.sad x = some b → b.InRoom sadValueCopies

theorem FollowsContents.start (hK : K.Lawful) : FollowsContents K .start .start where
  kernel := kernelFollows_start hK
  spdDomain x := by simp [Contents.start, System.start]
  sadDomain x := by simp [Contents.start, System.start]
  spd _ := rfl
  sad _ := rfl
  spdRoom x b h := by cases h
  sadRoom x b h := by cases h

theorem FollowsContents.step (hK : K.Lawful) {c : Contents} {s s' : System} {t : Transaction}
    (hs : FollowsContents K c s) (ht : t.Fits s ∧ t.Accepted s ∧ t.Taken K s ∧ t.InRoom) (h : s.step t = some s') :
    FollowsContents K (c.commit t) s' := by
  obtain ⟨hfits, haccepted, htaken, hroom⟩ := ht
  have hkernel := kernelFollows_step hK hs.kernel ⟨hfits, haccepted, htaken⟩ h
  obtain ⟨spd, hspd⟩ := (accepted_iff hfits.oneList hfits.spdItems).mp haccepted
  rcases system_step_cases hfits.oneList hfits.spdItems hfits.sadItems h with
    ⟨err, hrun, -, -⟩ | ⟨hrun, rc, hsad, hcfg⟩
  · rw [hspd] at hrun
    cases hrun
  · obtain ⟨rfl, -⟩ := applyItems_sad_ok hs.kernel.lists.sad hfits.sadItems.names hfits.sad hsad
    rcases hcfg with ⟨-, hcfg⟩ | ⟨hne, -⟩
    · obtain ⟨hspdDomain, hspdList⟩ :=
        listed_applyItems opsList_spd hs.spdDomain hs.spd hfits.spdItems.names hfits.spd hrun
      obtain ⟨hsadDomain, hsadList⟩ :=
        listed_applyItems opsList_sad hs.sadDomain hs.sad hfits.sadItems.names hfits.sad hsad
      exact ⟨hkernel, hcfg ▸ hspdDomain, hcfg ▸ hsadDomain, hspdList, hsadList,
        forall_foldl_write hs.spdRoom hroom.spd, forall_foldl_write hs.sadRoom hroom.sad⟩
    · exact absurd rfl hne

/-- From the values of the configuration down to the kernel: after accepted
transactions whose requests the kernel accepts, which ask for just what their
entries are, and whose strings have room, the kernel has, for each committed
entry, the policies and the SA, with its keys, that its values are read as, and
no others. -/
theorem kernel_realizes (hK : K.Lawful) {ts : List Transaction} {s : System}
    (ht : Along System.step (fun s t => t.Fits s ∧ t.Accepted s ∧ t.Taken K s ∧ t.InRoom) ts .start)
    (h : run System.step ts .start = some s) : KernelRealizes K (ts.foldl Contents.commit .start) s := by
  have hs : FollowsContents K (ts.foldl Contents.commit .start) s :=
    run_fold_along (fun hs hc h => hs.step hK hc h) (.start hK) ht h
  refine ⟨realizes_of_listed hs.spd hs.kernel.policies ?_, realizes_of_listed hs.sad hs.kernel.sas ?_⟩
  · rintro x b n hb ⟨m, hm, hsame⟩
    exact ⟨m, spdReader_inRoom (hs.spdRoom x b hb) hm, (spRows_congr hsame).symm⟩
  · exact fun x b n hb hn => ⟨n, sadReader_inRoom (hs.sadRoom x b hb) hn, rfl⟩

end Kernel

/-- The strings of both entries have room. -/
theorem inRoom_gwCreations : ∀ t ∈ gwCreations, t.InRoom := by
  have hspd : gwPolicyBlock.InRoom spdValueCopies :=
    ⟨by decide +kernel, fun c hc => List.forall_iff_forall_mem.mp (by decide +kernel) c (copies_iff.mp hc)⟩
  have hsad : gwSaBlock.InRoom sadValueCopies :=
    ⟨by decide +kernel, fun c hc => List.forall_iff_forall_mem.mp (by decide +kernel) c (copies_iff.mp hc)⟩
  intro t ht
  rcases List.mem_pair.mp ht with rfl | rfl
  · refine ⟨fun b hb => ?_, fun b hb => ?_⟩
    · rw [spd_creation] at hb
      cases List.mem_singleton.mp hb
      exact hspd
    · rw [sad_creation] at hb
      cases hb
  · refine ⟨fun b hb => ?_, fun b hb => ?_⟩
    · rw [spd_creation] at hb
      cases hb
    · rw [sad_creation] at hb
      cases List.mem_singleton.mp hb
      exact hsad

/-- The kernel has what the values of the first entries say. -/
theorem kernel_realizes_gw : KernelRealizes pfKernel (gwCreations.foldl Contents.commit .start) gwEstablished := by
  refine kernel_realizes pfKernel_lawful (fun s hs => ?_) run_gwCreations
  obtain ⟨⟨hfits, haccepted, htaken⟩, hrest⟩ := along_gwCreations s hs
  refine ⟨⟨hfits, haccepted, htaken, inRoom_gwCreations _ List.mem_cons_self⟩, fun s' hs' => ?_⟩
  obtain ⟨⟨hfits, haccepted, htaken⟩, -⟩ := hrest s' hs'
  exact ⟨⟨hfits, haccepted, htaken, inRoom_gwCreations _ (List.mem_cons_of_mem _ List.mem_cons_self)⟩, trivial⟩

end CfgIpsec.Proof
