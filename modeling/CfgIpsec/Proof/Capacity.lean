import CfgIpsec.Proof.Addresses
import CfgIpsec.Proof.SpdSettings
import CfgIpsec.Spec.Capacity

/-!
# The strings of an entry in the buffers of its node

A reader that notes its copies reads as before, and what it noted is in the
buffers (`addSadCopies_read`, `addSpdCopies_read`). Of the values of an entry it
copies each prefix, each end of a tunnel and each key and IV, and these have room
when they fit (`sadCopies_room`, `spdCopies_room`): for an IPv4 prefix or address
that is always so, for the others when they are not too long (`strings_fit_iff`).
-/

namespace CfgIpsec.Proof

open Impl Spec Pattern
open CStr (lit)

/-! ## Noted copies -/

section Noted

variable {α ι : Type} {store : SrVal → α → Option (Stored α)} {copies : SrVal → Option (List StrCopy)}

theorem afterCopies_append (b : NodeBuffer) (old : CStr) (cs ds : List StrCopy) :
    afterCopies b old (cs ++ ds) = afterCopies b (afterCopies b old cs) ds := List.foldl_append

/-- Copies are noted of every value that is stored. -/
theorem noteCopies_fst (h : ∀ v n r, store v n = some r → ∃ cs, copies v = some cs) (v : SrVal) (n : Copied α) :
    store v n.1 = (noteCopies copies store v n).map (Stored.map Prod.fst) := by
  rw [noteCopies]
  cases hs : store v n.1 with
  | none => cases copies v <;> rfl
  | some r =>
    obtain ⟨cs, hcs⟩ := h v n.1 r hs
    rw [hcs]
    cases r <;> rfl

/-- What a value leaves in the buffers is what was noted for it. -/
theorem noteCopies_string {string : NodeBuffer → α → CStr}
    (h : ∀ v n r cs, store v n = some r → copies v = some cs → ∀ b,
      string b (Stored.node r) = afterCopies b (string b n) cs)
    {old : α} (v : SrVal) (n : Copied α) (r : Stored (Copied α)) (hr : noteCopies copies store v n = some r)
    (hn : ∀ b, string b n.1 = afterCopies b (string b old) n.2) (b : NodeBuffer) :
    string b (Stored.node r).1 = afterCopies b (string b old) (Stored.node r).2 := by
  obtain ⟨cs, hcs, hr⟩ := Option.bind_eq_some_iff.mp hr
  obtain ⟨m, hs, hr⟩ := Option.bind_eq_some_iff.mp hr
  have hm := h v n.1 m cs hs hcs b
  rw [hn, ← afterCopies_append] at hm
  cases m <;> cases hr <;> exact hm

/-- The strings of the node that is read are the copies noted for it. -/
theorem readerCopies_read (string : NodeBuffer → α → CStr)
    (hnoted : ∀ v n r, store v n = some r → ∃ cs, copies v = some cs)
    (hstring : ∀ v n r cs, store v n = some r → copies v = some cs → ∀ b,
      string b (Stored.node r) = afterCopies b (string b n) cs)
    {xpath : CStr} {c : SrChange} {it it' : SrChangeIter} {n : α} {r : Stored α}
    (hr : readLoop store xpath c it n = some (it', r)) {old : α} {noted : List StrCopy}
    (hn : ∀ b, string b n = afterCopies b (string b old) noted) :
    ∃ cs, readerCopies copies store (.ok c :: it) xpath (n, noted) = some cs ∧
      ∀ b, string b (Stored.node r) = afterCopies b (string b old) cs := by
  have hcomm := readLoop_comm (f := Prod.fst) (noteCopies_fst hnoted) xpath c it (n, noted)
  rw [hr] at hcomm
  obtain ⟨⟨it₁, r₁⟩, hloop, heq⟩ := Option.map_eq_some_iff.mp hcomm.symm
  cases heq
  have hkeep := readLoop_keeps (P := fun m : Copied α => ∀ b, string b m.1 = afterCopies b (string b old) m.2)
    (noteCopies_string hstring) hloop hn
  refine ⟨(Stored.node r₁).2, ?_, ?_⟩
  · rw [readerCopies, srGetChangeNext]
    refine Option.bind_eq_some_iff.mpr ⟨_, hloop, ?_⟩
    cases r₁ <;> rfl
  · cases r₁ <;> exact hkeep

/-- With the copies noted, values are stored as without. -/
theorem storeAll_noteCopies {value : ι → SrVal} {cs : ι → List StrCopy} (hcs : ∀ i, copies (value i) = some (cs i))
    {is : List ι} {n m : α} (hm : storeAll (fun i => store (value i)) is n = some m) (noted : List StrCopy) :
    storeAll (fun i => noteCopies copies store (value i)) is (n, noted) = some (m, noted ++ is.flatMap cs) := by
  induction is generalizing n noted with
  | nil =>
    cases hm
    rw [List.flatMap_nil, List.append_nil]
    rfl
  | cons i is ih =>
    obtain ⟨m₁, hs, hm⟩ := storeAll_cons.mp hm
    have hi : noteCopies copies store (value i) (n, noted) = some (.next (m₁, noted ++ cs i)) := by
      rw [noteCopies, hcs]
      simp only [Option.bind_eq_bind, Option.bind_some, hs]
      rfl
    refine storeAll_cons.mpr ⟨_, hi, ?_⟩
    rw [ih hm, List.flatMap_cons, List.append_assoc]

/-- The copies for a block of which all values are stored. -/
theorem readerCopies_block {xpath : CStr} {value : ι → SrVal} {cs : ι → List StrCopy}
    (hx : ∀ i, startsWith (value i).xpath xpath = true) (hcs : ∀ i, copies (value i) = some (cs i)) {is : List ι}
    {n m : α} (hm : storeAll (fun i => store (value i)) is n = some m) (noted : List StrCopy) :
    readerCopies copies store (is.map fun i => .ok (value i).created) xpath (n, noted) =
      some (noted ++ is.flatMap cs) := by
  by_cases hne : is = []
  · subst hne
    rw [List.flatMap_nil, List.append_nil]
    rfl
  · obtain ⟨c, it, hblock, hloop⟩ := readLoop_block hne hx (storeAll_noteCopies hcs hm noted)
    rw [readerCopies, hblock, srGetChangeNext]
    exact Option.bind_eq_some_iff.mpr ⟨_, hloop, rfl⟩

end Noted

/-! ## What the readers copy -/

theorem sadLeaf_copies {leaf : SadLeaf} {has : CStr → Bool} {d : SrData} {n : SadEntryNode} {r : Stored SadEntryNode}
    (h : leaf.store has d n = some r) :
    ∃ cs, leaf.copies has d = some cs ∧ ∀ b, sadString b (Stored.node r) = afterCopies b (sadString b n) cs := by
  cases leaf
  case localPrefix | remotePrefix | localEnd | remoteEnd | iv =>
    obtain ⟨x, hx, h⟩ := Option.bind_eq_some_iff.mp h
    cases h
    refine ⟨_, Option.bind_eq_some_iff.mpr ⟨x, hx, rfl⟩, fun b => ?_⟩
    cases b <;> rfl
  case mode | dfBit | protocolParameters =>
    obtain ⟨x, -, h⟩ := Option.bind_eq_some_iff.mp h
    refine ⟨[], rfl, fun b => ?_⟩
    repeat' split at h
    all_goals
      cases h
      cases b <;> rfl
  case innerProtocol =>
    refine ⟨[], rfl, fun b => ?_⟩
    rw [SadLeaf.store] at h
    split at h
    · cases h
      cases b <;> rfl
    · obtain ⟨x, -, h⟩ := Option.bind_eq_some_iff.mp h
      split at h <;> cases h <;> cases b <;> rfl
  case start =>
    refine ⟨[], rfl, fun b => ?_⟩
    rw [SadLeaf.store] at h
    cases h
    split <;> split <;> cases b <;> rfl
  case key =>
    rw [SadLeaf.store] at h
    rw [SadLeaf.copies]
    cases hc : copyHex d <;> cases he : has (lit "/encryption") <;> cases hi : has (lit "/integrity") <;>
      simp only [hc, he, hi] at h ⊢ <;> cases h
    all_goals
      refine ⟨_, rfl, fun b => ?_⟩
      cases b <;> rfl
  case time | bytes | packets | idle =>
    refine ⟨[], rfl, fun b => ?_⟩
    cases h
    rw [storeLifetime]
    split
    · cases b <;> rfl
    · split <;> cases b <;> rfl
  all_goals
    cases h
    refine ⟨[], rfl, fun b => ?_⟩
    cases b <;> rfl

theorem spdLeaf_copies {leaf : SpdLeaf} {has : CStr → Bool} {d : SrData} {n : SpdEntryNode} {r : Stored SpdEntryNode}
    (h : leaf.store has d n = some r) :
    ∃ cs, leaf.copies d = some cs ∧ ∀ b, spdString b (Stored.node r) = afterCopies b (spdString b n) cs := by
  cases leaf
  case localPrefix | remotePrefix | localEnd | remoteEnd =>
    obtain ⟨x, hx, h⟩ := Option.bind_eq_some_iff.mp h
    cases h
    refine ⟨_, Option.bind_eq_some_iff.mpr ⟨x, hx, rfl⟩, fun b => ?_⟩
    cases b <;> rfl
  case direction | action | mode | dfBit | protocolParameters =>
    obtain ⟨x, -, h⟩ := Option.bind_eq_some_iff.mp h
    refine ⟨[], rfl, fun b => ?_⟩
    repeat' split at h
    all_goals
      cases h
      cases b <;> rfl
  case innerProtocol =>
    refine ⟨[], rfl, fun b => ?_⟩
    rw [SpdLeaf.store] at h
    split at h
    · cases h
      cases b <;> rfl
    · obtain ⟨x, -, h⟩ := Option.bind_eq_some_iff.mp h
      split at h <;> cases h <;> cases b <;> rfl
  case start =>
    refine ⟨[], rfl, fun b => ?_⟩
    rw [SpdLeaf.store] at h
    cases h
    split <;> split <;> cases b <;> rfl
  all_goals
    cases h
    refine ⟨[], rfl, fun b => ?_⟩
    cases b <;> rfl

theorem sadValueCopies_store {v : SrVal} {n : SadEntryNode} {r : Stored SadEntryNode}
    (h : readSadValue v n = some r) :
    ∃ cs, sadValueCopies v = some cs ∧ ∀ b, sadString b (Stored.node r) = afterCopies b (sadString b n) cs := by
  obtain ⟨last, hlast, h⟩ := Option.bind_eq_some_iff.mp h
  rw [sadValueCopies, hlast]
  simp only [Option.bind_eq_bind, Option.bind_some]
  cases hl : sadLeafOf last with
  | none =>
    rw [hl] at h
    cases h
    exact ⟨[], rfl, fun b => rfl⟩
  | some leaf =>
    rw [hl] at h
    exact sadLeaf_copies h

theorem spdValueCopies_store {v : SrVal} {n : SpdEntryNode} {r : Stored SpdEntryNode}
    (h : readSpdValue v n = some r) :
    ∃ cs, spdValueCopies v = some cs ∧ ∀ b, spdString b (Stored.node r) = afterCopies b (spdString b n) cs := by
  obtain ⟨last, hlast, h⟩ := Option.bind_eq_some_iff.mp h
  rw [spdValueCopies, hlast]
  simp only [Option.bind_eq_bind, Option.bind_some]
  cases hl : spdLeafOf last with
  | none =>
    rw [hl] at h
    cases h
    exact ⟨[], rfl, fun b => rfl⟩
  | some leaf =>
    rw [hl] at h
    exact spdLeaf_copies h

/-- The strings of a SAD node that was read are the copies of `addSAD_entry`. -/
theorem addSadCopies_read {malloc n : SadEntryNode} {it it' : SrChangeIter} {c : SrChange} {xpath name : CStr} {rc : Rc}
    (h : readSadEntry (.ok c :: it) xpath ((createSadNode malloc).setName name) = some (rc, it', n)) :
    ∃ cs, addSadCopies malloc (.ok c :: it) xpath name = some cs ∧
      ∀ b, sadString b n = afterCopies b (sadString b malloc) cs := by
  rw [readSadEntry, srGetChangeNext] at h
  obtain ⟨⟨it₁, r⟩, hloop, h⟩ := Option.bind_eq_some_iff.mp h
  have hr : Stored.node r = n := by cases r <;> cases h <;> rfl
  subst hr
  refine readerCopies_read sadString (fun v n r hs => (sadValueCopies_store hs).imp fun _ h => h.1)
    (fun v n r cs hs hcs => ?_) hloop fun b => ?_
  · obtain ⟨ds, hds, hb⟩ := sadValueCopies_store hs
    rw [hcs] at hds
    cases hds
    exact hb
  · cases b <;> rfl

/-- The strings of a SPD node that was read are the copies of `addSPD_entry`. -/
theorem addSpdCopies_read {entries : List SpdEntryNode} {malloc n : SpdEntryNode} {it it' : SrChangeIter} {c : SrChange}
    {xpath name : CStr} {rc : Rc} (hnew : getSpdNode entries name = none)
    (h : readSpdEntry (.ok c :: it) xpath ((createSpdNode malloc).setName name) = some (rc, it', n)) :
    ∃ cs, addSpdCopies entries malloc (.ok c :: it) xpath name = some cs ∧
      ∀ b, spdString b n = afterCopies b (spdString b malloc) cs := by
  rw [readSpdEntry, srGetChangeNext] at h
  obtain ⟨⟨it₁, r⟩, hloop, h⟩ := Option.bind_eq_some_iff.mp h
  have hr : Stored.node r = n := by cases r <;> cases h <;> rfl
  subst hr
  rw [addSpdCopies, hnew]
  refine readerCopies_read spdString (fun v n r hs => (spdValueCopies_store hs).imp fun _ h => h.1)
    (fun v n r cs hs hcs => ?_) hloop fun b => ?_
  · obtain ⟨ds, hds, hb⟩ := spdValueCopies_store hs
    rw [hcs] at hds
    cases hds
    exact hb
  · cases b <;> rfl

theorem copies_iff {xpath : CStr → CStr} {copies : SrVal → Option (List StrCopy)} {b : Block xpath} {c : StrCopy} :
    Copies copies b c ↔ c ∈ (b.values.filterMap copies).flatten := by
  simp only [Copies, List.mem_flatten, List.mem_filterMap]
  constructor
  · rintro ⟨v, hv, cs, hcs, hc⟩
    exact ⟨cs, ⟨v, hv, hcs⟩, hc⟩
  · rintro ⟨cs, ⟨v, hv, hcs⟩, hc⟩
    exact ⟨v, hv, cs, hcs, hc⟩

/-! ## Room -/

/-- How the values of a node are copied. -/
inductive Kind
  | subnet
  | tunnel
  | hex
  | other

/-- The node is of that kind and of no other. -/
def isKind (node : SchemaNode) : Kind → Bool
  | .subnet => node.isPrefix && !node.isEnd && node.type ≠ .hexString
  | .tunnel => !node.isPrefix && node.isEnd && node.type ≠ .hexString
  | .hex => !node.isPrefix && !node.isEnd && node.type = .hexString
  | .other => !node.isPrefix && !node.isEnd && node.type ≠ .hexString

/-- The values of a kind that fit. -/
def Kind.Fits (d : SrData) : Kind → Prop
  | .subnet => ∀ t, d.text = some t → ¬IsIpv4Prefix t → strlen t ≤ 39
  | .tunnel => ∀ t, d.text = some t → ¬IsIpv4NoZone t → strlen t ≤ 39
  | .hex => strlen (.ofBuf (keyBytes d)) < 1024
  | .other => True

theorem fits_iff {node : SchemaNode} {d : SrData} {k : Kind} (hk : isKind node k = true) : node.Fits d ↔ k.Fits d := by
  have hparts : node.Fits d ↔
      (node.isPrefix = true → Kind.subnet.Fits d) ∧ (node.isEnd = true → Kind.tunnel.Fits d) ∧
        (node.type = .hexString → Kind.hex.Fits d) :=
    ⟨fun h => ⟨h.subnet, h.tunnel, h.hex⟩, fun h => ⟨h.1, h.2.1, h.2.2⟩⟩
  rw [hparts]
  cases k <;>
    simp only [isKind, Bool.and_eq_true, Bool.not_eq_true', decide_eq_true_eq] at hk <;>
    obtain ⟨⟨hp, he⟩, hh⟩ := hk <;>
    simp [hp, he, hh, Kind.Fits]

theorem length_ipv4Prefix {t : CStr} (h : IsIpv4Prefix t) : strlen t ≤ 18 := by
  obtain ⟨addr, len, hdot, hlen, ht⟩ := ipv4Prefix_text h
  have haddr := length_dotted_le hdot
  have hdec : (decimal len).length ≤ 2 := length_decimal_le (by omega) (by omega)
  rw [strlen, ht, List.length_append, List.length_cons]
  omega

theorem length_ipv4NoZone {t : CStr} (h : IsIpv4NoZone t) : strlen t ≤ 15 := length_dotted_le (quadPat_text h)

/-- A text has room when it is one of those that are short or is not too long. -/
theorem text_room {short : CStr → Prop} (hshort : ∀ t, short t → strlen t ≤ 39) {d : SrData} {t : CStr}
    (ht : d.text = some t) {b : NodeBuffer} (hb : b.capacity = MAX_IP) :
    HasRoom ⟨b, t⟩ ↔ ∀ t', d.text = some t' → ¬short t' → strlen t' ≤ 39 := by
  rw [HasRoom, hb, MAX_IP]
  constructor
  · intro hroom t' ht' _
    rw [ht] at ht'
    cases ht'
    exact Nat.le_of_lt_succ hroom
  · intro hfits
    by_cases hs : short t
    · exact Nat.lt_succ_of_le (hshort t hs)
    · exact Nat.lt_succ_of_le (hfits t ht hs)

section Room

variable {node : SchemaNode} {d : SrData}

theorem subnet_room (hk : isKind node .subnet = true) (hv : node.Valid d) :
    ∃ t, d.stringVal = some t ∧ ∀ b : NodeBuffer, b.capacity = MAX_IP → (HasRoom ⟨b, t⟩ ↔ node.Fits d) := by
  have hp : node.isPrefix = true := by
    rw [isKind, Bool.and_eq_true, Bool.and_eq_true] at hk
    exact hk.1.1
  obtain ⟨t, ht, -⟩ := hv.subnet hp
  refine ⟨t, ht, fun b hb => ?_⟩
  rw [fits_iff hk]
  exact text_room (fun t h => (length_ipv4Prefix h).trans (by omega)) ht hb

theorem tunnel_room (hk : isKind node .tunnel = true) (hv : node.Valid d) :
    ∃ t, d.stringVal = some t ∧ ∀ b : NodeBuffer, b.capacity = MAX_IP → (HasRoom ⟨b, t⟩ ↔ node.Fits d) := by
  have he : node.isEnd = true := by
    rw [isKind, Bool.and_eq_true, Bool.and_eq_true] at hk
    exact hk.1.2
  obtain ⟨t, ht, -⟩ := hv.tunnel he
  refine ⟨t, ht, fun b hb => ?_⟩
  rw [fits_iff hk]
  exact text_room (fun t h => (length_ipv4NoZone h).trans (by omega)) ht hb

theorem hex_room (hk : isKind node .hex = true) (hadm : node.type.admits d = true) :
    ∃ t, copyHex d = some t ∧ ∀ b : NodeBuffer, b.capacity = MAX_KEY → (HasRoom ⟨b, t⟩ ↔ node.Fits d) := by
  have ht : node.type = .hexString := by
    rw [isKind, Bool.and_eq_true] at hk
    exact of_decide_eq_true hk.2
  refine ⟨_, copyHex_keyBytes (ht ▸ hadm), fun b hb => ?_⟩
  rw [fits_iff hk, HasRoom, hb]
  exact Nat.lt_iff_add_one_le.symm

/-- What has room in all buffers of a capacity has room as the only copy. -/
theorem copied_room {text : Option CStr} {capacity : Nat} {p : Prop}
    (h : ∃ t, text = some t ∧ ∀ b : NodeBuffer, b.capacity = capacity → (HasRoom ⟨b, t⟩ ↔ p)) {b : NodeBuffer}
    (hb : b.capacity = capacity) :
    ∃ cs, (text.bind fun t => some [⟨b, t⟩]) = some cs ∧ ((∀ c ∈ cs, HasRoom c) ↔ p) := by
  obtain ⟨t, ht, hroom⟩ := h
  refine ⟨_, Option.bind_eq_some_iff.mpr ⟨t, ht, rfl⟩, ?_⟩
  rw [List.forall_mem_singleton]
  exact hroom b hb

theorem other_room (hk : isKind node .other = true) : (∀ c ∈ ([] : List StrCopy), HasRoom c) ↔ node.Fits d := by
  rw [fits_iff hk]
  exact iff_of_true (List.forall_mem_nil _) trivial

end Room

/-! ## Settings -/

/-- The kind of the values the reader takes for a leaf. -/
def sadKind : SadLeaf → Kind
  | .localPrefix | .remotePrefix => .subnet
  | .localEnd | .remoteEnd => .tunnel
  | .iv | .key => .hex
  | _ => .other

theorem sadSchema_kinds :
    sadSchema.all (fun node => isKind node ((nodeLeaf node).elim .other sadKind)) = true := by decide +kernel

theorem key_copies {has : CStr → Bool} {d : SrData} {t : CStr} (ht : copyHex d = some t) :
    SadLeaf.key.copies has d = some ((if has (lit "/encryption") then [⟨.encryptionKey, t⟩] else []) ++
      if has (lit "/integrity") then [⟨.integrityKey, t⟩] else []) := by
  rw [SadLeaf.copies, ht]
  cases has (lit "/encryption") <;> cases has (lit "/integrity") <;> rfl

/-- The copies for a leaf have room when its value fits; a key is copied at least
once. -/
theorem sadLeaf_room {leaf : SadLeaf} {has : CStr → Bool} {node : SchemaNode} {d : SrData}
    (hk : isKind node (sadKind leaf) = true) (hv : node.Valid d) (hadm : node.type.admits d = true)
    (hkey : leaf = .key → has (lit "/encryption") = true ∨ has (lit "/integrity") = true) :
    ∃ cs, leaf.copies has d = some cs ∧ ((∀ c ∈ cs, HasRoom c) ↔ node.Fits d) := by
  cases leaf
  case localPrefix | remotePrefix => exact copied_room (subnet_room hk hv) rfl
  case localEnd | remoteEnd => exact copied_room (tunnel_room hk hv) rfl
  case iv => exact copied_room (hex_room hk hadm) rfl
  case key =>
    obtain ⟨t, ht, hroom⟩ := hex_room hk hadm
    have henc := hroom .encryptionKey rfl
    have hint := hroom .integrityKey rfl
    refine ⟨_, key_copies ht, ?_⟩
    rcases hkey rfl with h | h
    · rw [if_pos h]
      split <;> simp [henc, hint]
    · rw [if_pos h]
      split <;> simp [henc, hint]
  all_goals exact ⟨[], rfl, other_room hk⟩

/-- What is found in the end of an xpath is found in the xpath. -/
theorem strstr_append {x y m : CStr} (h : strstr y m = true) : strstr (x ++ y) m = true := by
  rw [strstr, hasInfix_iff] at h ⊢
  exact h.trans (List.suffix_append ..).isInfix

/-- The copies for a value of a SAD entry have room when it fits. -/
theorem sadCopies_at (x : CStr) {node : SchemaNode} (hmem : node ∈ sadSchema) {keys : List CStr}
    (hkeys : ∀ k ∈ keys, (0x2f : Byte) ∉ k.bytes) {d : SrData} (hadm : node.type.admits d = true) (hv : node.Valid d) :
    ∃ cs, sadValueCopies ⟨d, x ++ pathOf node.steps keys⟩ = some cs ∧ ((∀ c ∈ cs, HasRoom c) ↔ node.Fits d) := by
  obtain ⟨last, hlast, hleaf⟩ := sadLeafOf_at x hmem hkeys
  have hk := List.all_eq_true.mp sadSchema_kinds node hmem
  rw [sadValueCopies, show strrchr (x ++ pathOf node.steps keys) 0x2f = some last from hlast]
  simp only [Option.bind_eq_bind, Option.bind_some, hleaf]
  cases hl : nodeLeaf node with
  | none =>
    rw [hl] at hk
    exact ⟨[], rfl, other_room hk⟩
  | some leaf =>
    rw [hl] at hk
    refine sadLeaf_room hk hv hadm fun hkey => ?_
    subst hkey
    obtain ⟨u, rfl⟩ := keyNode_of_leaf hmem hl
    have hpath : strstr (pathOf (keyNode u).steps keys) u.marker = true := by
      rw [keyNode_path, decide_eq_true rfl]
    cases u with
    | encryption => exact .inl (strstr_append hpath)
    | integrity => exact .inr (strstr_append hpath)

theorem sadCopies_room (name : CStr) {s : Setting} (hv : s.node.Valid s.data) :
    ∃ cs, sadValueCopies (s.value name) = some cs ∧ ((∀ c ∈ cs, HasRoom c) ↔ s.node.Fits s.data) :=
  sadCopies_at _ s.mem s.noSlash s.admits hv

/-- As for a SAD entry. -/
def spdKind : SpdLeaf → Kind
  | .localPrefix | .remotePrefix => .subnet
  | .localEnd | .remoteEnd => .tunnel
  | _ => .other

/-- A node of the SPD is of the kind of its leaf; the list instances that are
taken for a leaf found by a search are of no kind. -/
theorem spdSchema_kinds :
    spdSchema.all (fun node =>
      match node.steps.getLast? with
      | some (.child name) => isKind node ((spdLeafOf (lit "/" ++ name)).elim .other spdKind)
      | _ => isKind node .other) = true := by
  decide +kernel

theorem spdKind_at (name : CStr) (s : SpdSetting) : isKind s.node ((spdLeafAt name s).elim .other spdKind) = true := by
  have hk := List.all_eq_true.mp spdSchema_kinds s.node s.mem
  obtain ⟨st, -, -, hst, -⟩ := strrchr_spdSetting name s
  rw [hst] at hk
  cases st with
  | child x =>
    rw [spdLeafAt_of_child hst]
    exact hk
  | item x =>
    cases hl : spdLeafAt name s with
    | none => exact hk
    | some leaf =>
      have hs := (spdLeafAt_of_item hst hl).1
      cases leaf
      case integrity | encryption => exact hk
      all_goals cases hs

theorem spdLeaf_room {leaf : SpdLeaf} {node : SchemaNode} {d : SrData} (hk : isKind node (spdKind leaf) = true)
    (hv : node.Valid d) : ∃ cs, leaf.copies d = some cs ∧ ((∀ c ∈ cs, HasRoom c) ↔ node.Fits d) := by
  cases leaf
  case localPrefix | remotePrefix => exact copied_room (subnet_room hk hv) rfl
  case localEnd | remoteEnd => exact copied_room (tunnel_room hk hv) rfl
  all_goals exact ⟨[], rfl, other_room hk⟩

/-- The copies for a SPD setting have room when its value fits. -/
theorem spdCopies_room (name : CStr) {s : SpdSetting} (hv : s.node.Valid s.data) :
    ∃ cs, spdValueCopies (s.value name) = some cs ∧ ((∀ c ∈ cs, HasRoom c) ↔ s.node.Fits s.data) := by
  obtain ⟨st, last, rest, -, hlast, -⟩ := strrchr_spdSetting name s
  have hat : spdLeafAt name s = spdLeafOf last := by rw [spdLeafAt, hlast, Option.bind_some]
  have hk := spdKind_at name s
  rw [hat] at hk
  rw [spdValueCopies, hlast]
  simp only [Option.bind_eq_bind, Option.bind_some]
  cases hl : spdLeafOf last with
  | none =>
    rw [hl] at hk
    exact ⟨[], rfl, other_room hk⟩
  | some leaf =>
    rw [hl] at hk
    exact spdLeaf_room hk hv

/-! ## Reading in the room there is -/

section InRoom

variable {α ι : Type} {copies : SrVal → Option (List StrCopy)} {store : SrVal → α → Option (Stored α)}
  {value : ι → SrVal} {fits : ι → Prop}

theorem all_hasRoom_iff {cs : List StrCopy} : cs.all StrCopy.hasRoom = true ↔ ∀ c ∈ cs, HasRoom c := by
  rw [List.all_eq_true]
  exact forall₂_congr fun c _ => decide_eq_true_iff

/-- A value is stored as without regard to the room exactly when it fits. -/
theorem inRoom_eq_some_iff {v : SrVal} {p : Prop}
    (h : ∃ cs, copies v = some cs ∧ ((∀ c ∈ cs, HasRoom c) ↔ p)) (n : α) (r : Stored α) :
    inRoom copies store v n = some r ↔ p ∧ store v n = some r := by
  obtain ⟨cs, hcs, hp⟩ := h
  rw [inRoom, hcs, ← hp, ← all_hasRoom_iff]
  simp only [Option.bind_eq_bind, Option.bind_some]
  split
  · rename_i hroom
    exact (and_iff_right hroom).symm
  · rename_i hroom
    exact iff_of_false (fun h => (by cases h)) fun h => hroom h.1

/-- So it is for values one after the other. -/
theorem foldlM_inRoom {is : List ι} (h : ∀ i ∈ is, ∃ cs, copies (value i) = some cs ∧ ((∀ c ∈ cs, HasRoom c) ↔ fits i))
    (n m : α) :
    is.foldlM (fun n i => (inRoom copies store (value i) n).bind Stored.next?) n = some m ↔
      (∀ i ∈ is, fits i) ∧ is.foldlM (fun n i => (store (value i) n).bind Stored.next?) n = some m := by
  induction is generalizing n with
  | nil => exact (and_iff_right (List.forall_mem_nil _)).symm
  | cons i is ih =>
    obtain ⟨hi, his⟩ := List.forall_mem_cons.mp h
    rw [List.foldlM_cons, List.foldlM_cons, List.forall_mem_cons]
    simp only [Option.bind_eq_bind, Option.bind_eq_some_iff, inRoom_eq_some_iff hi, ih his]
    exact ⟨fun ⟨n₁, ⟨r, ⟨hfits, hs⟩, hr⟩, hrest, hm⟩ => ⟨⟨hfits, hrest⟩, n₁, ⟨r, hs, hr⟩, hm⟩,
      fun ⟨⟨hfits, hrest⟩, n₁, ⟨r, hs, hr⟩, hm⟩ => ⟨n₁, ⟨r, ⟨hfits, hs⟩, hr⟩, hrest, hm⟩⟩

end InRoom

/-- `readSAD_entry` has room for changes that it does not give up at exactly when
their values fit, and then reads them as it does. -/
theorem readSadInRoom_eq_some_iff {ι : Type} {xpath : CStr} {change : ι → SrChange} {value : ι → SrVal}
    {fits : ι → Prop} (hvalue : ∀ i, (change i).value = some (value i))
    (hx : ∀ i, startsWith (value i).xpath xpath = true) {is : List ι}
    (hnext : ∀ i ∈ is, ∀ n m, readSadValue (value i) n ≠ some (.reject m))
    (h : ∀ i ∈ is, ∃ cs, sadValueCopies (value i) = some cs ∧ ((∀ c ∈ cs, HasRoom c) ↔ fits i)) (n : SadEntryNode)
    (r : Rc × SrChangeIter × SadEntryNode) :
    readSadInRoom (is.map fun i => .ok (change i)) xpath n = some r ↔
      (∀ i ∈ is, fits i) ∧ readSadEntry (is.map fun i => .ok (change i)) xpath n = some r := by
  rcases is with _ | ⟨i, is⟩
  · exact (and_iff_right (List.forall_mem_nil _)).symm
  have hnext' : ∀ j ∈ i :: is, ∀ n m, inRoom sadValueCopies readSadValue (value j) n ≠ some (.reject m) :=
    fun j hj n m hr => hnext j hj n m ((inRoom_eq_some_iff (h j hj) n _).mp hr).2
  rw [List.map_cons, readSadInRoom, readSadEntry, srGetChangeNext]
  simp only [readLoop_changes hvalue hx hnext', readLoop_changes hvalue hx hnext, Option.bind_eq_bind,
    Option.bind_map, Function.comp_def, Option.pure_def, Option.bind_eq_some_iff, foldlM_inRoom h, and_assoc,
    exists_and_left]

/-- What is read of an entry in the room there is. -/
theorem readInRoom_eq_some_iff {malloc : SadEntryNode} {name : CStr} {entry : List Setting}
    (hv : ∀ s ∈ entry, s.node.Valid s.data) (r : Rc × SrChangeIter × SadEntryNode) :
    readInRoom malloc name entry = some r ↔ EntryFits name entry ∧ readSettings malloc name entry = some r := by
  have hread : readSadInRoom (entry.map fun s => .ok (s.value name).created) (sadEntryXpath name)
        ((createSadNode malloc).setName name) = some r ↔ (∀ s ∈ entry, s.node.Fits s.data) ∧
      readSadEntry (entry.map fun s => .ok (s.value name).created) (sadEntryXpath name)
        ((createSadNode malloc).setName name) = some r :=
    readSadInRoom_eq_some_iff (fun _ => rfl) (startsWith_value name)
      (fun s _ n m hr => by
        obtain ⟨m', hm⟩ := readSadValue_accepts name s n
        rw [hm] at hr
        cases hr)
      (fun s hs => sadCopies_room name (hv s hs)) _ r
  rw [readInRoom, newSadInRoom]
  split
  · rename_i hname
    have hname : strlen name < 200 := of_decide_eq_true hname
    refine hread.trans ⟨fun h => ⟨⟨hname, h.1⟩, h.2⟩, fun h => ⟨h.1.values, h.2⟩⟩
  · rename_i hname
    exact iff_of_false (fun h => (by cases h)) fun h => hname (decide_eq_true h.1.name)

/-! ## Entries -/

/-- The copies for an entry have room when that of its name and those of its
settings have. -/
theorem block_room {α ι : Type} {copies : SrVal → Option (List StrCopy)} {store : SrVal → α → Option (Stored α)}
    {value : ι → SrVal} {xpath name : CStr} {fits : ι → Prop}
    (hx : ∀ i, startsWith (value i).xpath xpath = true) (haccepts : ∀ i n, ∃ m, store (value i) n = some (.next m))
    {is : List ι}
    (hroom : ∀ i ∈ is, ∃ cs, copies (value i) = some cs ∧ ((∀ c ∈ cs, HasRoom c) ↔ fits i))
    (hcopies : ∀ i, ∃ cs, copies (value i) = some cs) (n : α) :
    (∃ cs, readerCopies copies store (is.map fun i => .ok (value i).created) xpath (n, [⟨.name, name⟩]) = some cs ∧
      ∀ c ∈ cs, HasRoom c) ↔ strlen name < 200 ∧ ∀ i ∈ is, fits i := by
  choose cs hcs using hcopies
  obtain ⟨m, hm⟩ := storeAll_isSome (fun i (_ : i ∈ is) n => haccepts i n) n
  have hname : HasRoom ⟨.name, name⟩ ↔ strlen name < 200 := Nat.lt_iff_add_one_le.symm
  have hfits : (∀ c ∈ is.flatMap cs, HasRoom c) ↔ ∀ i ∈ is, fits i := by
    simp only [List.mem_flatMap]
    constructor
    · intro h i hi
      obtain ⟨ds, hds, hiff⟩ := hroom i hi
      rw [hcs i] at hds
      cases hds
      exact hiff.mp fun c hc => h c ⟨i, hi, hc⟩
    · intro h c hc
      obtain ⟨i, hi, hc⟩ := hc
      obtain ⟨ds, hds, hiff⟩ := hroom i hi
      rw [hcs i] at hds
      cases hds
      exact hiff.mpr (h i hi) c hc
  rw [readerCopies_block hx hcs hm]
  simp only [Option.some.injEq, exists_eq_left', List.forall_mem_append, List.forall_mem_singleton, hname, hfits]

/-- The strings of entries with valid values have room exactly when the name does
and the values fit; no string is copied for a SPD entry that is already listed. -/
theorem strings_fit_iff (name : CStr) (malloc : SadEntryNode) {sas : List Setting}
    (hsas : ∀ s ∈ sas, s.node.Valid s.data) (entries : List SpdEntryNode) (malloc' : SpdEntryNode)
    {policies : List SpdSetting} (hpolicies : ∀ s ∈ policies, s.node.Valid s.data) :
    (SadHasRoom malloc name sas ↔ strlen name < 200 ∧ ∀ s ∈ sas, s.node.Fits s.data) ∧
      (SpdHasRoom entries malloc' name policies ↔
        (getSpdNode entries name).isSome ∨ strlen name < 200 ∧ ∀ s ∈ policies, s.node.Fits s.data) := by
  constructor
  · refine block_room (startsWith_value name) (readSadValue_accepts name) (fun s hs => sadCopies_room name (hsas s hs))
      (fun s => ?_) _
    obtain ⟨m, hm⟩ := readSadValue_accepts name s malloc
    exact (sadValueCopies_store hm).imp fun _ h => h.1
  · by_cases hlisted : (getSpdNode entries name).isSome = true
    · refine iff_of_true ⟨[], ?_, List.forall_mem_nil _⟩ (.inl hlisted)
      rw [addSpdCopies, if_pos hlisted]
    · rw [or_iff_right hlisted, SpdHasRoom, addSpdCopies, if_neg hlisted]
      refine block_room (startsWith_spdValue name) (readSpdValue_accepts name)
        (fun s hs => spdCopies_room name (hpolicies s hs)) (fun s => ?_) _
      obtain ⟨m, hm⟩ := readSpdValue_accepts name s malloc'
      exact (spdValueCopies_store hm).imp fun _ h => h.1

theorem valid_of_isIpPrefix {node : SchemaNode} (hend : node.isEnd = false) {d : SrData} {t : CStr} (ht : d.text = some t)
    (h : IsIpPrefix t) : node.Valid d := by
  refine ⟨fun _ => ⟨t, ht, h⟩, fun he => ?_⟩
  rw [hend] at he
  cases he

theorem fits_short {node : SchemaNode} (hhex : node.type ≠ .hexString) {d : SrData} {t : CStr} (ht : d.text = some t)
    (h : strlen t ≤ 39) : node.Fits d := by
  have hall : ∀ t', d.text = some t' → strlen t' ≤ 39 := fun t' ht' => by
    rw [ht] at ht'
    cases ht'
    exact h
  exact ⟨fun _ t' ht' _ => hall t' ht', fun _ t' ht' _ => hall t' ht', fun hh => absurd hh hhex⟩

theorem valid_of_isIpAddress {node : SchemaNode} (hp : node.isPrefix = false) {d : SrData} {t : CStr}
    (ht : d.text = some t) (h : IsIpAddress t) : node.Valid d := by
  refine ⟨fun h => ?_, fun _ => ⟨t, ht, h⟩⟩
  rw [hp] at h
  cases h

theorem valid_of_other {node : SchemaNode} (hp : node.isPrefix = false) (he : node.isEnd = false) {d : SrData} :
    node.Valid d := by
  refine ⟨fun h => ?_, fun h => ?_⟩
  · rw [hp] at h
    cases h
  · rw [he] at h
    cases h

/-- The prefixes of `add_sad.xml` are such texts. -/
theorem isIpPrefix_addSad : IsIpPrefix (lit "192.168.201.0/24") ∧ IsIpPrefix (lit "192.168.202.0/24") :=
  ⟨.inl (isIpv4Prefix_lit 192 168 201 0 24 (by decide +kernel)), .inl (isIpv4Prefix_lit 192 168 202 0 24 (by decide +kernel))⟩

theorem addSadPrefixes_valid : ∀ s ∈ addSadPrefixes, s.node.Valid s.data := List.forall_mem_cons.mpr
  ⟨valid_of_isIpPrefix (by decide +kernel) rfl isIpPrefix_addSad.1,
    List.forall_mem_singleton.mpr (valid_of_isIpPrefix (by decide +kernel) rfl isIpPrefix_addSad.2)⟩

theorem addSadPrefixes_fit : ∀ s ∈ addSadPrefixes, s.node.Fits s.data := by
  have hshort : strlen (lit "192.168.201.0/24") ≤ 39 ∧ strlen (lit "192.168.202.0/24") ≤ 39 := by decide +kernel
  exact List.forall_mem_cons.mpr
    ⟨fits_short (by decide) rfl hshort.1, List.forall_mem_singleton.mpr (fits_short (by decide) rfl hshort.2)⟩

theorem strings_fit_gw :
    SadHasRoom default (lit "gw") addSadPrefixes ∧ SpdHasRoom [] default (lit "gw") spdPrefixes := by
  have hname : strlen (lit "gw") < 200 := by decide +kernel
  have hshort : strlen (lit "192.168.201.0/24") ≤ 39 ∧ strlen (lit "192.168.202.0/24") ≤ 39 := by decide +kernel
  have hpolicies : ∀ s ∈ spdPrefixes, s.node.Valid s.data := List.forall_mem_cons.mpr
    ⟨valid_of_isIpPrefix (by decide +kernel) rfl isIpPrefix_addSad.1,
      List.forall_mem_singleton.mpr (valid_of_isIpPrefix (by decide +kernel) rfl isIpPrefix_addSad.2)⟩
  have hfit := strings_fit_iff (lit "gw") default addSadPrefixes_valid [] default hpolicies
  refine ⟨hfit.1.mpr ⟨hname, addSadPrefixes_fit⟩, hfit.2.mpr (.inr ⟨hname, List.forall_mem_cons.mpr
    ⟨?_, List.forall_mem_singleton.mpr ?_⟩⟩)⟩
  · exact fits_short (by decide) rfl hshort.1
  · exact fits_short (by decide) rfl hshort.2

/-- A prefix of IPv6 with all its digits, for a SAD entry. -/
def fullPrefixes : List Setting :=
  [sadPrefix "local-prefix" "2001:0db8:0000:0000:0000:0000:0000:0001/128" mem_sadSchema_local]

/-- Its 43 bytes go to a buffer of 40, and the entry is read to its end. -/
theorem strings_fit_full :
    (∀ s ∈ fullPrefixes, s.node.Valid s.data) ∧
      (readSettings default (lit "gw") fullPrefixes).map (·.1) = some (.ok ()) ∧
      addSadCopies default (sadBlock (lit "gw") fullPrefixes) (sadEntryXpath (lit "gw")) (lit "gw") =
        some [⟨.name, lit "gw"⟩, ⟨.localSubnet, lit "2001:0db8:0000:0000:0000:0000:0000:0001/128"⟩] ∧
      ¬SadHasRoom default (lit "gw") fullPrefixes := by
  have h6 : IsIpv6Prefix (lit "2001:0db8:0000:0000:0000:0000:0000:0001/128") := by
    have hlen : (lit "128").bytes ∈ ipv6LenPat.matches' := of_mem_words (by decide +kernel)
    refine isIpv6Prefix_groups (lit "2001").bytes (lit "0db8").bytes (lit "0000").bytes (lit "0000").bytes
      (lit "0000").bytes (lit "0000").bytes (lit "0000").bytes (lit "0001").bytes ?_ hlen ?_ ?_ <;> decide +kernel
  have hcopies : addSadCopies default (sadBlock (lit "gw") fullPrefixes) (sadEntryXpath (lit "gw")) (lit "gw") =
      some [⟨.name, lit "gw"⟩, ⟨.localSubnet, lit "2001:0db8:0000:0000:0000:0000:0000:0001/128"⟩] := by decide +kernel
  refine ⟨List.forall_mem_singleton.mpr (valid_of_isIpPrefix (by decide +kernel) rfl (.inr h6)), by decide +kernel, hcopies, ?_⟩
  rintro ⟨cs, hcs, hroom⟩
  rw [hcopies] at hcs
  cases hcs
  have hlong : ¬HasRoom ⟨.localSubnet, lit "2001:0db8:0000:0000:0000:0000:0000:0001/128"⟩ := by decide +kernel
  exact hlong (hroom _ (by simp))

end CfgIpsec.Proof
