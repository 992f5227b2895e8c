import CfgIpsec.Proof.Capacity
import CfgIpsec.Proof.SadMessages
import CfgIpsec.Spec.Leaves

/-!
# Leaves that take effect

The reader stores every leaf but the window, which it looks for under another
name (`field_of_leaf`), and an algorithm as a signed `short`. So an entry has its
values in the node exactly when they have room there, it has no window to keep
and its algorithms are small (`sad_leaves_iff`).
-/

namespace CfgIpsec.Proof

open Impl Spec
open CStr (lit)

def allLeaves : List SaLeaf :=
  [.reqid, .spi, .extSeqNum, .seqOverflow, .antiReplayWindowSize, .localPrefix, .remotePrefix,
    .protocolParameters, .mode, .encryptionAlgorithm, .integrityAlgorithm, .dfBit, .bypassDscp, .ecn,
    .localEnd, .remoteEnd]

theorem mem_allLeaves (l : SaLeaf) : l ∈ allLeaves := by cases l <;> decide

/-! ## Where the reader stores a leaf -/

/-- The leaf of the reader that is stored in the field of a leaf. -/
def readAs : SaLeaf → SadLeaf
  | .reqid => .reqid
  | .spi => .spi
  | .extSeqNum => .extSeqNum
  | .seqOverflow => .seqOverflow
  | .antiReplayWindowSize => .antiReplayWindow
  | .localPrefix => .localPrefix
  | .remotePrefix => .remotePrefix
  | .protocolParameters => .protocolParameters
  | .mode => .mode
  | .encryptionAlgorithm => .encryptionAlgorithm
  | .integrityAlgorithm => .integrityAlgorithm
  | .dfBit => .dfBit
  | .bypassDscp => .bypassDscp
  | .ecn => .ecn
  | .localEnd => .localEnd
  | .remoteEnd => .remoteEnd

def leafType (l : SaLeaf) : YangType :=
  match l with
  | .reqid => .uint 64
  | .spi | .antiReplayWindowSize => .uint 32
  | .encryptionAlgorithm | .integrityAlgorithm => .uint 16
  | .extSeqNum | .seqOverflow | .bypassDscp | .ecn => .boolean
  | .localPrefix | .remotePrefix | .localEnd | .remoteEnd => .string
  | .protocolParameters | .mode | .dfBit => .enumeration (l.codes.map (·.1))

/-- The reader knows every leaf of the schema but the window by its name. -/
theorem sadSchema_leaves :
    sadSchema.all (fun node => allLeaves.all fun l =>
      (nodeLeaf node = some (readAs l) ↔ l ≠ .antiReplayWindowSize ∧ l.At node) ∧
        (l.At node → node.type = leafType l)) = true := by
  decide +kernel

theorem nodeLeaf_eq_readAs_iff (l : SaLeaf) (s : Setting) :
    (nodeLeaf s.node = some (readAs l) ↔ l ≠ .antiReplayWindowSize ∧ l.At s.node) ∧
      (l.At s.node → s.node.type = leafType l) := by
  have hall := List.all_eq_true.mp (List.all_eq_true.mp sadSchema_leaves s.node s.mem) l (mem_allLeaves l)
  exact of_decide_eq_true hall

theorem store_field {leaf : SadLeaf} {has : CStr → Bool} {d : SrData} {n m : SadEntryNode} {l : SaLeaf}
    (hl : leaf ≠ readAs l) (h : leaf.store has d n = some (.next m)) : l.field m = l.field n := by
  have hw := store_writes h
  cases leaf
  case start | key | time | bytes | packets | idle =>
    obtain ⟨x, y, rfl⟩ := hw
    cases l <;> rfl
  all_goals
    obtain ⟨x, rfl⟩ := hw
    cases l <;> first | rfl | exact absurd rfl hl

/-! ## What the reader stores -/

/-- The text of an enumeration is one of its values. -/
theorem lookup_codes {l : SaLeaf} {d : SrData} (hd : (YangType.enumeration (l.codes.map (·.1))).admits d = true) :
    ∃ s, d.text = some s ∧ s ∈ l.codes.map (·.1) := by
  obtain ⟨s, hs, hmem⟩ := (Option.any_eq_true _ _).mp hd
  exact ⟨s, hs, of_decide_eq_true hmem⟩

theorem value_of_text {l : SaLeaf} {d : SrData} {s : CStr} (hs : d.text = some s) :
    (d.text.bind fun s => List.lookup s l.codes) = List.lookup s l.codes := by rw [hs, Option.bind_some]

theorem store_protocolParameters {has : CStr → Bool} {d : SrData} {n m : SadEntryNode}
    (hd : (leafType .protocolParameters).admits d = true)
    (h : SadLeaf.protocolParameters.store has d n = some (.next m)) :
    SaLeaf.protocolParameters.field m = SaLeaf.protocolParameters.value d := by
  obtain ⟨s, hs, hmem⟩ := lookup_codes hd
  obtain rfl : s = lit "esp" := by simpa [SaLeaf.codes] using hmem
  have hcode : List.lookup (lit "esp") SaLeaf.protocolParameters.codes = some IPSEC_PROTO_ESP := rfl
  rw [SaLeaf.value, value_of_text hs, hcode]
  simp only [SadLeaf.store, SrData.stringVal, hs, Option.bind_eq_bind, Option.bind_some, if_true] at h
  cases h
  rfl

theorem store_mode {has : CStr → Bool} {d : SrData} {n m : SadEntryNode} (hd : (leafType .mode).admits d = true)
    (h : SadLeaf.mode.store has d n = some (.next m)) : SaLeaf.mode.field m = SaLeaf.mode.value d := by
  obtain ⟨s, hs, hmem⟩ := lookup_codes hd
  have htransport : strcaseEq (lit "transport") (lit "transport") = true := rfl
  have htunnel : strcaseEq (lit "tunnel") (lit "tunnel") = true := rfl
  have hne : strcaseEq (lit "tunnel") (lit "transport") = false := rfl
  have hcode₁ : List.lookup (lit "transport") SaLeaf.mode.codes = some IPSEC_MODE_TRANSPORT := rfl
  have hcode₂ : List.lookup (lit "tunnel") SaLeaf.mode.codes = some IPSEC_MODE_TUNNEL := rfl
  simp only [SadLeaf.store, SrData.stringVal, hs, Option.bind_eq_bind, Option.bind_some] at h
  rw [SaLeaf.value, value_of_text hs]
  rcases (by simpa [SaLeaf.codes] using hmem : s = lit "transport" ∨ s = lit "tunnel") with rfl | rfl
  · rw [if_pos htransport] at h
    cases h
    rw [hcode₁]; rfl
  · rw [if_neg (by simp [hne]), if_pos htunnel] at h
    cases h
    rw [hcode₂]; rfl

theorem store_dfBit {has : CStr → Bool} {d : SrData} {n m : SadEntryNode} (hd : (leafType .dfBit).admits d = true)
    (h : SadLeaf.dfBit.store has d n = some (.next m)) : SaLeaf.dfBit.field m = SaLeaf.dfBit.value d := by
  obtain ⟨s, hs, hmem⟩ := lookup_codes hd
  have hset : lit "set" ≠ lit "clear" := by decide
  have hcopy : lit "copy" ≠ lit "clear" ∧ lit "copy" ≠ lit "set" := by decide
  have hcode₁ : List.lookup (lit "clear") SaLeaf.dfBit.codes = some IPSEC_DF_BIT_CLEAR := rfl
  have hcode₂ : List.lookup (lit "set") SaLeaf.dfBit.codes = some IPSEC_DF_BIT_SET := rfl
  have hcode₃ : List.lookup (lit "copy") SaLeaf.dfBit.codes = some IPSEC_DF_BIT_COPY := rfl
  simp only [SadLeaf.store, SrData.stringVal, hs, Option.bind_eq_bind, Option.bind_some] at h
  rw [SaLeaf.value, value_of_text hs]
  rcases (by simpa [SaLeaf.codes] using hmem : s = lit "clear" ∨ s = lit "set" ∨ s = lit "copy") with
    rfl | rfl | rfl
  · rw [if_pos rfl] at h
    cases h
    rw [hcode₁]; rfl
  · rw [if_neg hset, if_pos rfl] at h
    cases h
    rw [hcode₂]; rfl
  · rw [if_neg hcopy.1, if_neg hcopy.2, if_pos rfl] at h
    cases h
    rw [hcode₃]; rfl

/-- What is stored of a value: flags are taken as bytes, SPIs as words, and
algorithms as signed shorts. -/
def storedAs (l : SaLeaf) (d : SrData) : Datum :=
  match l with
  | .extSeqNum | .seqOverflow | .bypassDscp | .ecn => .flag d.boolVal
  | .spi => .number d.uint32Val.toNat
  | .encryptionAlgorithm | .integrityAlgorithm => .number d.int16Val.toInt
  | _ => l.value d

theorem store_own {l : SaLeaf} {has : CStr → Bool} {d : SrData} {n m : SadEntryNode}
    (hd : (leafType l).admits d = true) (h : (readAs l).store has d n = some (.next m)) :
    l.field m = storedAs l d := by
  cases l
  case protocolParameters => exact store_protocolParameters hd h
  case mode => exact store_mode hd h
  case dfBit => exact store_dfBit hd h
  case localPrefix | remotePrefix | localEnd | remoteEnd =>
    obtain ⟨s, hs, h⟩ := Option.bind_eq_some_iff.mp h
    cases h
    have hval : d.text.getD (lit "") = s := by
      rw [show d.text = some s from hs, Option.getD_some]
    exact congrArg Datum.text hval.symm
  case spi =>
    cases h
    have hwidth : (d.uint32Val.setWidth 64).toNat = d.uint32Val.toNat := by
      rw [BitVec.toNat_setWidth]
      have := d.uint32Val.isLt
      omega
    exact congrArg (fun x : Nat => Datum.number x) hwidth
  case encryptionAlgorithm | integrityAlgorithm =>
    cases h
    exact congrArg Datum.number (BitVec.toInt_signExtend_of_le (by decide))
  all_goals
    cases h
    rfl

/-- It is the value of the leaf, but for windows and large algorithms. -/
theorem storedAs_eq_value_iff {l : SaLeaf} {d : SrData} (hl : l ≠ .antiReplayWindowSize)
    (hd : (leafType l).admits d = true) : storedAs l d = l.value d ↔ l.Reaches d := by
  cases l
  case antiReplayWindowSize => exact absurd rfl hl
  case extSeqNum | seqOverflow | bypassDscp | ecn =>
    refine iff_of_true (congrArg Datum.flag ?_) trivial
    have hraw : d.raw = 0 ∨ d.raw = 1 := by simpa [leafType, YangType.admits] using hd
    rcases hraw with h | h <;> simp [SrData.boolVal, h]
  case spi =>
    refine iff_of_true (congrArg (fun x : Nat => Datum.number x) ?_) trivial
    have hraw : d.raw.toNat < 2 ^ 32 := of_decide_eq_true hd
    rw [SrData.uint32Val, BitVec.toNat_setWidth, Nat.mod_eq_of_lt hraw]
  case encryptionAlgorithm | integrityAlgorithm =>
    have hraw : d.raw.toNat < 2 ^ 16 := of_decide_eq_true hd
    have hshort : d.int16Val.toNat = d.raw.toNat := by
      rw [SrData.int16Val, BitVec.toNat_setWidth, Nat.mod_eq_of_lt hraw]
    show Datum.number d.int16Val.toInt = Datum.number d.raw.toNat ↔ d.raw.toNat < 2 ^ 15
    rw [Datum.number.injEq, BitVec.toInt_eq_toNat_cond, hshort]
    split <;> omega
  all_goals exact iff_of_true rfl trivial

/-! ## Entries -/

/-- What the field of a leaf holds after an entry is read. -/
theorem field_of_leaf {malloc : SadEntryNode} {name : CStr} {entry : List Setting} {n : SadEntryNode}
    (h : storeAll (fun s : Setting => readSadValue (s.value name)) entry
      ((createSadNode malloc).setName name) = some n) (l : SaLeaf) :
    l.field n = ((entry.reverse.findSome? fun s =>
        if l ≠ .antiReplayWindowSize ∧ l.At s.node then some s.data else none).map (storedAs l)).getD
      (l.field ((createSadNode malloc).setName name)) := by
  refine readSettings_last l.field (storedAs l) (fun node => l ≠ .antiReplayWindowSize ∧ l.At node)
    (fun s => (nodeLeaf_eq_readAs_iff l s).1) store_field (fun {s has n m} hmine hs => ?_) h
  have hadmits := s.admits
  rw [(nodeLeaf_eq_readAs_iff l s).2 hmine.2] at hadmits
  exact store_own hadmits hs

theorem valueIn_admits {l : SaLeaf} {entry : List Setting} {d : SrData} (h : l.valueIn entry = some d) :
    (leafType l).admits d = true := by
  obtain ⟨s, -, hs⟩ := List.exists_of_findSome?_eq_some h
  split at hs
  · rename_i hat
    cases hs
    rw [← (nodeLeaf_eq_readAs_iff l s).2 hat]
    exact s.admits
  · cases hs

/-- No entry gives its node a window. -/
theorem antiReplayWindow_zero {malloc : SadEntryNode} {name : CStr} {entry : List Setting} {n : SadEntryNode}
    (h : storeAll (fun s : Setting => readSadValue (s.value name)) entry
      ((createSadNode malloc).setName name) = some n) : n.antiReplayWindow = 0 := by
  refine readSettings_last (·.antiReplayWindow) (fun _ => 0) (fun _ => False)
    (fun s => ((nodeLeaf_eq_readAs_iff .antiReplayWindowSize s).1.trans (by simp))) (fun hl hs => ?_)
    (fun hmine => hmine.elim) h |>.trans ?_
  · have hfield := store_field (l := .antiReplayWindowSize) hl hs
    have hnat : _ = _ := Int.ofNat_inj.mp (Datum.number.inj hfield)
    exact BitVec.toNat_inj.mp hnat
  · have hnone : (entry.reverse.findSome? fun s => if False then some s.data else none) = none :=
      List.findSome?_eq_none_iff.mpr fun s _ => if_neg id
    rw [hnone]
    rfl

/-- So the messages that add SAs never have one. -/
theorem replay_zero {malloc : SadEntryNode} {name : CStr} {entry : List Setting} {rc : Rc} {it : SrChangeIter}
    {n : SadEntryNode} (hread : readSettings malloc name entry = some (rc, it, n)) {e : MsgEnv} {msg : Bytes}
    (hadd : pfAddsad e n = some msg) : (decode sadbSa msg SADB_EXT_SA).map (·.replay) = some 0 := by
  have hwindow := antiReplayWindow_zero (storeAll_of_readSettings hread)
  obtain ⟨addrs, -, hadds⟩ := pfAddsad_says hadd
  rw [hadds.sa, Option.map_some, saExt, hwindow]
  rfl

/-- A leaf takes effect exactly with the values that reach its field. -/
theorem field_eq_value_iff {malloc : SadEntryNode} {name : CStr} {entry : List Setting} {n : SadEntryNode}
    (h : storeAll (fun s : Setting => readSadValue (s.value name)) entry
      ((createSadNode malloc).setName name) = some n) {l : SaLeaf} {d : SrData}
    (hd : l.valueIn entry = some d) : l.field n = l.value d ↔ l.Reaches d := by
  by_cases hl : l = .antiReplayWindowSize
  · subst hl
    show Datum.number n.antiReplayWindow.toNat = Datum.number d.raw.toNat ↔ d.raw = 0
    rw [antiReplayWindow_zero h, Datum.number.injEq, Int.ofNat_inj, BitVec.toNat_inj]
    exact eq_comm
  · have hsome : (entry.reverse.findSome? fun s =>
        if l ≠ .antiReplayWindowSize ∧ l.At s.node then some s.data else none) = some d := by
      simp only [ne_eq, hl, not_false_eq_true, true_and]
      exact hd
    rw [field_of_leaf h, hsome, Option.map_some, Option.getD_some]
    exact storedAs_eq_value_iff hl (valueIn_admits hd)

/-- Every leaf of an entry takes effect, and a window reaches the kernel, exactly
when its strings have room in its node, there is no window but of zero packets
and the algorithms are below 2^15. -/
theorem sad_leaves_iff (malloc : SadEntryNode) (name : CStr) {entry : List Setting}
    (hv : ∀ s ∈ entry, s.node.Valid s.data) :
    (∃ rc it n, readInRoom malloc name entry = some (rc, it, n) ∧ LeavesHeld entry n ∧ WindowSent entry n) ↔
      EntryFits name entry ∧ LeavesReach entry := by
  simp only [readInRoom_eq_some_iff hv, and_assoc, exists_and_left]
  refine and_congr_right fun _ => ?_
  by_cases hne : entry = []
  · subst hne
    have hnone : ∀ l : SaLeaf, l.valueIn [] = none := fun _ => rfl
    refine iff_of_true ⟨_, _, _, rfl, fun l d h => ?_, fun d h => ?_⟩ fun l d h => ?_
    all_goals
      rw [hnone] at h
      cases h
  obtain ⟨n, hn, hread⟩ := readSettings_eq malloc name hne
  constructor
  · rintro ⟨rc, it, n', hread', hheld, -⟩ l d hd
    rw [hread] at hread'
    cases hread'
    exact (field_eq_value_iff hn hd).mp (hheld l d hd)
  · intro hreach
    refine ⟨_, _, n, hread, fun l d hd => (field_eq_value_iff hn hd).mpr (hreach l d hd), ?_⟩
    intro d hd hlow
    have hzero : d.raw = 0 := hreach _ d hd
    rw [hzero] at hlow
    exact absurd hlow (by decide)

/-- An entry with a prefix for either side, and no more, is held. -/
theorem sad_leaves_prefixes :
    ∃ rc it n, readInRoom default (lit "gw") addSadPrefixes = some (rc, it, n) ∧ LeavesHeld addSadPrefixes n := by
  have hreach : LeavesReach addSadPrefixes := by
    have hall : allLeaves.all (fun l => l.valueIn addSadPrefixes = none ∨ l = .localPrefix ∨ l = .remotePrefix) = true := by
      decide +kernel
    intro l d hd
    rcases of_decide_eq_true (List.all_eq_true.mp hall l (mem_allLeaves l)) with h | rfl | rfl
    · rw [h] at hd
      cases hd
    · exact trivial
    · exact trivial
  obtain ⟨rc, it, n, hread, hheld, -⟩ := (sad_leaves_iff default (lit "gw") addSadPrefixes_valid).mpr
    ⟨⟨by decide +kernel, addSadPrefixes_fit⟩, hreach⟩
  exact ⟨rc, it, n, hread, hheld⟩

theorem spi_mem : (⟨[.child (lit "ipsec-sa-config"), .child (lit "spi")], .uint 32⟩ : SchemaNode) ∈ sadSchema := by
  decide +kernel

/-- An entry with a window of 64 packets. -/
def windowEntry : List Setting :=
  configSetting [.child (lit "spi")] (.uint 32) ⟨34501, none⟩ spi_mem (by decide) ::
    configSetting [.child (lit "anti-replay-window-size")] (.uint 32) ⟨64, none⟩ (by decide +kernel) (by decide) ::
    addSadPrefixes

theorem windowEntry_valid : ∀ s ∈ windowEntry, s.node.Valid s.data :=
  List.forall_mem_cons.mpr ⟨valid_of_other rfl rfl,
    List.forall_mem_cons.mpr ⟨valid_of_other rfl rfl, addSadPrefixes_valid⟩⟩

/-- Neither the node nor the message has the window. -/
theorem sad_leaves_window :
    SaLeaf.antiReplayWindowSize.valueIn windowEntry = some ⟨64, none⟩ ∧
    (∃ n msg, readInRoom default (lit "gw") windowEntry = some (.ok (), [], n) ∧
      SaLeaf.antiReplayWindowSize.field n = .number 0 ∧ pfAddsad ⟨7, 0, 0⟩ n = some msg ∧
      (decode sadbSa msg SADB_EXT_SA).map (·.replay) = some 0) ∧
    ¬∃ rc it n, readInRoom default (lit "gw") windowEntry = some (rc, it, n) ∧
      LeavesHeld windowEntry n ∧ WindowSent windowEntry n := by
  have hvalue : SaLeaf.antiReplayWindowSize.valueIn windowEntry = some ⟨64, none⟩ := by decide +kernel
  have hrun : (readInRoom default (lit "gw") windowEntry).any (fun r =>
      r.1 = .ok () ∧ r.2.1 = [] ∧ SaLeaf.antiReplayWindowSize.field r.2.2 = .number 0 ∧
        (pfAddsad ⟨7, 0, 0⟩ r.2.2).isSome) = true := by decide +kernel
  obtain ⟨⟨rc, it, n⟩, hread, h⟩ := (Option.any_eq_true _ _).mp hrun
  obtain ⟨rfl, rfl, hfield, hmsg⟩ := of_decide_eq_true h
  obtain ⟨msg, hadd⟩ := Option.isSome_iff_exists.mp hmsg
  have hsettings := ((readInRoom_eq_some_iff windowEntry_valid _).mp hread).2
  refine ⟨hvalue, ⟨n, msg, hread, hfield, hadd, replay_zero hsettings hadd⟩, ?_⟩
  rintro ⟨rc', it', n', hread', hheld, -⟩
  rw [hread] at hread'
  cases hread'
  have hwindow := hheld _ _ hvalue
  rw [hfield] at hwindow
  exact absurd hwindow (by decide)

end CfgIpsec.Proof
