import CfgIpsec.Proof.Settings
import CfgIpsec.Spec.YangSpd

/-!
# Reading the settings of a SPD entry

The reader tells most settings by the last component of their path. The tests
for integrity and encryption search it, and also find the list instances of
that name (`spdLeafAt_of_item`). It takes for a leaf only values of a type that
it knows for it (`spdLeafAt_accepts`).
-/

namespace CfgIpsec.Proof

open Impl Spec
open CStr (lit)

/-- The values of a type are not the addresses of texts. -/
def numeric : YangType → Bool
  | .inner | .boolean | .uint _ => true
  | _ => false

/-- The types of which the reader takes a value for a leaf. -/
def spdAccepts (leaf : SpdLeaf) (type : YangType) : Bool :=
  match leaf with
  | .localPrefix | .remotePrefix | .localEnd | .remoteEnd => type = .string
  | .direction => type = .enumeration [lit "inbound", lit "outbound"]
  | .action => type = .enumeration [lit "protect", lit "bypass", lit "discard"]
  | .mode | .dfBit | .protocolParameters =>
    match type with
    | .enumeration _ => true
    | _ => false
  | .innerProtocol => type = .innerProtocol
  | _ => numeric type

/-- The leaf the reader takes a setting for. -/
def spdLeafAt (name : CStr) (s : SpdSetting) : Option SpdLeaf :=
  (strrchr (s.value name).xpath 0x2f).bind spdLeafOf

/-- The leaves found by a search. -/
def searched : SpdLeaf → Bool
  | .integrity | .encryption => true
  | _ => false

/-- What the reader relies on in a node of the schema. -/
def spdNodeOk (node : SchemaNode) : Bool :=
  node.steps.all (fun st => !st.name.bytes.contains 0x2f) &&
    match node.steps.getLast? with
    | some (.child name) => (spdLeafOf (lit "/" ++ name)).all fun leaf => spdAccepts leaf node.type
    | some (.item name) =>
      numeric node.type && spdLeafTests.all fun t => clearOf (lit "/" ++ name) t.1 || searched t.2
    | none => false

theorem spdSchema_ok : spdSchema.all spdNodeOk = true := by decide +kernel

/-- The last component of the xpath of a setting. -/
theorem strrchr_spdSetting (name : CStr) (s : SpdSetting) :
    ∃ st last rest, s.node.steps.getLast? = some st ∧ strrchr (s.value name).xpath 0x2f = some last ∧
      last.bytes = (lit "/" ++ st.name).bytes ++ rest ∧ ∀ x, st = .child x → last = lit "/" ++ x := by
  have hok := List.all_eq_true.mp spdSchema_ok s.node s.mem
  rw [spdNodeOk, Bool.and_eq_true] at hok
  obtain ⟨hslash, hlast⟩ := hok
  cases hst : s.node.steps.getLast? with
  | none => rw [hst] at hlast; cases hlast
  | some st =>
    obtain ⟨last, rest, hrchr, hbytes, hchild⟩ :=
      strrchr_pathOf (spdEntryXpath name) hst (by simpa [List.contains_iff_mem] using hslash) s.noSlash
    refine ⟨st, last, rest, rfl, hrchr, hbytes, fun x hx => CStr.ext ?_⟩
    subst hx
    rw [hbytes, hchild x rfl, List.append_nil]
    rfl

/-- What the reader does with a setting. -/
theorem readSpdValue_setting (name : CStr) (s : SpdSetting) (n : SpdEntryNode) :
    readSpdValue (s.value name) n =
      match spdLeafAt name s with
      | some leaf => leaf.store (strstr (spdEntryXpath name ++ s.path)) s.data n
      | none => some (.next n) := by
  obtain ⟨st, last, rest, -, hrchr, -⟩ := strrchr_spdSetting name s
  rw [readSpdValue, spdLeafAt, hrchr]
  simp only [Option.bind_eq_bind, Option.bind_some]
  cases spdLeafOf last <;> rfl

theorem spdLeafAt_of_child {name x : CStr} {s : SpdSetting} (h : s.node.steps.getLast? = some (.child x)) :
    spdLeafAt name s = spdLeafOf (lit "/" ++ x) := by
  obtain ⟨st, last, rest, hst, hrchr, -, hchild⟩ := strrchr_spdSetting name s
  rw [hst] at h
  rw [spdLeafAt, hrchr, Option.bind_some, hchild x (Option.some.inj h)]

/-- A list instance is taken for no leaf, or for one found by a search. -/
theorem spdLeafAt_of_item {name x : CStr} {s : SpdSetting} (h : s.node.steps.getLast? = some (.item x))
    {leaf : SpdLeaf} (hl : spdLeafAt name s = some leaf) : searched leaf = true ∧ numeric s.node.type = true := by
  obtain ⟨st, last, rest, hst, hrchr, hbytes, -⟩ := strrchr_spdSetting name s
  have hok := List.all_eq_true.mp spdSchema_ok s.node s.mem
  rw [spdNodeOk, h, Bool.and_eq_true, Bool.and_eq_true] at hok
  rw [hst, Option.some_inj] at h
  subst h
  rw [spdLeafAt, hrchr, Option.bind_some] at hl
  exact ⟨leafOf_ok hok.2.2 hbytes hl, hok.2.1⟩

theorem spdLeafAt_accepts {name : CStr} {s : SpdSetting} {leaf : SpdLeaf} (hl : spdLeafAt name s = some leaf) :
    spdAccepts leaf s.node.type = true := by
  obtain ⟨st, -, -, hst, -⟩ := strrchr_spdSetting name s
  cases st with
  | child x =>
    rw [spdLeafAt_of_child hst] at hl
    have hok := List.all_eq_true.mp spdSchema_ok s.node s.mem
    rw [spdNodeOk, hst, Bool.and_eq_true] at hok
    have haccepts := hok.2
    simp only [hl] at haccepts
    exact haccepts
  | item x =>
    obtain ⟨hs, hn⟩ := spdLeafAt_of_item hst hl
    cases leaf
    case integrity | encryption => exact hn
    all_goals cases hs

/-- A leaf whose test no list instance passes is that of a node when the reader
takes the node, and no other, for it. -/
theorem spdLeafAt_eq_iff {leaf : SpdLeaf} {target : SchemaNode} (hleaf : searched leaf = false)
    (hok : spdSchema.all (fun node =>
      match node.steps.getLast? with
      | some (.child name) => decide (spdLeafOf (lit "/" ++ name) = some leaf ↔ node = target)
      | _ => decide (node ≠ target)) = true)
    (name : CStr) (s : SpdSetting) : spdLeafAt name s = some leaf ↔ s.node = target := by
  have hnode := List.all_eq_true.mp hok s.node s.mem
  obtain ⟨st, -, -, hst, -⟩ := strrchr_spdSetting name s
  rw [hst] at hnode
  cases st with
  | child x =>
    rw [spdLeafAt_of_child hst]
    exact of_decide_eq_true hnode
  | item x =>
    refine iff_of_false (fun hl => ?_) (of_decide_eq_true hnode)
    rw [(spdLeafAt_of_item hst hl).1] at hleaf
    cases hleaf

/-- The reader accepts the values the schema admits. -/
theorem spdStore_accepts {leaf : SpdLeaf} {type : YangType} {d : SrData} (h : spdAccepts leaf type = true)
    (hd : type.admits d = true) (has : CStr → Bool) (n : SpdEntryNode) :
    ∃ m, leaf.store has d n = some (.next m) := by
  cases leaf
  case localPrefix | remotePrefix | localEnd | remoteEnd =>
    obtain rfl : type = .string := by simpa [spdAccepts] using h
    obtain ⟨s, hs⟩ := Option.isSome_iff_exists.mp hd
    exact ⟨_, by simp only [SpdLeaf.store, SrData.stringVal, hs]; rfl⟩
  case direction | action =>
    obtain rfl := of_decide_eq_true h
    obtain ⟨s, hs, hmem⟩ := (Option.any_eq_true _ _).mp hd
    simp only [SpdLeaf.store, SrData.stringVal, hs, Option.bind_eq_bind, Option.bind_some]
    have hvalues := of_decide_eq_true hmem
    simp only [List.mem_cons, List.not_mem_nil, or_false] at hvalues
    repeat' split
    all_goals first | exact ⟨_, rfl⟩ | grind
  case mode | dfBit | protocolParameters =>
    cases type with
    | enumeration values =>
      obtain ⟨s, hs, -⟩ := (Option.any_eq_true _ _).mp hd
      simp only [SpdLeaf.store, SrData.stringVal, hs, Option.bind_eq_bind, Option.bind_some]
      repeat' split
      all_goals exact ⟨_, rfl⟩
    | _ => simp [spdAccepts] at h
  case innerProtocol =>
    obtain rfl : type = .innerProtocol := by simpa [spdAccepts] using h
    rw [SpdLeaf.store]
    split
    · exact ⟨_, rfl⟩
    · rename_i hgt
      have hany := (admits_innerProtocol hd).resolve_left hgt
      exact ⟨_, by simp only [SrData.stringVal, hany]; rfl⟩
  all_goals exact ⟨_, rfl⟩

theorem readSpdValue_accepts (name : CStr) (s : SpdSetting) (n : SpdEntryNode) :
    ∃ m, readSpdValue (s.value name) n = some (.next m) := by
  rw [readSpdValue_setting]
  cases h : spdLeafAt name s with
  | none => exact ⟨n, rfl⟩
  | some leaf => exact spdStore_accepts (spdLeafAt_accepts h) s.admits _ n

theorem startsWith_spdValue (name : CStr) (s : SpdSetting) :
    startsWith (s.value name).xpath (spdEntryXpath name) = true :=
  List.isPrefixOf_iff_prefix.mpr (List.prefix_append ..)

/-- The settings of an entry are read one after the other. -/
theorem readSpdSettings_eq {malloc n : SpdEntryNode} {name : CStr} {entry : List SpdSetting} (hne : entry ≠ [])
    (hn : storeAll (fun s : SpdSetting => readSpdValue (s.value name)) entry
      ((createSpdNode malloc).setName name) = some n) :
    readSpdSettings malloc name entry = some (.ok (), [], n) := by
  obtain ⟨c, it, hblock, hloop⟩ := readLoop_block hne (startsWith_spdValue name) hn
  rw [readSpdSettings, readSpdEntry, spdBlock, hblock, srGetChangeNext]
  exact Option.bind_eq_some_iff.mpr ⟨_, hloop, rfl⟩

/-- An entry with settings is accepted. -/
theorem readSpdSettings_ok {malloc n : SpdEntryNode} {name : CStr} {entry : List SpdSetting} (hne : entry ≠ []) {rc : Rc}
    {it : SrChangeIter} (h : readSpdSettings malloc name entry = some (rc, it, n)) :
    rc = .ok () ∧ storeAll (fun s : SpdSetting => readSpdValue (s.value name)) entry
      ((createSpdNode malloc).setName name) = some n := by
  obtain ⟨n', hn⟩ := storeAll_isSome (fun s (_ : s ∈ entry) m => readSpdValue_accepts name s m)
    ((createSpdNode malloc).setName name)
  rw [readSpdSettings_eq hne hn] at h
  cases h
  exact ⟨rfl, hn⟩

/-! ## Fields -/

/-- The fields a leaf is stored in; all others stay. -/
def SpdWrites (n m : SpdEntryNode) : SpdLeaf → Prop
  | .direction => ∃ x, m = { n with policyDir := x }
  | .reqid => ∃ x, m = { n with reqId := x }
  | .antiReplayWindow => ∃ x, m = { n with antiReplayWindow := x }
  | .localPrefix => ∃ x, m = { n with localSubnet := x }
  | .remotePrefix => ∃ x, m = { n with remoteSubnet := x }
  | .innerProtocol => ∃ x, m = { n with innerProtocol := x }
  | .start => ∃ x y, m = { n with srcport := x, dstport := y }
  | .action => ∃ x, m = { n with action := x }
  | .extSeqNum => ∃ x, m = { n with extSeqNum := x }
  | .seqOverflow => ∃ x, m = { n with seqOverflow := x }
  | .pfpFlag => ∃ x, m = { n with pfpFlag := x }
  | .statefulFragCheck => ∃ x, m = { n with statefulFragCheck := x }
  | .mode => ∃ x, m = { n with ipsecMode := x }
  | .localEnd => ∃ x, m = { n with tunnelLocal := x }
  | .remoteEnd => ∃ x, m = { n with tunnelRemote := x }
  | .bypassDscp => ∃ x, m = { n with bypassDscp := x }
  | .ecn => ∃ x, m = { n with ecn := x }
  | .dfBit => ∃ x, m = { n with dfBit := x }
  | .protocolParameters => ∃ x, m = { n with protocolParameters := x }
  | .integrity => ∃ x, m = { n with integrityAlg := x }
  | .encryption => ∃ x, m = { n with encryptionAlg := x }
  | .tfcPad => ∃ x, m = { n with tfcPad := x }

theorem spdStore_writes {has : CStr → Bool} {d : SrData} {n m : SpdEntryNode} {leaf : SpdLeaf}
    (h : leaf.store has d n = some (.next m)) : SpdWrites n m leaf := by
  cases leaf
  case localPrefix | remotePrefix | localEnd | remoteEnd =>
    obtain ⟨x, -, h⟩ := Option.bind_eq_some_iff.mp h
    cases h
    exact ⟨x, rfl⟩
  case direction | action | mode | dfBit | protocolParameters =>
    obtain ⟨x, -, h⟩ := Option.bind_eq_some_iff.mp h
    repeat' split at h
    all_goals cases h
    all_goals exact ⟨_, rfl⟩
  case innerProtocol =>
    rw [SpdLeaf.store] at h
    split at h
    · cases h; exact ⟨_, rfl⟩
    · obtain ⟨x, -, h⟩ := Option.bind_eq_some_iff.mp h
      split at h
      · cases h; exact ⟨_, rfl⟩
      · cases h
  case start =>
    rw [SpdLeaf.store] at h
    cases h
    split <;> split <;> exact ⟨_, _, rfl⟩
  all_goals
    cases h
    exact ⟨_, rfl⟩

/-- A field that one leaf alone is stored in, of a node and no other, has what
the last setting of that node puts there. -/
theorem readSpdSettings_valueAt {β : Type} (get : SpdEntryNode → β) (conv : SrData → β) {node : SchemaNode}
    {leaf : SpdLeaf} (hnode : ∀ name (s : SpdSetting), spdLeafAt name s = some leaf ↔ s.node = node)
    (hkeep : ∀ {l n m}, l ≠ leaf → SpdWrites n m l → get m = get n)
    (hstore : ∀ {has d n m}, leaf.store has d n = some (.next m) → get m = conv d)
    {malloc n : SpdEntryNode} {name : CStr} {entry : List SpdSetting} {rc : Rc} {it : SrChangeIter}
    (h : readSpdSettings malloc name entry = some (rc, it, n)) :
    get n = ((spdValueAt node entry).map conv).getD (get ((createSpdNode malloc).setName name)) := by
  have hfield : ∀ (s : SpdSetting) n m, readSpdValue (s.value name) n = some (.next m) →
      get m = ((if s.node = node then some s.data else none).map conv).getD (get n) := by
    intro s n m hr
    rw [readSpdValue_setting] at hr
    by_cases hs : s.node = node
    · rw [(hnode name s).mpr hs] at hr
      rw [if_pos hs]
      exact hstore hr
    · rw [if_neg hs]
      cases hl : spdLeafAt name s with
      | none =>
        rw [hl] at hr
        cases hr
        rfl
      | some l =>
        rw [hl] at hr
        exact hkeep (fun hleaf => hs ((hnode name s).mp (hleaf ▸ hl))) (spdStore_writes hr)
  by_cases hne : entry = []
  · subst hne
    cases h
    rfl
  · have hn := (readSpdSettings_ok hne h).2
    have hput : (fun s : SpdSetting => (if s.node = node then some s.data else none).map conv) =
        Option.map conv ∘ fun s => if s.node = node then some s.data else none := rfl
    rw [storeAll_field hfield hn, hput, ← List.map_findSome?]
    rfl

end CfgIpsec.Proof
