import CfgIpsec.Proof.Hex
import CfgIpsec.Proof.Reader
import CfgIpsec.Spec.Reaches

/-!
# Reading the settings of a SAD entry

The reader tells a setting by the last component of its path
(`readSadValue_setting`), and finds a marker in its xpath when the marker is in
the entry's name or in the path (`strstr_xpath`). It accepts every value the
schema admits, and so reads the settings of an entry one after the other
(`readSettings_eq`).
-/

namespace CfgIpsec.Proof

open Impl Spec
open CStr (lit)

/-! ## Paths -/

theorem lit_slash : (lit "/").bytes = [0x2f] := rfl
theorem lit_open : (lit "[").bytes = [0x5b] := rfl
theorem lit_close : (lit "]").bytes = [0x5d] := rfl
theorem lit_nil : (lit "").bytes = [] := rfl

/-- The last component of a path starts with the name of its last step, and is
that name unless it has keys. -/
theorem pathOf_last {steps : List Step} {keys : List CStr} {st : Step} (hst : steps.getLast? = some st)
    (hs : ∀ st ∈ steps, (0x2f : Byte) ∉ st.name.bytes) (hk : ∀ k ∈ keys, (0x2f : Byte) ∉ k.bytes) :
    ∃ pre rest, (pathOf steps keys).bytes = pre ++ 0x2f :: (st.name.bytes ++ rest) ∧
      (0x2f : Byte) ∉ rest ∧ ∀ name, st = .child name → rest = [] := by
  induction steps generalizing keys with
  | nil => cases hst
  | cons s steps ih =>
    obtain ⟨-, hs'⟩ := List.forall_mem_cons.mp hs
    rcases steps with _ | ⟨s', steps⟩
    · obtain rfl : s = st := by simpa using hst
      cases s with
      | child name =>
        refine ⟨[], [], ?_, List.not_mem_nil, fun _ _ => rfl⟩
        rw [pathOf, pathOf]
        simp [lit_slash, lit_nil, Step.name]
      | item name =>
        have hkey : (0x2f : Byte) ∉ (keys.headD (lit "")).bytes := by
          cases keys with
          | nil => rw [List.headD_nil, lit_nil]; exact List.not_mem_nil
          | cons k keys => exact hk k List.mem_cons_self
        refine ⟨[], 0x5b :: ((keys.headD (lit "")).bytes ++ [0x5d]), ?_, ?_, fun _ h => by cases h⟩
        · rw [pathOf, pathOf]
          simp [lit_slash, lit_nil, lit_open, lit_close, Step.name]
        · simpa using hkey
    · have hst' : (s' :: steps).getLast? = some st := by simpa using hst
      cases s with
      | child name =>
        obtain ⟨pre, rest, hp, hr, hc⟩ := ih hst' hs' hk
        refine ⟨(lit "/" ++ name).bytes ++ pre, rest, ?_, hr, hc⟩
        rw [pathOf, CStr.bytes_append, hp, List.append_assoc]
      | item name =>
        obtain ⟨pre, rest, hp, hr, hc⟩ := ih hst' hs' fun k hk' => hk k (List.mem_of_mem_tail hk')
        refine ⟨(lit "/" ++ name ++ lit "[" ++ keys.headD (lit "") ++ lit "]").bytes ++ pre, rest, ?_, hr, hc⟩
        rw [pathOf, CStr.bytes_append, hp, List.append_assoc]

/-- The last component of an xpath below `x`. -/
theorem strrchr_pathOf (x : CStr) {steps : List Step} {keys : List CStr} {st : Step}
    (hst : steps.getLast? = some st) (hs : ∀ st ∈ steps, (0x2f : Byte) ∉ st.name.bytes)
    (hk : ∀ k ∈ keys, (0x2f : Byte) ∉ k.bytes) :
    ∃ last rest, strrchr (x ++ pathOf steps keys) 0x2f = some last ∧
      last.bytes = (lit "/" ++ st.name).bytes ++ rest ∧ ∀ name, st = .child name → rest = [] := by
  obtain ⟨pre, rest, hp, hr, hchild⟩ := pathOf_last hst hs hk
  have hst' : (0x2f : Byte) ∉ st.name.bytes := hs st (List.mem_of_getLast? hst)
  have hbytes : (x ++ pathOf steps keys).bytes = (x.bytes ++ pre) ++ 0x2f :: (st.name.bytes ++ rest) := by
    rw [CStr.bytes_append, hp, List.append_assoc]
  have hnoNul : (0 : Byte) ∉ 0x2f :: (st.name.bytes ++ rest) := fun h =>
    (x ++ pathOf steps keys).noNul (hbytes ▸ List.mem_append_right _ h)
  refine ⟨.ofBuf (0x2f :: (st.name.bytes ++ rest)), rest, ?_, ?_, hchild⟩
  · rw [strrchr, hbytes, fromLast_append_cons _ (by simpa using ⟨hst', hr⟩)]
    rfl
  · rw [CStr.ofBuf_of_noNul hnoNul, CStr.bytes_append, lit_slash]
    rfl

/-! ## Leaves -/

/-- A test that no name starting with `stem` passes. -/
def clearOf (stem : CStr) : LeafTest → Bool
  | .eq s => !stem.bytes.isPrefixOf s.bytes
  | .starts s => !stem.bytes.isPrefixOf s.bytes && !s.bytes.isPrefixOf stem.bytes
  | .contains _ => false

/-- A name that starts with `stem` is taken for no leaf but those of `ok`, when
it passes no other's test. -/
theorem leafOf_ok {L : Type} {tests : List (LeafTest × L)} {ok : L → Bool} {stem name : CStr} {rest : Bytes}
    (h : tests.all (fun t => clearOf stem t.1 || ok t.2) = true) (hn : name.bytes = stem.bytes ++ rest)
    {leaf : L} (hl : leafOf tests name = some leaf) : ok leaf = true := by
  have hpre : stem.bytes <+: name.bytes := hn ▸ List.prefix_append ..
  obtain ⟨t, ht, rfl⟩ := Option.map_eq_some_iff.mp hl
  have hh := List.find?_some ht
  refine (Bool.or_eq_true_iff.mp (List.all_eq_true.mp h t (List.mem_of_find?_eq_some ht))).resolve_left fun hc => ?_
  rcases t with ⟨s | s | s, l⟩
  · simp only [clearOf, Bool.not_eq_true', ← Bool.not_eq_true, List.isPrefixOf_iff_prefix] at hc
    simp only [LeafTest.holds, decide_eq_true_eq] at hh
    exact hc (hh ▸ hpre)
  · simp only [clearOf, Bool.and_eq_true, Bool.not_eq_true', ← Bool.not_eq_true,
      List.isPrefixOf_iff_prefix] at hc
    simp only [LeafTest.holds, startsWith, List.isPrefixOf_iff_prefix] at hh
    rcases List.prefix_or_prefix_of_prefix hpre hh with h | h
    · exact hc.1 h
    · exact hc.2 h
  · simp [clearOf] at hc

theorem leafOf_eq_none {L : Type} {tests : List (LeafTest × L)} {stem name : CStr} {rest : Bytes}
    (h : tests.all (fun t => clearOf stem t.1) = true) (hn : name.bytes = stem.bytes ++ rest) :
    leafOf tests name = none := by
  refine Option.eq_none_iff_forall_ne_some.mpr fun leaf hl => ?_
  have hno : false = true := @leafOf_ok _ tests (fun _ => false) stem name rest (by simpa using h) hn leaf hl
  cases hno

/-- The leaf the reader takes a node for. -/
def nodeLeaf (node : SchemaNode) : Option SadLeaf :=
  match node.steps.getLast? with
  | some (.child name) => sadLeafOf (lit "/" ++ name)
  | _ => none

/-- What the reader relies on in a node of the schema. -/
def nodeOk (node : SchemaNode) : Bool :=
  node.steps.all (fun st => (0x2f : Byte) ∉ st.name.bytes) &&
    match node.steps.getLast? with
    | some (.child _) => true
    | some (.item name) => sadLeafTests.all fun t => clearOf (lit "/" ++ name) t.1
    | none => false

theorem sadSchema_ok : sadSchema.all nodeOk = true := by decide +kernel

/-- The leaf the reader takes a value at a node of the schema for, below any
xpath. -/
theorem sadLeafOf_at (x : CStr) {node : SchemaNode} (hmem : node ∈ sadSchema) {keys : List CStr}
    (hkeys : ∀ k ∈ keys, (0x2f : Byte) ∉ k.bytes) :
    ∃ last, strrchr (x ++ pathOf node.steps keys) 0x2f = some last ∧ sadLeafOf last = nodeLeaf node := by
  have hok := List.all_eq_true.mp sadSchema_ok node hmem
  rw [nodeOk, Bool.and_eq_true] at hok
  obtain ⟨hslash, hlast⟩ := hok
  cases hst : node.steps.getLast? with
  | none => rw [hst] at hlast; cases hlast
  | some st =>
    obtain ⟨last, rest, hrchr, hbytes, hchild⟩ := strrchr_pathOf x hst (by simpa using hslash) hkeys
    refine ⟨last, hrchr, ?_⟩
    rw [nodeLeaf, hst]
    rw [hst] at hlast
    cases st with
    | child x =>
      rw [hchild x rfl, List.append_nil] at hbytes
      exact congrArg sadLeafOf (CStr.ext hbytes)
    | item x => exact leafOf_eq_none hlast hbytes

/-- What the reader does with a value at a node of the schema, below any xpath. -/
theorem readSadValue_at (x : CStr) {node : SchemaNode} (hmem : node ∈ sadSchema) {keys : List CStr}
    (hkeys : ∀ k ∈ keys, (0x2f : Byte) ∉ k.bytes) (d : SrData) (n : SadEntryNode) :
    readSadValue ⟨d, x ++ pathOf node.steps keys⟩ n =
      match nodeLeaf node with
      | some leaf => leaf.store (strstr (x ++ pathOf node.steps keys)) d n
      | none => some (.next n) := by
  obtain ⟨last, hrchr, hleaf⟩ := sadLeafOf_at x hmem hkeys
  rw [readSadValue, hrchr]
  simp only [Option.bind_eq_bind, Option.bind_some, hleaf]
  cases nodeLeaf node <;> rfl

/-- What the reader does with a setting. -/
theorem readSadValue_setting (name : CStr) (s : Setting) (n : SadEntryNode) :
    readSadValue (s.value name) n =
      match nodeLeaf s.node with
      | some leaf => leaf.store (strstr (sadEntryXpath name ++ s.path)) s.data n
      | none => some (.next n) :=
  readSadValue_at _ s.mem s.noSlash s.data n

/-- What a setting puts into a field that only the leaves `mine` are stored in. -/
theorem readSadValue_field {β : Type} {get : SadEntryNode → β} {put : Option β} (mine : SadLeaf → Prop)
    {name : CStr} {s : Setting} {n m : SadEntryNode}
    (hkeep : ∀ leaf has, ¬mine leaf → leaf.store has s.data n = some (.next m) → get m = get n)
    (hmine : ∀ leaf, mine leaf → nodeLeaf s.node = some leaf →
      leaf.store (strstr (sadEntryXpath name ++ s.path)) s.data n = some (.next m) → get m = put.getD (get n))
    (hnone : (∀ leaf, nodeLeaf s.node = some leaf → ¬mine leaf) → put = none)
    (h : readSadValue (s.value name) n = some (.next m)) : get m = put.getD (get n) := by
  rw [readSadValue_setting] at h
  cases hl : nodeLeaf s.node with
  | none =>
    rw [hl] at h hnone
    cases h
    have hput : put = none := hnone fun leaf hleaf => by cases hleaf
    rw [hput, Option.getD_none]
  | some leaf =>
    rw [hl] at h
    by_cases hm : mine leaf
    · exact hmine leaf hm hl h
    · have hput : put = none := hnone fun leaf' hleaf' => by
        rw [hl] at hleaf'
        cases hleaf'
        exact hm
      rw [hkeep leaf _ hm h, hput, Option.getD_none]

/-! ## Markers -/

/-- What the xpath of an entry starts with, before the quote. -/
def entryHead : CStr := lit "/ietf-i2nsf-ikeless:ipsec-ikeless/sad/sad-entry[name="

/-- A marker starts with a slash, and none starts in the xpath of an entry
outside its name. -/
def isMarker (m : CStr) : Bool :=
  m.bytes.head? = some 0x2f && (0x27 : Byte) ∉ m.bytes && !strstr entryHead m

theorem isMarker_of_mem {m : CStr} (h : m ∈ lit "/sa-lifetime-hard" :: markers) : isMarker m = true := by
  have hall : (lit "/sa-lifetime-hard" :: markers).all isMarker = true := by decide +kernel
  exact List.all_eq_true.mp hall m h

theorem bytes_sadEntryXpath (name : CStr) :
    (sadEntryXpath name).bytes = entryHead.bytes ++ 0x27 :: (name.bytes ++ [0x27, 0x5d]) := by
  have hhead : (lit "/ietf-i2nsf-ikeless:ipsec-ikeless/sad/sad-entry[name='").bytes =
      entryHead.bytes ++ [0x27] := rfl
  have htail : (lit "']").bytes = [0x27, 0x5d] := rfl
  rw [sadEntryXpath, CStr.bytes_append, CStr.bytes_append, hhead, htail]
  simp

/-- A marker without quotes is in an xpath when it is in the quoted name of the
entry or in the path below it. -/
theorem strstr_quoted {q : Byte} {m x name path : CStr} (hm : isMarker m = true) (hquote : q ∉ m.bytes)
    (hx : x.bytes = entryHead.bytes ++ q :: (name.bytes ++ q :: (0x5d :: path.bytes))) :
    strstr x m = (strstr name m || strstr path m) := by
  simp only [isMarker, Bool.and_eq_true, decide_eq_true_eq, Bool.not_eq_true', strstr,
    ← Bool.not_eq_true, hasInfix_iff] at hm
  obtain ⟨⟨hslash, -⟩, hhead⟩ := hm
  obtain ⟨ms, hms⟩ := List.head?_eq_some_iff.mp hslash
  have hclose : m.bytes <:+: 0x5d :: path.bytes ↔ m.bytes <:+: path.bytes := by
    rw [List.infix_cons_iff, or_iff_right]
    intro h
    rw [hms, List.cons_prefix_cons] at h
    exact absurd h.1 (by decide)
  rw [Bool.eq_iff_iff, Bool.or_eq_true, strstr, strstr, strstr, hasInfix_iff, hasInfix_iff, hasInfix_iff, hx,
    infix_append_cons_iff hquote, infix_append_cons_iff hquote, hclose]
  exact or_iff_right hhead

/-- A marker is in an xpath when it is in the name of the entry or in the path
below it. -/
theorem strstr_xpath {m : CStr} (hm : isMarker m = true) (name path : CStr) :
    strstr (sadEntryXpath name ++ path) m = (strstr name m || strstr path m) := by
  have hquote : (0x27 : Byte) ∉ m.bytes := by
    simp only [isMarker, Bool.and_eq_true, decide_eq_true_eq] at hm
    exact hm.1.2
  refine strstr_quoted hm hquote ?_
  rw [CStr.bytes_append, bytes_sadEntryXpath]
  simp

/-! ## Values -/

/-- The types of which the reader takes a value for a leaf. -/
def accepts (leaf : SadLeaf) (type : YangType) : Bool :=
  match leaf with
  | .localPrefix | .remotePrefix | .localEnd | .remoteEnd => type = .string
  | .mode | .dfBit | .protocolParameters =>
    match type with
    | .enumeration _ => true
    | _ => false
  | .iv | .key => type = .hexString
  | .innerProtocol => type = .innerProtocol
  | _ => true

theorem sadSchema_accepts :
    sadSchema.all (fun node => (nodeLeaf node).all fun leaf => accepts leaf node.type) = true := by
  decide +kernel

/-- What is copied of a hex-string is its bytes before the first zero byte. -/
theorem copyHex_eq {d : SrData} {s : CStr} {kb : Bytes} (hs : d.text = some s)
    (hkb : hexBytes? s.bytes = some kb) : copyHex d = some (.ofBuf kb) := by
  have hz : CStr.ofBuf (kb ++ [0]) = .ofBuf kb := by
    refine CStr.ext ?_
    simp only [CStr.ofBuf, List.takeWhile_append]
    split
    · rename_i h
      rw [(List.takeWhile_prefix _).eq_of_length h]; simp
    · rfl
  rw [copyHex, SrData.stringVal, hs]
  simp only [Option.bind_eq_bind, Option.bind_some, hexstrToChar_hexString hkb, hz]
  rfl

theorem admits_hexString {d : SrData} (h : YangType.hexString.admits d = true) :
    ∃ s kb, d.text = some s ∧ hexBytes? s.bytes = some kb := by
  obtain ⟨s, hs, hkb⟩ := (Option.any_eq_true _ _).mp h
  obtain ⟨kb, hkb⟩ := Option.isSome_iff_exists.mp hkb
  exact ⟨s, kb, hs, hkb⟩

/-- The bytes a hex-string stands for are those that are copied. -/
theorem copyHex_keyBytes {d : SrData} (h : YangType.hexString.admits d = true) :
    copyHex d = some (.ofBuf (keyBytes d)) := by
  obtain ⟨s, kb, hs, hkb⟩ := admits_hexString h
  rw [copyHex_eq hs hkb, keyBytes, hs, Option.bind_some, hkb]
  rfl

theorem admits_innerProtocol {d : SrData} (h : YangType.innerProtocol.admits d = true) :
    d.uint16Val ≤ 256 ∨ d.text = some (lit "any") := by
  rw [YangType.admits, Bool.or_eq_true, decide_eq_true_eq, decide_eq_true_eq] at h
  refine h.imp_left fun hlt => ?_
  rw [BitVec.le_def, SrData.uint16Val, BitVec.toNat_setWidth]
  have : (256 : BitVec 16).toNat = 256 := rfl
  omega

theorem store_accepts {leaf : SadLeaf} {type : YangType} {d : SrData} (h : accepts leaf type = true)
    (hd : type.admits d = true) (has : CStr → Bool) (n : SadEntryNode) :
    ∃ m, leaf.store has d n = some (.next m) := by
  cases leaf
  case localPrefix | remotePrefix | localEnd | remoteEnd =>
    obtain rfl : type = .string := by simpa [accepts] using h
    obtain ⟨s, hs⟩ := Option.isSome_iff_exists.mp hd
    exact ⟨_, by simp only [SadLeaf.store, SrData.stringVal, hs]; rfl⟩
  case mode | dfBit | protocolParameters =>
    cases type with
    | enumeration values =>
      obtain ⟨s, hs, -⟩ := (Option.any_eq_true _ _).mp hd
      simp only [SadLeaf.store, SrData.stringVal, hs, Option.bind_eq_bind, Option.bind_some]
      repeat' split
      all_goals exact ⟨_, rfl⟩
    | _ => simp [accepts] at h
  case iv | key =>
    obtain rfl : type = .hexString := by simpa [accepts] using h
    obtain ⟨s, kb, hs, hkb⟩ := admits_hexString hd
    simp only [SadLeaf.store, copyHex_eq hs hkb]
    repeat' split
    all_goals exact ⟨_, rfl⟩
  case innerProtocol =>
    obtain rfl : type = .innerProtocol := by simpa [accepts] using h
    rw [SadLeaf.store]
    split
    · exact ⟨_, rfl⟩
    · rename_i hgt
      have hany := (admits_innerProtocol hd).resolve_left hgt
      exact ⟨_, by simp only [SrData.stringVal, hany]; rfl⟩
  all_goals exact ⟨_, rfl⟩

/-- The fields a leaf is stored in; all others stay. -/
def Writes (n m : SadEntryNode) : SadLeaf → Prop
  | .reqid => ∃ x, m = { n with reqId := x }
  | .spi => ∃ x, m = { n with spi := x }
  | .extSeqNum => ∃ x, m = { n with extSeqNum := x }
  | .seqNumberCounter => ∃ x, m = { n with seqNumberCounter := x }
  | .seqOverflow => ∃ x, m = { n with seqOverflow := x }
  | .antiReplayWindow => ∃ x, m = { n with antiReplayWindow := x }
  | .localPrefix => ∃ x, m = { n with localSubnet := x }
  | .remotePrefix => ∃ x, m = { n with remoteSubnet := x }
  | .innerProtocol => ∃ x, m = { n with innerProtocol := x }
  | .start => ∃ x y, m = { n with srcport := x, dstport := y }
  | .mode => ∃ x, m = { n with ipsecMode := x }
  | .localEnd => ∃ x, m = { n with tunnelLocal := x }
  | .remoteEnd => ∃ x, m = { n with tunnelRemote := x }
  | .bypassDscp => ∃ x, m = { n with bypassDscp := x }
  | .ecn => ∃ x, m = { n with ecn := x }
  | .dfBit => ∃ x, m = { n with dfBit := x }
  | .protocolParameters => ∃ x, m = { n with protocolParameters := x }
  | .encryptionAlgorithm => ∃ x, m = { n with encryptionAlg := x }
  | .iv => ∃ x, m = { n with encryptionIv := x }
  | .key => ∃ x y, m = { n with encryptionKey := x, integrityKey := y }
  | .integrityAlgorithm => ∃ x, m = { n with integrityAlg := x }
  | .time => ∃ x y, m = { n with lftTimeSoft := x, lftTimeHard := y }
  | .bytes => ∃ x y, m = { n with lftBytesSoft := x, lftBytesHard := y }
  | .packets => ∃ x y, m = { n with lftPacketsSoft := x, lftPacketsHard := y }
  | .idle => ∃ x y, m = { n with lftIdleSoft := x, lftIdleHard := y }

theorem store_writes {has : CStr → Bool} {d : SrData} {n m : SadEntryNode} {leaf : SadLeaf}
    (h : leaf.store has d n = some (.next m)) : Writes n m leaf := by
  cases leaf
  case localPrefix | remotePrefix | localEnd | remoteEnd | iv =>
    obtain ⟨x, -, h⟩ := Option.bind_eq_some_iff.mp h
    cases h
    exact ⟨x, rfl⟩
  case mode | dfBit | protocolParameters =>
    obtain ⟨x, -, h⟩ := Option.bind_eq_some_iff.mp h
    repeat' split at h
    all_goals
      cases h
      exact ⟨_, rfl⟩
  case innerProtocol =>
    rw [SadLeaf.store] at h
    split at h
    · cases h; exact ⟨_, rfl⟩
    · obtain ⟨x, -, h⟩ := Option.bind_eq_some_iff.mp h
      split at h
      · cases h; exact ⟨_, rfl⟩
      · cases h
  case start =>
    rw [SadLeaf.store] at h
    cases h
    split <;> split <;> exact ⟨_, _, rfl⟩
  case key =>
    rw [SadLeaf.store] at h
    cases hc : copyHex d <;> rw [hc] at h <;> split at h <;> split at h <;>
      first | (cases h; exact ⟨_, _, rfl⟩) | cases h
  case time | bytes | packets | idle =>
    cases h
    rw [storeLifetime]
    split
    · exact ⟨_, _, rfl⟩
    · split <;> exact ⟨_, _, rfl⟩
  all_goals
    cases h
    exact ⟨_, rfl⟩

/-- The reader gives up at a number that is no protocol and no text `any`, after
it has stored its low bits. -/
theorem store_rejects {leaf : SadLeaf} {has : CStr → Bool} {d : SrData} {n m : SadEntryNode}
    (h : leaf.store has d n = some (.reject m)) :
    leaf = .innerProtocol ∧ ¬d.uint16Val ≤ 256 ∧ d.text ≠ some (lit "any") ∧
      m = { n with innerProtocol := d.uint16Val.setWidth 32 } := by
  cases leaf
  case localPrefix | remotePrefix | localEnd | remoteEnd | iv =>
    obtain ⟨x, -, h⟩ := Option.bind_eq_some_iff.mp h
    cases h
  case mode | dfBit | protocolParameters =>
    obtain ⟨x, -, h⟩ := Option.bind_eq_some_iff.mp h
    repeat' split at h
    all_goals cases h
  case innerProtocol =>
    rw [SadLeaf.store] at h
    split at h
    · cases h
    · rename_i hgt
      obtain ⟨x, hx, h⟩ := Option.bind_eq_some_iff.mp h
      split at h
      · cases h
      · rename_i hany
        cases h
        exact ⟨rfl, hgt, fun ht => hany (Option.some.inj (hx.symm.trans ht)), rfl⟩
  case key =>
    rw [SadLeaf.store] at h
    cases hc : copyHex d <;> rw [hc] at h <;> split at h <;> split at h <;> cases h
  all_goals cases h

/-- The reader accepts every setting. -/
theorem readSadValue_accepts (name : CStr) (s : Setting) (n : SadEntryNode) :
    ∃ m, readSadValue (s.value name) n = some (.next m) := by
  rw [readSadValue_setting]
  have hall := List.all_eq_true.mp sadSchema_accepts s.node s.mem
  cases h : nodeLeaf s.node with
  | none => exact ⟨n, rfl⟩
  | some leaf =>
    rw [h] at hall
    exact store_accepts hall s.admits _ n

/-- The value an entry has at a node is one of the node's type. -/
theorem valueAt_admits {node : SchemaNode} {entry : List Setting} {d : SrData} (h : valueAt node entry = some d) :
    node.type.admits d = true := by
  obtain ⟨s, -, hs⟩ := List.exists_of_findSome?_eq_some h
  split at hs
  · rename_i hnode
    cases hs
    exact hnode ▸ s.admits
  · cases hs

/-! ## Blocks -/

theorem startsWith_value (name : CStr) (s : Setting) : startsWith (s.value name).xpath (sadEntryXpath name) = true :=
  List.isPrefixOf_iff_prefix.mpr (List.prefix_append ..)

/-- The settings of an entry are read one after the other. -/
theorem readSettings_eq (malloc : SadEntryNode) (name : CStr) {entry : List Setting} (hne : entry ≠ []) :
    ∃ n, storeAll (fun s : Setting => readSadValue (s.value name)) entry
        ((createSadNode malloc).setName name) = some n ∧
      readSettings malloc name entry = some (.ok (), [], n) := by
  obtain ⟨n, hn⟩ := storeAll_isSome (fun s (_ : s ∈ entry) m => readSadValue_accepts name s m)
    ((createSadNode malloc).setName name)
  obtain ⟨c, it, hblock, hloop⟩ := readLoop_block hne (startsWith_value name) hn
  refine ⟨n, hn, ?_⟩
  rw [readSettings, readSadEntry, sadBlock, hblock, srGetChangeNext]
  exact Option.bind_eq_some_iff.mpr ⟨_, hloop, rfl⟩

/-- The node that is read has what the settings store, also when there are none. -/
theorem storeAll_of_readSettings {malloc n : SadEntryNode} {name : CStr} {entry : List Setting} {rc : Rc}
    {it : SrChangeIter} (h : readSettings malloc name entry = some (rc, it, n)) :
    storeAll (fun s : Setting => readSadValue (s.value name)) entry ((createSadNode malloc).setName name) = some n := by
  by_cases hne : entry = []
  · subst hne
    cases h
    rfl
  · obtain ⟨n', hn, hread⟩ := readSettings_eq malloc name hne
    rw [h] at hread
    cases hread
    exact hn

/-- A field that one leaf alone is stored in has what the last setting of that
leaf puts there. -/
theorem readSettings_last {β : Type} (get : SadEntryNode → β) (conv : SrData → β) {leaf : SadLeaf}
    (mine : SchemaNode → Prop) [DecidablePred mine]
    (hmine : ∀ s : Setting, nodeLeaf s.node = some leaf ↔ mine s.node)
    (hkeep : ∀ {l has d n m}, l ≠ leaf → l.store has d n = some (.next m) → get m = get n)
    (hstore : ∀ {s : Setting} {has n m}, mine s.node → leaf.store has s.data n = some (.next m) →
      get m = conv s.data)
    {malloc : SadEntryNode} {name : CStr} {entry : List Setting} {n : SadEntryNode}
    (h : storeAll (fun s : Setting => readSadValue (s.value name)) entry
      ((createSadNode malloc).setName name) = some n) :
    get n = ((entry.reverse.findSome? fun s => if mine s.node then some s.data else none).map conv).getD
      (get ((createSadNode malloc).setName name)) := by
  have hfield : ∀ (s : Setting) n m, readSadValue (s.value name) n = some (.next m) →
      get m = ((if mine s.node then some s.data else none).map conv).getD (get n) := by
    intro s n m hr
    refine readSadValue_field (· = leaf) (fun l has hl hs => hkeep hl hs) (fun l hl hleaf hs => ?_)
      (fun hleaf => ?_) hr
    · subst hl
      have hm := (hmine s).mp hleaf
      rw [if_pos hm]
      exact hstore hm hs
    · have hm : ¬mine s.node := fun hm => hleaf _ ((hmine s).mpr hm) rfl
      rw [if_neg hm, Option.map_none]
  have hput : (fun s : Setting => (if mine s.node then some s.data else none).map conv) =
      Option.map conv ∘ fun s => if mine s.node then some s.data else none := rfl
  rw [storeAll_field hfield h, hput, ← List.map_findSome?]

theorem readSettings_valueAt {β : Type} (get : SadEntryNode → β) (conv : SrData → β) {node : SchemaNode}
    {leaf : SadLeaf} (hnode : ∀ s : Setting, nodeLeaf s.node = some leaf ↔ s.node = node)
    (hkeep : ∀ {l has d n m}, l ≠ leaf → l.store has d n = some (.next m) → get m = get n)
    (hstore : ∀ {has d n m}, leaf.store has d n = some (.next m) → get m = conv d)
    {malloc : SadEntryNode} {name : CStr} {entry : List Setting} {n : SadEntryNode}
    (h : storeAll (fun s : Setting => readSadValue (s.value name)) entry
      ((createSadNode malloc).setName name) = some n) :
    get n = ((valueAt node entry).map conv).getD (get ((createSadNode malloc).setName name)) :=
  readSettings_last get conv (· = node) hnode hkeep (fun _ hs => hstore hs) h

/-! ## The keys of the schema -/

theorem nodeLeaf_keyNode (u : KeyUse) : nodeLeaf (keyNode u) = some .key := by
  cases u <;> rfl

theorem sadSchema_keys :
    sadSchema.all (fun node => nodeLeaf node ≠ some .key || node = keyNode .encryption ||
      node = keyNode .integrity) = true := by
  decide +kernel

theorem keyNode_of_leaf {node : SchemaNode} (hmem : node ∈ sadSchema) (h : nodeLeaf node = some .key) :
    ∃ u, node = keyNode u := by
  have hall := List.all_eq_true.mp sadSchema_keys node hmem
  simp only [h, Bool.or_eq_true, decide_eq_true_eq, ne_eq, not_true_eq_false, decide_false, Bool.false_eq_true,
    false_or] at hall
  exact hall.elim (fun h => ⟨_, h⟩) fun h => ⟨_, h⟩

/-- Which markers the path of a key has. -/
theorem keyNode_path (u v : KeyUse) (keys : List CStr) :
    strstr (pathOf (keyNode u).steps keys) v.marker = decide (u = v) := by
  change strstr (pathOf (keyNode u).steps []) v.marker = _
  cases u <;> cases v <;> rfl

theorem keyNode_inj {u v : KeyUse} : keyNode u = keyNode v ↔ u = v := by
  refine ⟨fun h => ?_, fun h => by rw [h]⟩
  have hpath := keyNode_path u u []
  rw [h, keyNode_path] at hpath
  exact (by simpa using hpath : v = u).symm

theorem isMarker_marker (u : KeyUse) : isMarker u.marker = true :=
  isMarker_of_mem (by cases u <;> simp [KeyUse.marker, markers])

end CfgIpsec.Proof
