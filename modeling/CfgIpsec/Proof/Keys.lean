import CfgIpsec.Proof.Capacity
import CfgIpsec.Proof.SadMessages

/-!
# Keys

A key is decoded into a buffer, copied as a string into the node, and copied as
a string over what the message has at its place. `sad_keys`: where the strings
of the entry have room in its node, the extension carries the key exactly when
this leaves all bytes of it.
-/

namespace CfgIpsec.Proof

open Impl Spec Tlv
open CStr (lit)

/-! ## Reading keys -/

/-- What a setting puts into the string of a use. -/
def putKey (name : CStr) (u : KeyUse) (s : Setting) : Option Bytes :=
  if s.node = keyNode u ∨ s.node = keyNode u.other ∧ strstr name u.marker = true then some (keyBytes s.data)
  else none

/-- A key is stored for the uses of which the xpath has the marker. -/
theorem key_store {has : CStr → Bool} {d : SrData} {n m : SadEntryNode} {kb : CStr} (hkb : copyHex d = some kb)
    (h : SadLeaf.key.store has d n = some (.next m)) (u : KeyUse) :
    u.string m = if has u.marker then kb else u.string n := by
  simp only [SadLeaf.store, hkb] at h
  cases u <;> simp only [KeyUse.marker] <;> split at h <;> split at h <;> cases h <;> simp_all [KeyUse.string]

/-- No other leaf changes a key. -/
theorem store_string {has : CStr → Bool} {d : SrData} {n m : SadEntryNode} {leaf : SadLeaf} (hl : leaf ≠ .key)
    (h : leaf.store has d n = some (.next m)) (u : KeyUse) : u.string m = u.string n := by
  have hw := store_writes h
  cases leaf
  case key => exact absurd rfl hl
  case start | time | bytes | packets | idle =>
    obtain ⟨x, y, rfl⟩ := hw
    cases u <;> rfl
  all_goals
    obtain ⟨x, rfl⟩ := hw
    cases u <;> rfl

theorem readSadValue_string (name : CStr) (u : KeyUse) (s : Setting) (n m : SadEntryNode)
    (h : readSadValue (s.value name) n = some (.next m)) :
    u.string m = ((putKey name u s).map CStr.ofBuf).getD (u.string n) := by
  refine readSadValue_field (· = .key) (fun leaf has hl hs => store_string hl hs u)
    (fun leaf hl hleaf hs => ?_) (fun hleaf => ?_) h
  · subst hl
    obtain ⟨v, hnode⟩ := keyNode_of_leaf s.mem hleaf
    have hadm := s.admits
    rw [hnode] at hadm
    have hpath := keyNode_path v u s.keys
    rw [← hnode] at hpath
    rw [key_store (copyHex_keyBytes hadm) hs, strstr_xpath (isMarker_marker u), Setting.path, hpath, putKey, hnode]
    simp only [keyNode_inj]
    cases u <;> cases v <;> cases strstr name _ <;> simp [KeyUse.other]
  · have hne : ∀ v, s.node ≠ keyNode v := fun v e => hleaf _ (by rw [e, nodeLeaf_keyNode]) rfl
    rw [putKey, if_neg fun h => h.elim (hne _) fun h => hne _ h.1, Option.map_none]

/-- The key strings of the node that is read. -/
theorem readSettings_string {malloc : SadEntryNode} {name : CStr} {entry : List Setting} {n : SadEntryNode}
    (h : storeAll (fun s : Setting => readSadValue (s.value name)) entry
      ((createSadNode malloc).setName name) = some n) (u : KeyUse) :
    u.string n = keyString malloc name entry u := by
  have hlast := storeAll_field (readSadValue_string name u) h
  have hput : (fun s => (putKey name u s).map CStr.ofBuf) = Option.map CStr.ofBuf ∘ putKey name u := rfl
  have hinit : u.string ((createSadNode malloc).setName name) = u.string malloc := by cases u <;> rfl
  rw [hput, ← List.map_findSome?, hinit] at hlast
  exact hlast

/-! ## Reading algorithms -/

def algLeaf : KeyUse → SadLeaf
  | .encryption => .encryptionAlgorithm
  | .integrity => .integrityAlgorithm

theorem nodeLeaf_algorithmNode (u : KeyUse) : nodeLeaf (algorithmNode u) = some (algLeaf u) := by
  cases u <;> rfl

theorem sadSchema_algorithms :
    sadSchema.all (fun node => [KeyUse.encryption, .integrity].all fun u =>
      nodeLeaf node ≠ some (algLeaf u) || node = algorithmNode u) = true := by
  decide +kernel

theorem nodeLeaf_eq_algLeaf_iff {s : Setting} {u : KeyUse} :
    nodeLeaf s.node = some (algLeaf u) ↔ s.node = algorithmNode u := by
  refine ⟨fun h => ?_, fun h => by rw [h, nodeLeaf_algorithmNode]⟩
  have hall := List.all_eq_true.mp (List.all_eq_true.mp sadSchema_algorithms s.node s.mem) u (by cases u <;> simp)
  simpa [h] using hall

theorem store_alg {has : CStr → Bool} {d : SrData} {n m : SadEntryNode} {leaf : SadLeaf} {u : KeyUse}
    (hl : leaf ≠ algLeaf u) (h : leaf.store has d n = some (.next m)) : u.alg m = u.alg n := by
  have hw := store_writes h
  cases leaf
  case start | key | time | bytes | packets | idle =>
    obtain ⟨x, y, rfl⟩ := hw
    cases u <;> rfl
  case encryptionAlgorithm | integrityAlgorithm =>
    obtain ⟨x, rfl⟩ := hw
    cases u <;> first | rfl | exact absurd rfl hl
  all_goals
    obtain ⟨x, rfl⟩ := hw
    cases u <;> rfl

theorem readSettings_alg {malloc : SadEntryNode} {name : CStr} {entry : List Setting} {n : SadEntryNode}
    (h : storeAll (fun s : Setting => readSadValue (s.value name)) entry
      ((createSadNode malloc).setName name) = some n) (u : KeyUse) :
    u.alg n = algorithmNumber u entry := by
  have hinit : u.alg ((createSadNode malloc).setName name) = 0 := by cases u <;> rfl
  rw [readSettings_valueAt u.alg (fun d => (d.raw.setWidth 16).signExtend 32)
    (fun _ => nodeLeaf_eq_algLeaf_iff) store_alg (fun hs => by cases u <;> cases hs <;> rfl) h, hinit,
    algorithmNumber, algorithm]
  cases valueAt (algorithmNode u) entry <;> rfl

/-! ## The message -/

theorem take_overlay (str xs : Bytes) (k : Nat) :
    (str ++ xs.drop str.length).take k = (str ++ (xs.take k).drop str.length).take k := by
  rw [List.take_append, List.take_append, List.drop_take, List.take_take, Nat.min_self]

/-- Zeros after what is long enough with them do not count. -/
theorem take_append_zeros {xs : Bytes} {k m : Nat} (h : k ≤ xs.length + m) :
    (xs ++ List.replicate m (0 : Byte)).take k = (xs ++ List.replicate k 0).take k := by
  rw [List.take_append, List.take_append, List.take_replicate, List.take_replicate]
  congr 2
  omega

theorem drop_keyRecord (rest : Bytes) (t : BitVec 16) (len bits : Nat) (key : CStr) :
    (keyRecord rest t len bits key).drop 8 = (overlay (rest.drop 8) key).take (8 * len - 8) := by
  rw [keyRecord, List.drop_left' (by rw [Codec.length_put]; rfl)]

theorem encryptRecords_eq {n : SadEntryNode} (h : n.encryptionAlg ≠ SADB_EALG_NONE) :
    encryptRecords n = [keyRecord keyRoom SADB_EXT_KEY_ENCRYPT (encryptKeyArea n.encryptionAlg).len
      (encryptKeyArea n.encryptionAlg).bits n.encryptionKey] := if_pos h

theorem authRecords_eq {n : SadEntryNode} (h : n.integrityAlg ≠ SADB_AALG_NONE) :
    authRecords n = [keyRecord (authRoom n) SADB_EXT_KEY_AUTH (authKeyArea n.integrityAlg).len
      (authKeyArea n.integrityAlg).bits n.integrityKey] := if_pos h

/-- The record of a key is its extension in the message. -/
theorem keyExt_message {u : KeyUse} {m : SadbMsg} {rs pre post : List Bytes} {rest : Bytes} {len bits : Nat}
    {key : CStr} (hexts : IsExts rs.flatten rs) (hlt : rs.flatten.length < 2 ^ 18)
    (hrs : rs = pre ++ keyRecord rest u.ext len bits key :: post)
    (hrec : IsExt (keyRecord rest u.ext len bits key) u.ext) :
    keyExt? u (message m rs.flatten) = some (keyRecord rest u.ext len bits key) := by
  have hext := ext?_message (m := m) hexts hlt hrs
  rw [hrec.type] at hext
  rw [keyExt?, hext, Option.map_some]
  exact congrArg some (hrec.record.eq_take _).2.1

theorem keyExt_encryption {e : MsgEnv} {n : SadEntryNode} {msg : Bytes} (h : pfAddsad e n = some msg)
    (halg : n.encryptionAlg ≠ SADB_EALG_NONE) :
    keyExt? .encryption msg = some (keyRecord keyRoom SADB_EXT_KEY_ENCRYPT (encryptKeyArea n.encryptionAlg).len
      (encryptKeyArea n.encryptionAlg).bits n.encryptionKey) := by
  obtain ⟨⟨he, ha⟩, addrs, haddrs, rfl⟩ := pfAddsad_eq_some_iff.mp h
  obtain ⟨hsrc, hdst⟩ := isAddress_sadAddrs haddrs
  obtain ⟨-, hexts⟩ := isExts_sadRecords hsrc hdst he ha
  have hrec := isExt_encryptRecords he
  rw [encryptRecords_eq halg, if_pos halg, List.forall₂_cons] at hrec
  obtain ⟨pre, hrs⟩ : ∃ pre, sadRecords n addrs = pre ++ keyRecord keyRoom KeyUse.encryption.ext
      (encryptKeyArea n.encryptionAlg).len (encryptKeyArea n.encryptionAlg).bits n.encryptionKey ::
        authRecords n := by
    rw [sadRecords, encryptRecords_eq halg]
    exact ⟨_, rfl⟩
  exact keyExt_message hexts (length_sadRecords n addrs) hrs hrec.1

theorem keyExt_integrity {e : MsgEnv} {n : SadEntryNode} {msg : Bytes} (h : pfAddsad e n = some msg)
    (halg : n.integrityAlg ≠ SADB_AALG_NONE) :
    keyExt? .integrity msg = some (keyRecord (authRoom n) SADB_EXT_KEY_AUTH (authKeyArea n.integrityAlg).len
      (authKeyArea n.integrityAlg).bits n.integrityKey) := by
  obtain ⟨⟨he, ha⟩, addrs, haddrs, rfl⟩ := pfAddsad_eq_some_iff.mp h
  obtain ⟨hsrc, hdst⟩ := isAddress_sadAddrs haddrs
  obtain ⟨-, hexts⟩ := isExts_sadRecords hsrc hdst he ha
  have hrec := isExt_authRecords he ha
  rw [authRecords_eq halg, if_pos halg, List.forall₂_cons] at hrec
  obtain ⟨pre, hrs⟩ : ∃ pre, sadRecords n addrs = pre ++ keyRecord (authRoom n) KeyUse.integrity.ext
      (authKeyArea n.integrityAlg).len (authKeyArea n.integrityAlg).bits n.integrityKey :: [] := by
    rw [sadRecords, authRecords_eq halg, ← List.append_assoc]
    exact ⟨_, rfl⟩
  exact keyExt_message hexts (length_sadRecords n addrs) hrs hrec.1

/-- A message carries what the record of the key starts with. -/
theorem carriesKey_iff {u : KeyUse} {msg rest kb : Bytes} {t : BitVec 16} {len bits : Nat} {key : CStr}
    (h : keyExt? u msg = some (keyRecord rest t len bits key)) (hk : kb.length ≤ 8 * len - 8) :
    CarriesKey u msg kb ↔ (overlay (rest.drop 8) key).take kb.length = kb := by
  obtain ⟨bs, hbs, hrec⟩ := Option.map_eq_some_iff.mp h
  rw [CarriesKey, hbs]
  simp only [Option.some.injEq, exists_eq_left', hrec, drop_keyRecord, List.take_take, Nat.min_eq_left hk]

/-- Which keys the encryption extension carries. -/
theorem carriesKey_encryption_iff {e : MsgEnv} {n : SadEntryNode} {msg kb : Bytes} (h : pfAddsad e n = some msg)
    (halg : n.encryptionAlg ≠ SADB_EALG_NONE) (hk : kb.length ≤ 8 * (encryptKeyArea n.encryptionAlg).len - 8) :
    CarriesKey .encryption msg kb ↔
      (n.encryptionKey.bytes ++
        (List.replicate kb.length 0).drop n.encryptionKey.bytes.length).take kb.length = kb := by
  have hl := encryptKeyArea_len n.encryptionAlg
  rw [carriesKey_iff (keyExt_encryption h halg) hk, overlay, strlen, take_overlay, keyRoom, List.drop_replicate,
    List.take_replicate, Nat.min_eq_left (by omega)]

/-- Which keys the integrity extension carries. -/
theorem carriesKey_integrity_iff {e : MsgEnv} {n : SadEntryNode} {msg kb : Bytes} (h : pfAddsad e n = some msg)
    (halg : n.integrityAlg ≠ SADB_AALG_NONE) (hk : kb.length ≤ 24) :
    CarriesKey .integrity msg kb ↔
      (n.integrityKey.bytes ++ ((authRoom n).drop 8).drop n.integrityKey.bytes.length).take kb.length = kb := by
  rw [carriesKey_iff (keyExt_integrity h halg) (by rw [authKeyArea_len]; exact hk), overlay, strlen]

/-- What the buffer holds where the integrity key goes, as far as it counts. -/
theorem take_authRoom {n : SadEntryNode} (he : EncryptKeyFits n) {k : Nat} (hk : k ≤ 24) :
    ((authRoom n).drop 8).take k =
      ((if n.encryptionAlg = SADB_EALG_NONE then []
        else n.encryptionKey.bytes.drop (8 * (encryptKeyArea n.encryptionAlg).len)) ++
          List.replicate k 0).take k := by
  have hl := encryptKeyArea_len n.encryptionAlg
  by_cases halg : n.encryptionAlg = SADB_EALG_NONE
  · rw [authRoom, if_neg (not_not_intro halg), if_pos halg, keyRoom, List.drop_replicate, List.nil_append,
      List.take_replicate, List.take_replicate, Nat.min_eq_left (by omega), Nat.min_self]
  · have hfit : n.encryptionKey.bytes.length ≤ 3928 := he halg
    rw [authRoom, if_pos halg, if_neg halg, overlay, strlen, keyRoom, List.drop_replicate, List.drop_drop,
      List.drop_replicate, show 8 * (encryptKeyArea n.encryptionAlg).len - 8 + 8 =
        8 * (encryptKeyArea n.encryptionAlg).len by omega, List.drop_append, List.drop_replicate]
    exact take_append_zeros (by rw [List.length_drop]; omega)

/-! ## Keys that arrive -/

theorem algorithm_lt (u : KeyUse) (entry : List Setting) : (algorithm u entry).toNat < 2 ^ 16 := by
  rw [algorithm]
  cases hv : valueAt (algorithmNode u) entry with
  | none => decide
  | some d =>
    have hd := valueAt_admits hv
    cases u <;> simpa [algorithmNode, YangType.admits] using hd

theorem algorithmNumber_ne_zero {u : KeyUse} {entry : List Setting} (h : algorithm u entry ≠ 0) :
    algorithmNumber u entry ≠ 0 := by
  intro h0
  have hn := congrArg BitVec.toNat h0
  have hlt := algorithm_lt u entry
  rw [algorithmNumber, BitVec.toNat_signExtend, BitVec.toNat_setWidth, BitVec.toNat_setWidth,
    Nat.mod_eq_of_lt hlt, Nat.mod_eq_of_lt (by omega)] at hn
  refine h (BitVec.eq_of_toNat_eq ?_)
  change _ = 0
  change _ + _ = 0 at hn
  omega

/-- Where the name of the entry has no marker of the use, its own key is read. -/
theorem keyString_of_not_marker (malloc : SadEntryNode) {name : CStr} {entry : List Setting} {u : KeyUse}
    {kb : Bytes} (hkey : key? u entry = some kb) (hname : strstr name u.marker = false) :
    keyString malloc name entry u = .ofBuf kb := by
  have hput : (fun s : Setting =>
      if s.node = keyNode u ∨ s.node = keyNode u.other ∧ strstr name u.marker = true then some (keyBytes s.data)
      else none) = Option.map keyBytes ∘ fun s => if s.node = keyNode u then some s.data else none := by
    funext s
    rw [hname, Function.comp_apply]
    by_cases hs : s.node = keyNode u <;> simp [hs]
  rw [key?, valueAt] at hkey
  rw [keyString, hput, ← List.map_findSome?, hkey]
  rfl

/-- A string laid over a buffer, byte for byte. -/
theorem overlay_eq_iff (str left kb : Bytes) :
    (str ++ (left ++ List.replicate kb.length 0).drop str.length).take kb.length = kb ↔
      (∀ i < kb.length, i < str.length → kb[i]? = str[i]?) ∧
        ∀ i < kb.length, str.length ≤ i → kb[i]? = some (left.getD i 0) := by
  have hbyte : ∀ i < kb.length, (str ++ (left ++ List.replicate kb.length 0).drop str.length)[i]? =
      if i < str.length then str[i]? else some (left.getD i 0) := by
    intro i hi
    rw [List.getElem?_append]
    split
    · rfl
    · rw [List.getElem?_drop, Nat.add_sub_cancel' (by omega), List.getElem?_append, List.getD_eq_getElem?_getD]
      split
      · rename_i hl
        rw [List.getElem?_eq_getElem hl, Option.getD_some]
      · rename_i hl
        rw [List.getElem?_replicate_of_lt (by omega), List.getElem?_eq_none (by omega), Option.getD_none]
  constructor
  · intro h
    have hat : ∀ i < kb.length, kb[i]? = if i < str.length then str[i]? else some (left.getD i 0) := by
      intro i hi
      have htake := congrArg (·[i]?) h
      simp only [List.getElem?_take_of_lt hi] at htake
      rw [← hbyte i hi, htake]
    exact ⟨fun i hi hs => by rw [hat i hi, if_pos hs], fun i hi hs => by rw [hat i hi, if_neg (by omega)]⟩
  · rintro ⟨hstored, hleft⟩
    refine List.ext_getElem? fun i => ?_
    by_cases hi : i < kb.length
    · rw [List.getElem?_take_of_lt hi, hbyte i hi]
      split
      · exact (hstored i hi ‹_›).symm
      · exact (hleft i hi (by omega)).symm
    · rw [List.getElem?_eq_none (by rw [List.length_take]; omega), List.getElem?_eq_none (by omega)]

theorem keyReaches_iff {malloc : SadEntryNode} {name : CStr} {entry : List Setting} {u : KeyUse} {kb : Bytes} :
    KeyReaches malloc name entry u kb ↔ ((keyString malloc name entry u).bytes ++ (leftBefore malloc name entry u ++
      List.replicate kb.length 0).drop (keyString malloc name entry u).bytes.length).take kb.length = kb :=
  ⟨fun h => (overlay_eq_iff _ _ _).mpr ⟨h.stored, h.left⟩,
    fun h => ⟨((overlay_eq_iff _ _ _).mp h).1, ((overlay_eq_iff _ _ _).mp h).2⟩⟩

/-- A key whose zero bytes are last arrives. -/
theorem keyReaches_iff_zerosLast {malloc : SadEntryNode} {name : CStr} {entry : List Setting} {u : KeyUse}
    {kb : Bytes} (hkey : key? u entry = some kb) (hname : strstr name u.marker = false)
    (hleft : leftBefore malloc name entry u = []) : KeyReaches malloc name entry u kb ↔ ZerosLast kb := by
  have hbytes : (CStr.ofBuf kb).bytes = kb.takeWhile (· ≠ 0) := rfl
  have hsplit : kb.takeWhile (· ≠ 0) ++ kb.dropWhile (· ≠ 0) = kb := List.takeWhile_append_dropWhile
  have hlen := congrArg List.length hsplit
  rw [List.length_append] at hlen
  rw [keyReaches_iff, keyString_of_not_marker malloc hkey hname, hbytes, hleft, ZerosLast, List.nil_append,
    List.drop_replicate, show kb.length - (kb.takeWhile (· ≠ 0)).length = (kb.dropWhile (· ≠ 0)).length by omega,
    List.take_of_length_le (by rw [List.length_append, List.length_replicate]; omega)]
  constructor
  · intro h b hb
    have hdrop := List.append_cancel_left (h.trans hsplit.symm)
    exact List.eq_of_mem_replicate (hdrop ▸ hb)
  · intro h
    rw [← List.eq_replicate_length.mpr h]
    exact hsplit

/-- The message of a node that was read carries a key exactly when it reaches. -/
theorem carriesKey_iff_reaches {malloc n : SadEntryNode} {name : CStr} {entry : List Setting} {u : KeyUse} {kb : Bytes}
    (harea : FillsArea u entry kb) (hn : storeAll (fun s : Setting => readSadValue (s.value name)) entry
      ((createSadNode malloc).setName name) = some n) {e : MsgEnv} {msg : Bytes} (hmsg : pfAddsad e n = some msg) :
    CarriesKey u msg kb ↔ KeyReaches malloc name entry u kb := by
  have henc : n.encryptionAlg = algorithmNumber .encryption entry := readSettings_alg hn .encryption
  have hkeyEnc : n.encryptionKey = keyString malloc name entry .encryption := readSettings_string hn .encryption
  cases u
  case encryption =>
    have hroom : algorithmNumber .encryption entry ≠ SADB_EALG_NONE ∧
        kb.length ≤ 8 * (encryptKeyArea (algorithmNumber .encryption entry)).len - 8 := by
      rcases harea with ⟨ha, hl⟩ | ⟨ha, hl⟩
      · rw [algorithmNumber, ha, hl]; decide
      · rw [algorithmNumber, ha, hl]; decide
    rw [← henc] at hroom
    rw [carriesKey_encryption_iff hmsg hroom.1 hroom.2, hkeyEnc, keyReaches_iff, leftBefore, List.nil_append]
  case integrity =>
    have hint : n.integrityAlg = algorithmNumber .integrity entry := readSettings_alg hn .integrity
    have hkeyInt : n.integrityKey = keyString malloc name entry .integrity := readSettings_string hn .integrity
    have hlen : kb.length ≤ 24 := by rw [harea.2]; omega
    have hfit := (pfAddsad_eq_some_iff.mp hmsg).1.1
    rw [carriesKey_integrity_iff hmsg (hint ▸ algorithmNumber_ne_zero harea.1) hlen, take_overlay,
      take_authRoom hfit hlen, ← take_overlay, hkeyInt, hkeyEnc, henc, keyReaches_iff, leftBefore]

/-- For which keys the SA gets the configured key. The entry is read when its
strings have room; then the extension carries the key exactly when it is the
last one configured for the use, up to the first zero byte of that, and from
there on what the buffer holds. Where the name of the entry has no marker and
the buffer holds zeros, this is that no other byte follows a zero byte of the
key. -/
theorem sad_keys (malloc : SadEntryNode) (name : CStr) {entry : List Setting} {u : KeyUse} {kb : Bytes}
    (hv : ∀ s ∈ entry, s.node.Valid s.data) (hkey : key? u entry = some kb) (harea : FillsArea u entry kb) :
    ((∃ n, readInRoom malloc name entry = some (.ok (), [], n)) ↔ EntryFits name entry) ∧
    (∀ n, readInRoom malloc name entry = some (.ok (), [], n) → ∀ e msg, pfAddsad e n = some msg →
      (CarriesKey u msg kb ↔ KeyReaches malloc name entry u kb)) ∧
    (strstr name u.marker = false → leftBefore malloc name entry u = [] →
      (KeyReaches malloc name entry u kb ↔ ZerosLast kb)) := by
  have hne : entry ≠ [] := by rintro rfl; cases hkey
  refine ⟨?_, fun n hread e msg hmsg => ?_, keyReaches_iff_zerosLast hkey⟩
  · constructor
    · rintro ⟨n, hread⟩
      exact ((readInRoom_eq_some_iff hv _).mp hread).1
    · intro hfits
      obtain ⟨n, -, hread⟩ := readSettings_eq malloc name hne
      exact ⟨n, (readInRoom_eq_some_iff hv _).mpr ⟨hfits, hread⟩⟩
  · have hsettings := ((readInRoom_eq_some_iff hv _).mp hread).2
    exact carriesKey_iff_reaches harea (storeAll_of_readSettings hsettings) hmsg

/-- An entry with a key for DES-CBC, in a hex-string. -/
def desEntry (key : String) (h : (hexBytes? (lit key).bytes).isSome = true) : List Setting :=
  [configSetting [.child (lit "esp-sa"), .child (lit "encryption"), .child (lit "encryption-algorithm")] (.uint 16)
      ⟨2, none⟩ (by decide +kernel) rfl,
   encryptionKey key h]

/-- The start of the key in `add_sad.xml`. -/
def printableKey : List Setting := desEntry "01:23:45:67:89:AB:CE:DF" (by decide +kernel) ++ addSadPrefixes

theorem printableKey_valid : ∀ s ∈ printableKey, s.node.Valid s.data :=
  List.forall_mem_append.mpr ⟨List.forall_mem_cons.mpr ⟨valid_of_other rfl rfl,
    List.forall_mem_singleton.mpr (valid_of_other rfl rfl)⟩, addSadPrefixes_valid⟩

theorem printableKey_fits : EntryFits (lit "gw") printableKey := by
  refine ⟨by decide +kernel, List.forall_mem_append.mpr ⟨List.forall_mem_cons.mpr ⟨?_, List.forall_mem_singleton.mpr ?_⟩,
    addSadPrefixes_fit⟩⟩
  · exact (fits_iff (k := .other) rfl).mpr trivial
  · have hshort : strlen (.ofBuf (keyBytes ⟨0x1000, some (lit "01:23:45:67:89:AB:CE:DF")⟩)) < 1024 := by decide +kernel
    exact (fits_iff (k := .hex) rfl).mpr hshort

theorem sad_keys_printable :
    ∃ n msg, readInRoom default (lit "gw") printableKey = some (.ok (), [], n) ∧
      pfAddsad ⟨0, 0, 0⟩ n = some msg ∧
      CarriesKey .encryption msg [0x01, 0x23, 0x45, 0x67, 0x89, 0xab, 0xce, 0xdf] := by
  obtain ⟨hfits, h, hz⟩ := sad_keys default (lit "gw") printableKey_valid
    (show key? .encryption printableKey = some [0x01, 0x23, 0x45, 0x67, 0x89, 0xab, 0xce, 0xdf] by decide +kernel)
    (.inl ⟨by decide +kernel, rfl⟩)
  obtain ⟨n, hread⟩ := hfits.mpr printableKey_fits
  have hadd : (readInRoom default (lit "gw") printableKey).any
      (fun r => (pfAddsad ⟨0, 0, 0⟩ r.2.2).isSome) = true := by decide +kernel
  rw [hread, Option.any_some] at hadd
  obtain ⟨msg, hmsg⟩ := Option.isSome_iff_exists.mp hadd
  refine ⟨n, msg, hread, hmsg, (h n hread _ msg hmsg).mpr ((hz (by decide +kernel) rfl).mpr ?_)⟩
  intro b hb
  rw [show [0x01, 0x23, 0x45, 0x67, 0x89, 0xab, 0xce, 0xdf].dropWhile (· ≠ (0 : Byte)) = [] by decide] at hb
  cases hb

/-- A key that starts with a zero byte. -/
def zeroFirstKey : List Setting := desEntry "00:11:22:33:44:55:66:77" (by decide +kernel) ++ addSadPrefixes

/-- Of a key that starts with a zero byte the SA gets none. -/
theorem sad_keys_zero_first :
    key? .encryption zeroFirstKey = some [0x00, 0x11, 0x22, 0x33, 0x44, 0x55, 0x66, 0x77] ∧
      FillsArea .encryption zeroFirstKey [0x00, 0x11, 0x22, 0x33, 0x44, 0x55, 0x66, 0x77] ∧
      ∃ n msg, readInRoom default (lit "gw") zeroFirstKey = some (.ok (), [], n) ∧
        pfAddsad ⟨0, 0, 0⟩ n = some msg ∧ CarriesKey .encryption msg [0, 0, 0, 0, 0, 0, 0, 0] ∧
        ¬CarriesKey .encryption msg [0x00, 0x11, 0x22, 0x33, 0x44, 0x55, 0x66, 0x77] := by
  refine ⟨by decide +kernel, .inl ⟨by decide +kernel, rfl⟩, ?_⟩
  have hrun : (readInRoom default (lit "gw") zeroFirstKey).any (fun r =>
      r.1 = .ok () ∧ r.2.1 = [] ∧ (pfAddsad ⟨0, 0, 0⟩ r.2.2).any fun msg =>
        (ext? msg SADB_EXT_KEY_ENCRYPT).any fun bs =>
          ((bs.take (8 * extFormat.size bs)).drop 8).take 8 = List.replicate 8 0) = true := by decide +kernel
  obtain ⟨⟨rc, it, n⟩, hread, h⟩ := (Option.any_eq_true _ _).mp hrun
  obtain ⟨rfl, rfl, h⟩ := of_decide_eq_true h
  obtain ⟨msg, hmsg, h⟩ := (Option.any_eq_true _ _).mp h
  obtain ⟨bs, hbs, h⟩ := (Option.any_eq_true _ _).mp h
  have hkey := of_decide_eq_true h
  refine ⟨n, msg, hread, hmsg, ⟨bs, hbs, hkey⟩, fun ⟨bs', hbs', hkey'⟩ => ?_⟩
  obtain rfl : bs = bs' := Option.some.inj (hbs.symm.trans hbs')
  exact absurd (hkey.symm.trans hkey') (by decide)

end CfgIpsec.Proof
