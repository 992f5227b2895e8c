import CfgIpsec.Impl.Walk
import CfgIpsec.Proof.Message
import CfgIpsec.Proof.Text
import CfgIpsec.Spec.Identity

/-!
# The messages of a SAD entry

`pfAddsad_eq_some_iff`: what `pf_addsad` sends is the message of the
extensions `sadRecords`, each as its structure says, and it sends it when the
addresses can be read and the keys fit the buffer. A key is laid over what the
buffer holds at its place (`overlay`): zeros, or the end of a longer key.
-/

namespace CfgIpsec.Proof

open Impl Spec Tlv
open CStr (lit)

/-! ## Extensions of a type -/

/-- A record of type `t`. -/
structure IsExt (e : Bytes) (t : BitVec 16) : Prop where
  record : IsRecord extFormat e
  type : extFormat.type e = t

theorem isExt_put {α β : Type} (c : Codec α) {pack : BitVec 16 × BitVec 16 × α → β}
    {fields : β → BitVec 16 × BitVec 16 × α} {h : ∀ b, pack (fields b) = b} {b : β} {bs : Bytes} {n : Nat}
    (hn : (fields b).1 = BitVec.ofNat 16 n) (h1 : 1 ≤ n) (hlt : n < 2 ^ 16)
    (hlen : (sadbExt c).size + bs.length = 8 * n) :
    IsExt (((sadbExt c).iso pack fields h).put b ++ bs) (fields b).2.1 :=
  ⟨isRecord_put c hn h1 hlt hlen, type_put c b bs⟩

theorem isExt_put_nil {α β : Type} (c : Codec α) {pack : BitVec 16 × BitVec 16 × α → β}
    {fields : β → BitVec 16 × BitVec 16 × α} {h : ∀ b, pack (fields b) = b} {b : β} {n : Nat}
    (hn : (fields b).1 = BitVec.ofNat 16 n) (h1 : 1 ≤ n) (hlt : n < 2 ^ 16)
    (hlen : (sadbExt c).size = 8 * n) : IsExt (((sadbExt c).iso pack fields h).put b) (fields b).2.1 := by
  have := @isExt_put _ _ c _ _ h _ [] _ hn h1 hlt hlen
  rwa [List.append_nil] at this

theorem isExt_sa {s : SadbSa} (h : s.len = 2) : IsExt (sadbSa.put s) s.exttype :=
  isExt_put_nil _ (n := 2) h (by omega) (by omega) rfl

theorem isExt_sa2 {s : SadbSa2} (h : s.len = 2) : IsExt (sadbSa2.put s) s.exttype :=
  isExt_put_nil _ (n := 2) h (by omega) (by omega) rfl

theorem isExt_lifetime {s : SadbLifetime} (h : s.len = 4) : IsExt (sadbLifetime.put s) s.exttype :=
  isExt_put_nil _ (n := 4) h (by omega) (by omega) rfl

theorem isExt_address {s : SadbAddress} (h : s.len = 3) : IsExt (sadbAddress.put s) s.exttype :=
  isExt_put_nil _ (n := 3) h (by omega) (by omega) rfl

theorem isExt_key {s : SadbKey} {area : Bytes} {n : Nat} (h : s.len = BitVec.ofNat 16 n) (h1 : 1 ≤ n)
    (hlt : n < 2 ^ 16) (hlen : 8 + area.length = 8 * n) : IsExt (sadbKey.put s ++ area) s.exttype :=
  isExt_put _ h h1 hlt hlen

/-- Records of pairwise different types are the extensions of a message. -/
theorem isExts_of_types {rs : List Bytes} {ts : List (BitVec 16)} (h : List.Forall₂ IsExt rs ts)
    (hn : ts.Nodup) (ht : ∀ t ∈ ts, t ≠ 0 ∧ t ≤ SADB_EXT_MAX) :
    rs.map extFormat.type = ts ∧ IsExts rs.flatten rs := by
  have hmap : rs.map extFormat.type = ts := by
    clear hn ht
    induction h with
    | nil => rfl
    | cons he _ ih => rw [List.map_cons, he.type, ih]
  have hrec : ∀ e ∈ rs, IsRecord extFormat e := by
    clear hmap hn ht
    induction h with
    | nil => simp
    | cons he _ ih => exact List.forall_mem_cons.mpr ⟨he.record, ih⟩
  exact ⟨hmap, ⟨rfl, hrec⟩, fun e he => ht _ (hmap ▸ List.mem_map_of_mem he), hmap ▸ hn⟩

/-! ## Keys -/

/-- What a copy of `key` over `left` leaves. -/
def overlay (left : Bytes) (key : CStr) : Bytes := key.bytes ++ left.drop (strlen key)

theorem length_overlay {left : Bytes} {key : CStr} (h : strlen key ≤ left.length) :
    (overlay left key).length = left.length := by
  rw [overlay, List.length_append, List.length_drop, ← strlen]; omega

/-- The record of a key in a buffer that holds `rest`. -/
def keyRecord (rest : Bytes) (t : BitVec 16) (len bits : Nat) (key : CStr) : Bytes :=
  sadbKey.put ⟨BitVec.ofNat 16 len, t, BitVec.ofNat 16 bits, 0⟩ ++
    (overlay (rest.drop 8) key).take (8 * len - 8)

theorem key_eq (b : Buf) (t : BitVec 16) {len : Nat} (bits : Nat) (key : CStr) (h1 : 1 ≤ len) :
    b.key t len bits key =
      if 8 + strlen key ≤ b.rest.length ∧ 8 * len ≤ b.rest.length then
        some ⟨b.done ++ keyRecord b.rest t len bits key,
          (overlay (b.rest.drop 8) key).drop (8 * len - 8)⟩
      else none := by
  have hsize : ∀ k, (sadbKey.put k).length = 8 := fun k => sadbKey.length_put k
  have hext : ∀ k, (sadbKey.put k ++ key.bytes) ++ b.rest.drop (sadbKey.put k ++ key.bytes).length =
      sadbKey.put k ++ overlay (b.rest.drop 8) key := by
    intro k
    rw [List.append_assoc, overlay, List.length_append, hsize, List.drop_drop]; rfl
  have htake : ∀ k (ys : Bytes), (sadbKey.put k ++ ys).take (8 * len) = sadbKey.put k ++ ys.take (8 * len - 8) := by
    intro k ys
    rw [List.take_append, hsize k, List.take_of_length_le (by rw [hsize k]; omega)]
  have hdrop : ∀ k (ys : Bytes), (sadbKey.put k ++ ys).drop (8 * len) = ys.drop (8 * len - 8) := by
    intro k ys
    rw [List.drop_append, hsize k, List.drop_eq_nil_of_le (by rw [hsize k]; omega), List.nil_append]
  rw [Buf.key]
  simp only [hext, htake, hdrop, keyRecord]
  simp only [List.length_append, hsize, strlen]
  congr

theorem isExt_keyRecord {rest : Bytes} {t : BitVec 16} {len bits : Nat} {key : CStr} (h1 : 1 ≤ len)
    (hlt : len < 2 ^ 16) (hk : 8 + strlen key ≤ rest.length) (hr : 8 * len ≤ rest.length) :
    IsExt (keyRecord rest t len bits key) t := by
  refine isExt_key rfl h1 hlt ?_
  rw [List.length_take, length_overlay (by rw [List.length_drop]; omega), List.length_drop]
  omega

/-! ## Adding an SA -/

/-- The room of the buffer after the addresses. -/
def keyRoom : Bytes := List.replicate 3936 0

@[simp] theorem length_keyRoom : keyRoom.length = 3936 := List.length_replicate ..

/-- The key extensions of `pf_addsad`: `KEY_ENCRYPT`. -/
def encryptRecords (n : SadEntryNode) : List Bytes :=
  let area := encryptKeyArea n.encryptionAlg
  if n.encryptionAlg ≠ SADB_EALG_NONE then
    [keyRecord keyRoom SADB_EXT_KEY_ENCRYPT area.len area.bits n.encryptionKey]
  else []

/-- What the buffer holds from the end of `KEY_ENCRYPT` on. -/
def authRoom (n : SadEntryNode) : Bytes :=
  if n.encryptionAlg ≠ SADB_EALG_NONE then
    (overlay (keyRoom.drop 8) n.encryptionKey).drop (8 * (encryptKeyArea n.encryptionAlg).len - 8)
  else keyRoom

/-- The key extensions of `pf_addsad`: `KEY_AUTH`. -/
def authRecords (n : SadEntryNode) : List Bytes :=
  let area := authKeyArea n.integrityAlg
  if n.integrityAlg ≠ SADB_AALG_NONE then
    [keyRecord (authRoom n) SADB_EXT_KEY_AUTH area.len area.bits n.integrityKey]
  else []

/-- The encryption key is copied within the buffer. -/
def EncryptKeyFits (n : SadEntryNode) : Prop :=
  n.encryptionAlg ≠ SADB_EALG_NONE → strlen n.encryptionKey ≤ 3928

/-- The integrity key is copied within the buffer. -/
def AuthKeyFits (n : SadEntryNode) : Prop :=
  n.integrityAlg ≠ SADB_AALG_NONE → 8 + strlen n.integrityKey ≤ (authRoom n).length

instance (n : SadEntryNode) : Decidable (EncryptKeyFits n) := inferInstanceAs (Decidable (_ → _))
instance (n : SadEntryNode) : Decidable (AuthKeyFits n) := inferInstanceAs (Decidable (_ → _))

/-- The extensions of `pf_addsad`, in order. -/
def sadRecords (n : SadEntryNode) (addrs : SadbAddress × SadbAddress) : List Bytes :=
  [sadbSa.put (saExt n), sadbSa2.put (sa2Ext n), sadbLifetime.put (hardExt n),
    sadbLifetime.put (softExt n), sadbAddress.put addrs.1, sadbAddress.put addrs.2] ++
    (encryptRecords n ++ authRecords n)

/-- The header of `pf_addsad`. -/
def addHeader (e : MsgEnv) (n : SadEntryNode) : SadbMsg :=
  { version := PF_KEY_V2, type := SADB_ADD, satype := satypeOf n.protocolParameters, pid := e.pid }

theorem encryptKeyArea_len (alg : BitVec 32) :
    2 ≤ (encryptKeyArea alg).len ∧ (encryptKeyArea alg).len ≤ 4 := by
  unfold encryptKeyArea
  split
  · decide
  · split <;> decide

theorem authKeyArea_len (alg : BitVec 32) : (authKeyArea alg).len = 4 := by
  unfold authKeyArea
  split <;> rfl

theorem length_authRoom {n : SadEntryNode} (h : EncryptKeyFits n) : 3904 ≤ (authRoom n).length := by
  rw [authRoom]
  split
  · rename_i ha
    have := encryptKeyArea_len n.encryptionAlg
    rw [List.length_drop, length_overlay (by simpa using h ha), List.length_drop, length_keyRoom]
    omega
  · rw [length_keyRoom]; omega

theorem encryptKey_eq {n : SadEntryNode} {b : Buf} (hb : b.rest = keyRoom) :
    encryptKey n b =
      if EncryptKeyFits n then some ⟨b.done ++ (encryptRecords n).flatten, authRoom n⟩ else none := by
  rw [encryptKey, encryptRecords, authRoom]
  by_cases h : n.encryptionAlg ≠ SADB_EALG_NONE
  · have hl := encryptKeyArea_len n.encryptionAlg
    have hiff : (8 + strlen n.encryptionKey ≤ keyRoom.length ∧
        8 * (encryptKeyArea n.encryptionAlg).len ≤ keyRoom.length) ↔ EncryptKeyFits n := by
      rw [length_keyRoom, EncryptKeyFits]
      exact ⟨fun hk _ => by omega, fun hk => by have := hk h; omega⟩
    simp only [if_pos h, key_eq b _ _ _ (show 1 ≤ (encryptKeyArea n.encryptionAlg).len by omega), hb, hiff,
      List.flatten_cons, List.flatten_nil, List.append_nil]
  · have hfit : EncryptKeyFits n := fun h' => absurd h' h
    rw [if_neg h, if_pos hfit, if_neg h, if_neg h, ← hb]
    simp

theorem authKey_bind {β : Type} {n : SadEntryNode} {b : Buf} (hb : b.rest = authRoom n)
    (hf : EncryptKeyFits n) (f : Bytes → Option β) :
    ((authKey n b).bind fun b => f b.done) =
      if AuthKeyFits n then f (b.done ++ (authRecords n).flatten) else none := by
  have hr := length_authRoom hf
  rw [authKey, authRecords]
  by_cases h : n.integrityAlg ≠ SADB_AALG_NONE
  · have hl := authKeyArea_len n.integrityAlg
    have hiff : (8 + strlen n.integrityKey ≤ (authRoom n).length ∧
        8 * (authKeyArea n.integrityAlg).len ≤ (authRoom n).length) ↔ AuthKeyFits n :=
      ⟨fun hk _ => hk.1, fun hk => ⟨hk h, by omega⟩⟩
    simp only [if_pos h, key_eq b _ _ _ (show 1 ≤ (authKeyArea n.integrityAlg).len by omega), hb, hiff,
      List.flatten_cons, List.flatten_nil, List.append_nil]
    split <;> rfl
  · have hfit : AuthKeyFits n := fun h' => absurd h' h
    rw [if_neg h, if_pos hfit, if_neg h]
    simp

/-- What `pf_addsad` sends. -/
theorem pfAddsad_eq_some_iff {e : MsgEnv} {n : SadEntryNode} {msg : Bytes} :
    pfAddsad e n = some msg ↔
      (EncryptKeyFits n ∧ AuthKeyFits n) ∧ ∃ addrs, sadAddrs e n = some addrs ∧
        msg = message (addHeader e n) (sadRecords n addrs).flatten := by
  rw [pfAddsad]
  cases ha : sadAddrs e n with
  | none => simp
  | some addrs =>
    obtain ⟨src, dst⟩ := addrs
    simp only [Option.bind_eq_bind, Option.bind_some]
    have hstart : ∀ l : Bytes, l.length = 144 → (Buf.start l).rest = keyRoom := by
      intro l hl
      rw [Buf.start, hl]; rfl
    have hlen : ([sadbSa.put (saExt n), sadbSa2.put (sa2Ext n), sadbLifetime.put (hardExt n),
        sadbLifetime.put (softExt n), sadbAddress.put src, sadbAddress.put dst].flatten).length = 144 := by
      simp only [List.flatten_cons, List.flatten_nil, List.length_append, Codec.length_put]
      rfl
    rw [encryptKey_eq (hstart _ hlen)]
    by_cases he : EncryptKeyFits n
    · have hauth := fun d => authKey_bind (b := ⟨d, authRoom n⟩) rfl he
        fun exts => some (message (addHeader e n) exts)
      rw [if_pos he, Option.bind_some]
      change ((authKey n _).bind fun b => some (message (addHeader e n) b.done)) = _ ↔ _
      rw [hauth]
      by_cases hk : AuthKeyFits n
      · simp [he, hk, sadRecords, Buf.start, eq_comm]
      · simp [hk]
    · simp [he]

/-! ## What the extensions are -/

/-- The types of the key extensions. -/
def keyTypes (n : SadEntryNode) : List (BitVec 16) :=
  (if n.encryptionAlg ≠ SADB_EALG_NONE then [SADB_EXT_KEY_ENCRYPT] else []) ++
    if n.integrityAlg ≠ SADB_AALG_NONE then [SADB_EXT_KEY_AUTH] else []

/-- The types of the extensions of `pf_addsad`, in order. -/
def sadTypes (n : SadEntryNode) : List (BitVec 16) :=
  [SADB_EXT_SA, SADB_X_EXT_SA2, SADB_EXT_LIFETIME_HARD, SADB_EXT_LIFETIME_SOFT, SADB_EXT_ADDRESS_SRC,
    SADB_EXT_ADDRESS_DST] ++ keyTypes n

theorem keyTypes_mem (n : SadEntryNode) :
    keyTypes n ∈ [[], [SADB_EXT_KEY_ENCRYPT], [SADB_EXT_KEY_AUTH], [SADB_EXT_KEY_ENCRYPT, SADB_EXT_KEY_AUTH]] := by
  rw [keyTypes]
  by_cases he : n.encryptionAlg ≠ SADB_EALG_NONE <;> by_cases ha : n.integrityAlg ≠ SADB_AALG_NONE
  · rw [if_pos he, if_pos ha]; simp
  · rw [if_pos he, if_neg ha]; simp
  · rw [if_neg he, if_pos ha]; simp
  · rw [if_neg he, if_neg ha]; simp

/-- They are types a message may have. -/
theorem sadTypes_ok (n : SadEntryNode) :
    (sadTypes n).Nodup ∧ ∀ t ∈ sadTypes n, t ≠ 0 ∧ t ≤ SADB_EXT_MAX := by
  have hall : (sadTypes n).Nodup ∧ (sadTypes n).all (fun t => t ≠ 0 ∧ t ≤ SADB_EXT_MAX) = true := by
    have hk := keyTypes_mem n
    simp only [List.mem_cons, List.not_mem_nil, or_false] at hk
    rw [sadTypes]
    rcases hk with h | h | h | h <;> rw [h] <;> decide +kernel
  simpa using hall

/-- An address extension of type `t`. -/
structure IsAddress (a : SadbAddress) (t : BitVec 16) : Prop where
  len : a.len = 3
  exttype : a.exttype = t

theorem isAddress_pfSetsadbaddr (zero : BitVec 64) (t : BitVec 16) (proto len port : BitVec 32) (ip : CStr) :
    IsAddress (pfSetsadbaddr zero t proto len port ip) t := ⟨rfl, rfl⟩

theorem isAddress_subnetAddr {zero : BitVec 64} {t : BitVec 16} {proto port : BitVec 32} {subnet : CStr}
    {a : SadbAddress} (h : subnetAddr zero t proto port subnet = some a) : IsAddress a t := by
  rw [subnetAddr] at h
  obtain ⟨mask, -, h⟩ := Option.bind_eq_some_iff.mp h
  obtain ⟨ip, -, h⟩ := Option.bind_eq_some_iff.mp h
  cases h
  exact isAddress_pfSetsadbaddr ..

theorem isAddress_sadAddrs {e : MsgEnv} {n : SadEntryNode} {addrs : SadbAddress × SadbAddress}
    (h : sadAddrs e n = some addrs) :
    IsAddress addrs.1 SADB_EXT_ADDRESS_SRC ∧ IsAddress addrs.2 SADB_EXT_ADDRESS_DST := by
  rw [sadAddrs] at h
  split at h
  · cases h; exact ⟨isAddress_pfSetsadbaddr .., isAddress_pfSetsadbaddr ..⟩
  · obtain ⟨src, hs, h⟩ := Option.bind_eq_some_iff.mp h
    obtain ⟨dst, hd, h⟩ := Option.bind_eq_some_iff.mp h
    cases h
    exact ⟨isAddress_subnetAddr hs, isAddress_subnetAddr hd⟩

theorem isExt_of_isAddress {a : SadbAddress} {t : BitVec 16} (h : IsAddress a t) :
    IsExt (sadbAddress.put a) t := h.exttype ▸ isExt_address h.len

theorem isExt_encryptRecords {n : SadEntryNode} (h : EncryptKeyFits n) :
    List.Forall₂ IsExt (encryptRecords n)
      (if n.encryptionAlg ≠ SADB_EALG_NONE then [SADB_EXT_KEY_ENCRYPT] else []) := by
  rw [encryptRecords]
  split
  · rename_i ha
    have hl := encryptKeyArea_len n.encryptionAlg
    have := h ha
    exact .cons (isExt_keyRecord (by omega) (by omega) (by rw [length_keyRoom]; omega)
      (by rw [length_keyRoom]; omega)) .nil
  · exact .nil

theorem isExt_authRecords {n : SadEntryNode} (he : EncryptKeyFits n) (h : AuthKeyFits n) :
    List.Forall₂ IsExt (authRecords n)
      (if n.integrityAlg ≠ SADB_AALG_NONE then [SADB_EXT_KEY_AUTH] else []) := by
  rw [authRecords]
  split
  · rename_i ha
    have hl := authKeyArea_len n.integrityAlg
    have hr := length_authRoom he
    exact .cons (isExt_keyRecord (by omega) (by omega) (h ha) (by omega)) .nil
  · exact .nil

/-- The extensions of `pf_addsad` are well formed, of the types `sadTypes`. -/
theorem isExts_sadRecords {n : SadEntryNode} {addrs : SadbAddress × SadbAddress}
    (hsrc : IsAddress addrs.1 SADB_EXT_ADDRESS_SRC) (hdst : IsAddress addrs.2 SADB_EXT_ADDRESS_DST)
    (he : EncryptKeyFits n) (ha : AuthKeyFits n) :
    (sadRecords n addrs).map extFormat.type = sadTypes n ∧
      IsExts (sadRecords n addrs).flatten (sadRecords n addrs) := by
  refine isExts_of_types ?_ (sadTypes_ok n).1 (sadTypes_ok n).2
  refine List.rel_append ?_ (List.rel_append (isExt_encryptRecords he) (isExt_authRecords he ha))
  exact .cons (isExt_sa rfl) (.cons (isExt_sa2 rfl) (.cons (isExt_lifetime rfl)
    (.cons (isExt_lifetime rfl) (.cons (isExt_of_isAddress hsrc) (.cons (isExt_of_isAddress hdst) .nil)))))

/-- At most eight extensions, none of them longer than four units. -/
theorem length_sadRecords (n : SadEntryNode) (addrs : SadbAddress × SadbAddress) :
    (sadRecords n addrs).flatten.length < 2 ^ 18 := by
  have hkey : ∀ rest t len bits key, len ≤ 4 → (keyRecord rest t len bits key).length ≤ 32 := by
    intro rest t len bits key hl
    rw [keyRecord, List.length_append, Codec.length_put, List.length_take]
    have : sadbKey.size = 8 := rfl
    omega
  have henc : (encryptRecords n).flatten.length ≤ 32 := by
    rw [encryptRecords]
    split
    · simpa using hkey _ _ _ _ _ (encryptKeyArea_len n.encryptionAlg).2
    · simp
  have hauth : (authRecords n).flatten.length ≤ 32 := by
    rw [authRecords]
    split
    · simpa using hkey _ _ _ _ _ (authKeyArea_len n.integrityAlg).le
    · simp
  have hfix : ([sadbSa.put (saExt n), sadbSa2.put (sa2Ext n), sadbLifetime.put (hardExt n),
      sadbLifetime.put (softExt n), sadbAddress.put addrs.1, sadbAddress.put addrs.2].flatten).length = 144 := by
    simp only [List.flatten_cons, List.flatten_nil, List.length_append, Codec.length_put]
    rfl
  rw [sadRecords, List.flatten_append, List.flatten_append, List.length_append, List.length_append, hfix]
  omega

/-- What a message of `pf_addsad` says of the node it was built from. -/
structure SaysAdd (e : MsgEnv) (n : SadEntryNode) (addrs : SadbAddress × SadbAddress) (msg : Bytes) :
    Prop where
  length : msg.length = 8 * msgUnits msg
  accepted : Accepted msg
  types : ∀ t, (ext? msg t).isSome ↔ t ∈ sadTypes n
  type : msgType msg = SADB_ADD
  satype : (sadbMsg.get msg).satype = satypeOf n.protocolParameters
  sa : decode sadbSa msg SADB_EXT_SA = some (saExt n)
  sa2 : decode sadbSa2 msg SADB_X_EXT_SA2 = some (sa2Ext n)
  hard : decode sadbLifetime msg SADB_EXT_LIFETIME_HARD = some (hardExt n)
  soft : decode sadbLifetime msg SADB_EXT_LIFETIME_SOFT = some (softExt n)
  src : decode sadbAddress msg SADB_EXT_ADDRESS_SRC = some addrs.1
  dst : decode sadbAddress msg SADB_EXT_ADDRESS_DST = some addrs.2

theorem msgType_message (m : SadbMsg) (exts : Bytes) : msgType (message m exts) = m.type := by
  have h := congrArg SadbMsg.type (sadbMsg_get_message m exts)
  have hget : (sadbMsg.get (message m exts)).type = getLE ((message m exts).drop 1) 0 8 := rfl
  rw [hget, getLE_drop] at h
  exact h

/-- What `pf_addsad` sends says what the node holds. -/
theorem pfAddsad_says {e : MsgEnv} {n : SadEntryNode} {msg : Bytes} (h : pfAddsad e n = some msg) :
    ∃ addrs, sadAddrs e n = some addrs ∧ SaysAdd e n addrs msg := by
  obtain ⟨⟨he, ha⟩, addrs, haddrs, rfl⟩ := pfAddsad_eq_some_iff.mp h
  obtain ⟨hsrc, hdst⟩ := isAddress_sadAddrs haddrs
  obtain ⟨htypes, hexts⟩ := isExts_sadRecords hsrc hdst he ha
  have hlt := length_sadRecords n addrs
  have hfirst : ∀ {α : Type} {c : Codec α} {a : α} {t : BitVec 16},
      c.put a ∈ [sadbSa.put (saExt n), sadbSa2.put (sa2Ext n), sadbLifetime.put (hardExt n),
        sadbLifetime.put (softExt n), sadbAddress.put addrs.1, sadbAddress.put addrs.2] →
      IsExt (c.put a) t → decode c (message (addHeader e n) (sadRecords n addrs).flatten) t = some a := by
    intro α c a t hmem ht
    refine decode_message_nil hexts hlt ?_ ht.type
    exact List.mem_append_left _ hmem
  obtain ⟨hlen, hparse⟩ := parse_message (m := addHeader e n) hexts hlt
  refine ⟨addrs, haddrs, hlen, ⟨_, hparse⟩, fun t => ?_, msgType_message _ _, ?_,
    hfirst (by simp) (isExt_sa rfl), hfirst (by simp) (isExt_sa2 rfl),
    hfirst (by simp) (isExt_lifetime rfl), hfirst (by simp) (isExt_lifetime rfl),
    hfirst (by simp) (isExt_of_isAddress hsrc), hfirst (by simp) (isExt_of_isAddress hdst)⟩
  · rw [ext?_message_isSome hexts hlt, htypes]
  · rw [sadbMsg_get_message]; rfl

/-! ## Requests with two addresses -/

/-- What a message says that has the record `first` and two addresses. -/
structure SaysEnds (t : BitVec 16) (first : Bytes) (src dst : SadbAddress) (msg : Bytes) : Prop where
  length : msg.length = 8 * msgUnits msg
  accepted : Accepted msg
  types : ∀ t', (ext? msg t').isSome ↔ t' ∈ [t, SADB_EXT_ADDRESS_SRC, SADB_EXT_ADDRESS_DST]
  first : ∃ tail, ext? msg t = some (first ++ tail)
  src : decode sadbAddress msg SADB_EXT_ADDRESS_SRC = some src
  dst : decode sadbAddress msg SADB_EXT_ADDRESS_DST = some dst

/-- The record `first` and two addresses are the extensions of a message. -/
theorem isExts_ends {t : BitVec 16} {first : Bytes} {src dst : SadbAddress} (h : IsExt first t)
    (hsrc : IsAddress src SADB_EXT_ADDRESS_SRC) (hdst : IsAddress dst SADB_EXT_ADDRESS_DST)
    (hn : [t, SADB_EXT_ADDRESS_SRC, SADB_EXT_ADDRESS_DST].Nodup) (ht : t ≠ 0 ∧ t ≤ SADB_EXT_MAX)
    (hlen : first.length ≤ 2 ^ 17) :
    [first, sadbAddress.put src, sadbAddress.put dst].map extFormat.type =
        [t, SADB_EXT_ADDRESS_SRC, SADB_EXT_ADDRESS_DST] ∧
      IsExts [first, sadbAddress.put src, sadbAddress.put dst].flatten
        [first, sadbAddress.put src, sadbAddress.put dst] ∧
      [first, sadbAddress.put src, sadbAddress.put dst].flatten.length < 2 ^ 18 := by
  have hrecs : List.Forall₂ IsExt [first, sadbAddress.put src, sadbAddress.put dst]
      [t, SADB_EXT_ADDRESS_SRC, SADB_EXT_ADDRESS_DST] :=
    .cons h (.cons (isExt_of_isAddress hsrc) (.cons (isExt_of_isAddress hdst) .nil))
  obtain ⟨htypes, hexts⟩ := isExts_of_types hrecs hn (by
    simp only [List.forall_mem_cons, List.not_mem_nil, false_implies, implies_true, and_true]
    exact ⟨ht, by decide, by decide⟩)
  refine ⟨htypes, hexts, ?_⟩
  simp only [List.flatten_cons, List.flatten_nil, List.length_append, Codec.length_put, List.length_nil]
  have : sadbAddress.size = 24 := rfl
  omega

theorem saysEnds_message {m : SadbMsg} {t : BitVec 16} {first : Bytes} {src dst : SadbAddress}
    (h : IsExt first t) (hsrc : IsAddress src SADB_EXT_ADDRESS_SRC)
    (hdst : IsAddress dst SADB_EXT_ADDRESS_DST)
    (hn : [t, SADB_EXT_ADDRESS_SRC, SADB_EXT_ADDRESS_DST].Nodup)
    (ht : t ≠ 0 ∧ t ≤ SADB_EXT_MAX) (hlen : first.length ≤ 2 ^ 17) :
    SaysEnds t first src dst (message m [first, sadbAddress.put src, sadbAddress.put dst].flatten) := by
  obtain ⟨htypes, hexts, hlt⟩ := isExts_ends h hsrc hdst hn ht hlen
  obtain ⟨hl, hparse⟩ := parse_message (m := m) hexts hlt
  refine ⟨hl, ⟨_, hparse⟩, fun t' => ?_, ?_, ?_, ?_⟩
  · rw [ext?_message_isSome hexts hlt, htypes]
  · rw [← h.type, ext?_message hexts hlt (List.nil_append _).symm]
    exact ⟨_, rfl⟩
  · exact decode_message_nil hexts hlt (by simp) (isExt_of_isAddress hsrc).type
  · exact decode_message_nil hexts hlt (by simp) (isExt_of_isAddress hdst).type

/-- The SA of `pf_delsad` and `pf_getsad`. -/
def requestSa (n : SadEntryNode) : SadbSa := { len := 2, exttype := SADB_EXT_SA, spi := n.spi.setWidth 32 }

/-- What `pf_delsad` and `pf_getsad` send says which SA the node is, by its subnets. -/
theorem sadRequest_says {type : BitVec 8} {e : MsgEnv} {n : SadEntryNode} {msg : Bytes}
    (h : sadRequest type e n = some msg) :
    ∃ src dst,
      subnetAddr e.src SADB_EXT_ADDRESS_SRC n.innerProtocol n.srcport n.localSubnet = some src ∧
      subnetAddr e.dst SADB_EXT_ADDRESS_DST n.innerProtocol n.dstport n.remoteSubnet = some dst ∧
      SaysEnds SADB_EXT_SA (sadbSa.put (requestSa n)) src dst msg ∧
      msgType msg = type ∧ (sadbMsg.get msg).satype = satypeOf n.protocolParameters := by
  rw [sadRequest] at h
  obtain ⟨src, hsrc, h⟩ := Option.bind_eq_some_iff.mp h
  obtain ⟨dst, hdst, h⟩ := Option.bind_eq_some_iff.mp h
  cases h
  refine ⟨src, dst, hsrc, hdst, saysEnds_message (isExt_sa rfl) (isAddress_subnetAddr hsrc)
    (isAddress_subnetAddr hdst) (by decide) (by decide) ?_, msgType_message _ _, ?_⟩
  · rw [Codec.length_put]; decide
  · rw [sadbMsg_get_message]

/-! ## Subnets -/

theorem subnetAddr_isSome_iff {zero : BitVec 64} {t : BitVec 16} {proto port : BitVec 32} {subnet : CStr} :
    (subnetAddr zero t proto port subnet).isSome ↔ IsSubnet subnet := by
  rw [subnetAddr, IsSubnet]
  cases getMask subnet with
  | none => simp
  | some mask => cases getIp subnet <;> simp

/-- A message made of both subnets can be made when they are read. -/
theorem addrs_isSome_iff {z z' : BitVec 64} {ext ext' : BitVec 16} {protocol port protocol' port' : BitVec 32} {s s' : CStr}
    {f : SadbAddress → SadbAddress → Bytes} :
    ((subnetAddr z ext protocol port s).bind fun a => (subnetAddr z' ext' protocol' port' s').bind fun b =>
      some (f a b)).isSome ↔ IsSubnet s ∧ IsSubnet s' := by
  rw [← @subnetAddr_isSome_iff z ext protocol port s, ← @subnetAddr_isSome_iff z' ext' protocol' port' s']
  cases subnetAddr z ext protocol port s <;> cases subnetAddr z' ext' protocol' port' s' <;> simp

theorem sadRequest_isSome_iff {type : BitVec 8} {e : MsgEnv} {n : SadEntryNode} :
    (sadRequest type e n).isSome ↔ SadRemovable n := addrs_isSome_iff

theorem subnetAddr_prefixText {zero : BitVec 64} {t : BitVec 16} {proto port : BitVec 32} {s ip : CStr}
    {len : Nat} (h : IsPrefixText s ip len) :
    subnetAddr zero t proto port s = some (address zero t proto len port ip) := by
  rw [subnetAddr, getMask_prefixText h, getIp_prefixText h]
  simp only [Option.bind_eq_bind, Option.bind_some, pfSetsadbaddr, address]
  rw [BitVec.setWidth_ofNat_of_le (by omega)]
  rfl

/-- What the extension of a subnet tells of it. -/
theorem subnetAddr_fields {zero : BitVec 64} {t : BitVec 16} {proto port : BitVec 32} {subnet : CStr}
    {a : SadbAddress} (h : subnetAddr zero t proto port subnet = some a) :
    a.proto = proto.setWidth 8 ∧ a.prefixlen = subnetLen subnet ∧ a.sockaddr.addr = subnetIp subnet ∧
      a.sockaddr.port = port.setWidth 16 := by
  rw [subnetAddr] at h
  obtain ⟨mask, hmask, h⟩ := Option.bind_eq_some_iff.mp h
  obtain ⟨ip, hip, h⟩ := Option.bind_eq_some_iff.mp h
  cases h
  rw [subnetLen, subnetIp, hmask, hip]
  exact ⟨rfl, rfl, rfl, rfl⟩

theorem keysFit_of_lt {n : SadEntryNode} (he : strlen n.encryptionKey < MAX_KEY)
    (ha : strlen n.integrityKey < MAX_KEY) : EncryptKeyFits n ∧ AuthKeyFits n := by
  rw [MAX_KEY] at he ha
  have hfit : EncryptKeyFits n := fun _ => by omega
  have := length_authRoom hfit
  exact ⟨hfit, fun _ => by omega⟩

/-- The messages of a SAD entry decode to it. -/
theorem sad_messages_decode (e : MsgEnv) (n : SadEntryNode) {localIp remoteIp : CStr}
    {localLen remoteLen : Nat} (hl : IsPrefixText n.localSubnet localIp localLen)
    (hr : IsPrefixText n.remoteSubnet remoteIp remoteLen) (hek : strlen n.encryptionKey < MAX_KEY)
    (hik : strlen n.integrityKey < MAX_KEY) :
    (∃ msg, pfAddsad e n = some msg ∧ msg.length = 8 * msgUnits msg ∧ Accepted msg ∧
      (∀ t, (ext? msg t).isSome ↔
        t ∈ [SADB_EXT_SA, SADB_X_EXT_SA2, SADB_EXT_LIFETIME_HARD, SADB_EXT_LIFETIME_SOFT,
          SADB_EXT_ADDRESS_SRC, SADB_EXT_ADDRESS_DST] ∨
        (t = SADB_EXT_KEY_ENCRYPT ∧ n.encryptionAlg ≠ SADB_EALG_NONE) ∨
        (t = SADB_EXT_KEY_AUTH ∧ n.integrityAlg ≠ SADB_AALG_NONE)) ∧
      decode sadbSa msg SADB_EXT_SA = some {
        len := 2, exttype := SADB_EXT_SA, spi := n.spi.setWidth 32
        replay := n.antiReplayWindow.setWidth 8, state := SADB_SASTATE_MATURE
        auth := n.integrityAlg.setWidth 8, encrypt := n.encryptionAlg.setWidth 8, flags := 0 } ∧
      decode sadbSa2 msg SADB_X_EXT_SA2 = some {
        len := 2, exttype := SADB_X_EXT_SA2, mode := n.ipsecMode.setWidth 8
        reqid := n.reqId.setWidth 32 } ∧
      decode sadbLifetime msg SADB_EXT_LIFETIME_HARD = some {
        len := 4, exttype := SADB_EXT_LIFETIME_HARD, allocations := n.lftPacketsHard.setWidth 32
        bytes := n.lftBytesHard, addtime := n.lftTimeHard, usetime := n.lftIdleHard } ∧
      decode sadbLifetime msg SADB_EXT_LIFETIME_SOFT = some {
        len := 4, exttype := SADB_EXT_LIFETIME_SOFT, allocations := n.lftPacketsSoft.setWidth 32
        bytes := n.lftBytesSoft, addtime := n.lftTimeSoft, usetime := n.lftIdleSoft } ∧
      decode sadbAddress msg SADB_EXT_ADDRESS_SRC = some
        (if n.ipsecMode = IPSEC_MODE_TUNNEL then
          address e.src SADB_EXT_ADDRESS_SRC n.innerProtocol 32 n.srcport n.tunnelLocal
        else address e.src SADB_EXT_ADDRESS_SRC n.innerProtocol localLen n.srcport localIp) ∧
      decode sadbAddress msg SADB_EXT_ADDRESS_DST = some
        (if n.ipsecMode = IPSEC_MODE_TUNNEL then
          address e.dst SADB_EXT_ADDRESS_DST n.innerProtocol 32 n.dstport n.tunnelRemote
        else address e.dst SADB_EXT_ADDRESS_DST n.innerProtocol remoteLen n.dstport remoteIp)) ∧
    ∀ build ∈ [pfDelsad, pfGetsad], ∃ msg, build e n = some msg ∧ msg.length = 8 * msgUnits msg ∧
      Accepted msg ∧ ∀ t, (ext? msg t).isSome ↔
        t ∈ [SADB_EXT_SA, SADB_EXT_ADDRESS_SRC, SADB_EXT_ADDRESS_DST] := by
  have haddrs : sadAddrs e n = some
      (if n.ipsecMode = IPSEC_MODE_TUNNEL then
        (address e.src SADB_EXT_ADDRESS_SRC n.innerProtocol 32 n.srcport n.tunnelLocal,
          address e.dst SADB_EXT_ADDRESS_DST n.innerProtocol 32 n.dstport n.tunnelRemote)
      else (address e.src SADB_EXT_ADDRESS_SRC n.innerProtocol localLen n.srcport localIp,
        address e.dst SADB_EXT_ADDRESS_DST n.innerProtocol remoteLen n.dstport remoteIp)) := by
    rw [sadAddrs]
    split
    · rfl
    · rw [subnetAddr_prefixText hl, subnetAddr_prefixText hr]; rfl
  constructor
  · have hmsg := pfAddsad_eq_some_iff.mpr ⟨keysFit_of_lt hek hik, _, haddrs, rfl⟩
    obtain ⟨addrs, ha, htells⟩ := pfAddsad_says hmsg
    obtain rfl := Option.some.inj (haddrs.symm.trans ha)
    refine ⟨_, hmsg, htells.length, htells.accepted, fun t => ?_, htells.sa, htells.sa2, htells.hard,
      htells.soft, ?_, ?_⟩
    · rw [htells.types, sadTypes, List.mem_append, keyTypes, List.mem_append]
      have hite : ∀ (p : Prop) [Decidable p] (k : BitVec 16), t ∈ (if p then [k] else []) ↔ t = k ∧ p := by
        intro p _ k; split <;> simp_all
      rw [hite, hite]
    · rw [htells.src]; split <;> rfl
    · rw [htells.dst]; split <;> rfl
  · have hreq : ∀ type, ∃ msg, sadRequest type e n = some msg ∧ msg.length = 8 * msgUnits msg ∧
        Accepted msg ∧ ∀ t, (ext? msg t).isSome ↔
          t ∈ [SADB_EXT_SA, SADB_EXT_ADDRESS_SRC, SADB_EXT_ADDRESS_DST] := by
      intro type
      have hmsg : ∃ msg, sadRequest type e n = some msg := by
        rw [sadRequest, subnetAddr_prefixText hl, subnetAddr_prefixText hr]
        exact ⟨_, rfl⟩
      obtain ⟨msg, hmsg⟩ := hmsg
      obtain ⟨_, _, -, -, htells, -, -⟩ := sadRequest_says hmsg
      exact ⟨msg, hmsg, htells.length, htells.accepted, htells.types⟩
    simp only [List.forall_mem_cons, List.not_mem_nil, false_implies, implies_true, and_true]
    exact ⟨hreq SADB_DELETE, hreq SADB_GET⟩

/-- An entry between the prefixes of `add_sad.xml`, with a key for DES-CBC. -/
def desNode : SadEntryNode :=
  { (default : SadEntryNode) with
    localSubnet := lit "192.168.201.0/24", remoteSubnet := lit "192.168.202.0/24"
    protocolParameters := IPPROTO_ESP, encryptionAlg := 2, encryptionKey := lit "ABCDEFGH" }

theorem isPrefixText_desNode : IsPrefixText desNode.localSubnet (lit "192.168.201.0") 24 ∧
    IsPrefixText desNode.remoteSubnet (lit "192.168.202.0") 24 :=
  ⟨⟨by decide +kernel, by decide +kernel, by decide +kernel, by decide⟩,
    ⟨by decide +kernel, by decide +kernel, by decide +kernel, by decide⟩⟩

theorem sad_messages_decode_des :
    ∃ msg, pfAddsad ⟨1, 0, 0⟩ desNode = some msg ∧ Accepted msg ∧
      (ext? msg SADB_EXT_KEY_ENCRYPT).isSome = true ∧ (ext? msg SADB_EXT_KEY_AUTH).isSome = false := by
  obtain ⟨⟨msg, hmsg, -, hacc, htypes, -⟩, -⟩ := sad_messages_decode ⟨1, 0, 0⟩ desNode isPrefixText_desNode.1
    isPrefixText_desNode.2 (by decide +kernel) (by decide +kernel)
  refine ⟨msg, hmsg, hacc, (htypes _).mpr (.inr (.inl ⟨rfl, by decide⟩)), ?_⟩
  rw [← Bool.not_eq_true, htypes]
  decide

end CfgIpsec.Proof
