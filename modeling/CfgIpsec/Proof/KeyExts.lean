import CfgIpsec.Proof.Keys
import CfgIpsec.Spec.Reaches

/-!
# Which key extensions agree with themselves

The room of a key extension and its bits come from the algorithm alone, what is
copied into it from the string alone. Both agree for short strings only, and for
AES never (`key_exts_iff`).
-/

namespace CfgIpsec.Proof

open Impl Spec Tlv
open CStr (lit)

/-! ## One record -/

theorem get_keyRecord (rest : Bytes) (t : BitVec 16) (len bits : Nat) (key : CStr) :
    sadbKey.get (keyRecord rest t len bits key) = ⟨BitVec.ofNat 16 len, t, BitVec.ofNat 16 bits, 0⟩ :=
  sadbKey.get_put _ _

/-- A key that the record holds whole fits it. -/
theorem strlen_le_of_keyRecord {rest : Bytes} {t : BitVec 16} {len bits k : Nat} {key : CStr}
    (h : (keyRecord rest t len bits key).drop 8 = key.bytes ++ List.replicate k 0) :
    strlen key ≤ 8 * len - 8 := by
  have hlen := congrArg List.length h
  rw [drop_keyRecord, List.length_take, List.length_append, ← strlen] at hlen
  omega

/-- A key that fits is followed by zeros, where the buffer held zeros. -/
theorem keyRecord_own {t : BitVec 16} {m len bits : Nat} {key : CStr} (hkey : strlen key ≤ 8 * len - 8)
    (hm : 8 * len ≤ m) : ∃ k, (keyRecord (List.replicate m 0) t len bits key).drop 8 =
      key.bytes ++ List.replicate k 0 := by
  have hstr : key.bytes.length ≤ 8 * len - 8 := hkey
  refine ⟨8 * len - 8 - strlen key, ?_⟩
  rw [drop_keyRecord, overlay, List.drop_replicate, List.drop_replicate, List.take_append,
    List.take_of_length_le hstr, List.take_replicate, strlen]
  congr 2
  omega

/-! ## What an algorithm declares -/

/-- The declared bits of an encryption key fit but for AES. -/
theorem encryptKeyArea_fits (alg : BitVec 32) :
    (8 + (BitVec.ofNat 16 (encryptKeyArea alg).bits).toNat / 8 ≤ 8 * (BitVec.ofNat 16 (encryptKeyArea alg).len).toNat ↔
        alg ≠ SADB_X_EALG_AESCBC) ∧
      (alg ≠ SADB_X_EALG_AESCBC → 8 * (encryptKeyArea alg).len - 8 = keyCapacity .encryption alg) := by
  rw [encryptKeyArea, keyCapacity]
  by_cases hdes : alg = SADB_EALG_DESCBC
  · subst hdes
    decide
  · rw [if_neg hdes, if_neg hdes]
    by_cases haes : alg = SADB_X_EALG_AESCBC
    · subst haes
      decide
    · rw [if_neg haes]
      exact ⟨iff_of_true (by decide) haes, fun _ => by decide⟩

theorem authKeyArea_fits (alg : BitVec 32) :
    8 + (BitVec.ofNat 16 (authKeyArea alg).bits).toNat / 8 ≤ 8 * (BitVec.ofNat 16 (authKeyArea alg).len).toNat := by
  rw [authKeyArea]
  split <;> decide

/-- Where the encryption key fits, the integrity key is copied over zeros. -/
theorem authRoom_zeros {n : SadEntryNode}
    (h : n.encryptionAlg ≠ 0 → strlen n.encryptionKey ≤ 8 * (encryptKeyArea n.encryptionAlg).len - 8) :
    ∃ m, 32 ≤ m ∧ authRoom n = List.replicate m 0 := by
  rw [authRoom]
  by_cases halg : n.encryptionAlg ≠ SADB_EALG_NONE
  · have hkey : n.encryptionKey.bytes.length ≤ 8 * (encryptKeyArea n.encryptionAlg).len - 8 := h halg
    have hl := encryptKeyArea_len n.encryptionAlg
    refine ⟨3928 - (8 * (encryptKeyArea n.encryptionAlg).len - 8), by omega, ?_⟩
    rw [if_pos halg, overlay, strlen, keyRoom, List.drop_replicate, List.drop_replicate, List.drop_append,
      List.drop_eq_nil_of_le hkey, List.nil_append, List.drop_replicate]
    congr 1
    omega
  · exact ⟨3936, by omega, by rw [if_neg halg]; rfl⟩

/-- Whether the record of a key agrees with itself. -/
theorem keyExtOk_iff {u : KeyUse} {n : SadEntryNode} {msg rest : Bytes} {t : BitVec 16} {len bits : Nat}
    (h : keyExt? u msg = some (keyRecord rest t len bits (u.string n))) :
    KeyExtOk u n msg ↔
      8 + (BitVec.ofNat 16 bits).toNat / 8 ≤ 8 * (BitVec.ofNat 16 len).toNat ∧
        ∃ k, (keyRecord rest t len bits (u.string n)).drop 8 = (u.string n).bytes ++ List.replicate k 0 := by
  simp only [KeyExtOk, h, Option.some.injEq, exists_eq_left', get_keyRecord]

/-- The key extensions of what `pf_addsad` sends agree with themselves exactly
when the encryption is not AES and the keys fit. -/
theorem key_exts_iff {e : MsgEnv} {n : SadEntryNode} {msg : Bytes} (h : pfAddsad e n = some msg) :
    KeysConsistent n msg ↔ KeysFit n := by
  have henc : ∀ halg : n.encryptionAlg ≠ SADB_EALG_NONE, KeyExtOk .encryption n msg ↔ _ :=
    fun halg => keyExtOk_iff (keyExt_encryption h halg)
  have hint : ∀ halg : n.integrityAlg ≠ SADB_AALG_NONE, KeyExtOk .integrity n msg ↔ _ :=
    fun halg => keyExtOk_iff (keyExt_integrity h halg)
  constructor
  · intro hok
    have haes : n.encryptionAlg ≠ SADB_X_EALG_AESCBC := by
      intro haes
      have halg : n.encryptionAlg ≠ SADB_EALG_NONE := by rw [haes]; decide
      exact (encryptKeyArea_fits n.encryptionAlg).1.mp ((henc halg).mp (hok .encryption halg)).1 haes
    refine ⟨haes, fun u halg => ?_⟩
    cases u
    case encryption =>
      obtain ⟨-, k, hown⟩ := (henc halg).mp (hok .encryption halg)
      exact (strlen_le_of_keyRecord hown).trans_eq ((encryptKeyArea_fits n.encryptionAlg).2 haes)
    case integrity =>
      obtain ⟨-, k, hown⟩ := (hint halg).mp (hok .integrity halg)
      have hfit := strlen_le_of_keyRecord hown
      rw [authKeyArea_len] at hfit
      exact hfit
  · rintro ⟨haes, hfit⟩ u halg
    have hroom : n.encryptionAlg ≠ 0 → strlen n.encryptionKey ≤ 8 * (encryptKeyArea n.encryptionAlg).len - 8 :=
      fun halg => (hfit .encryption halg).trans_eq ((encryptKeyArea_fits n.encryptionAlg).2 haes).symm
    cases u
    case encryption =>
      have hl := encryptKeyArea_len n.encryptionAlg
      exact (henc halg).mpr ⟨(encryptKeyArea_fits n.encryptionAlg).1.mpr haes, keyRecord_own (hroom halg) (by omega)⟩
    case integrity =>
      obtain ⟨m, hm, hzeros⟩ := authRoom_zeros hroom
      have hl := authKeyArea_len n.integrityAlg
      rw [hint halg, hzeros]
      refine ⟨authKeyArea_fits n.integrityAlg, keyRecord_own ?_ (by omega)⟩
      rw [hl]
      exact hfit .integrity halg

/-- A node between two hosts, with keys for these algorithms. -/
def keyedNode (encryptionAlg integrityAlg : BitVec 32) (encryptionKey integrityKey : String) : SadEntryNode :=
  { (default : SadEntryNode) with
    localSubnet := lit "192.168.201.1/32", remoteSubnet := lit "192.168.202.1/32"
    encryptionAlg := encryptionAlg, integrityAlg := integrityAlg
    encryptionKey := lit encryptionKey, integrityKey := lit integrityKey }

theorem key_exts_des :
    ∃ msg, pfAddsad ⟨7, 0, 0⟩ (keyedNode 2 2 "eightkey" "twenty-bytes-of-keys") = some msg ∧
      KeysConsistent (keyedNode 2 2 "eightkey" "twenty-bytes-of-keys") msg := by
  have hadd : (pfAddsad ⟨7, 0, 0⟩ (keyedNode 2 2 "eightkey" "twenty-bytes-of-keys")).isSome = true := by decide +kernel
  obtain ⟨msg, hmsg⟩ := Option.isSome_iff_exists.mp hadd
  refine ⟨msg, hmsg, (key_exts_iff hmsg).mpr ⟨by decide, fun u _ => ?_⟩⟩
  cases u <;> decide +kernel

/-- For AES the extension of 32 bytes declares 256 bits. -/
theorem key_exts_aes :
    ∃ msg, pfAddsad ⟨7, 0, 0⟩ (keyedNode 12 2 "a-key-of-as-many-as-thirty-two-b" "short") = some msg ∧
      ((keyExt? .encryption msg).map fun ext => ((sadbKey.get ext).len, (sadbKey.get ext).bits)) = some (4, 256) ∧
      ¬KeysConsistent (keyedNode 12 2 "a-key-of-as-many-as-thirty-two-b" "short") msg := by
  have hany : (pfAddsad ⟨7, 0, 0⟩ (keyedNode 12 2 "a-key-of-as-many-as-thirty-two-b" "short")).any (fun msg =>
      ((keyExt? .encryption msg).map fun ext => ((sadbKey.get ext).len, (sadbKey.get ext).bits)) = some (4, 256)) =
        true := by decide +kernel
  obtain ⟨msg, hmsg, h⟩ := (Option.any_eq_true _ _).mp hany
  have hext := of_decide_eq_true h
  refine ⟨msg, hmsg, hext, fun hok => ?_⟩
  obtain ⟨ext, hk, hfits, -⟩ := hok .encryption (by decide)
  rw [hk, Option.map_some] at hext
  obtain ⟨hlen, hbits⟩ := Prod.mk.inj (Option.some.inj hext)
  rw [hlen, hbits] at hfits
  exact absurd hfits (by decide)

end CfgIpsec.Proof
