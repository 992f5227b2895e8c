import CfgIpsec.Impl.Pfkey
import CfgIpsec.Proof.Parse
import CfgIpsec.Spec.Decode

/-!
# Messages built from extensions

A message of which the extensions are well formed is accepted by the parser,
and each of them is found as it was put in (`ext?_message`).
-/

namespace CfgIpsec.Proof

open Impl Spec Tlv

/-! ## Extensions -/

section Ext

variable {α β : Type} (c : Codec α) {pack : BitVec 16 × BitVec 16 × α → β}
  {fields : β → BitVec 16 × BitVec 16 × α} {h : ∀ b, pack (fields b) = b}

theorem size_put (b : β) (bs : Bytes) :
    extFormat.size (((sadbExt c).iso pack fields h).put b ++ bs) = (fields b).1.toNat := by
  have := congrArg (·.1) ((sadbExt c).get_put (fields b) bs)
  exact congrArg BitVec.toNat this

theorem type_put (b : β) (bs : Bytes) :
    extFormat.type (((sadbExt c).iso pack fields h).put b ++ bs) = (fields b).2.1 := by
  have := congrArg (·.2.1) ((sadbExt c).get_put (fields b) bs)
  rw [← this]
  exact (getLE_drop _ 2 0 16).symm

/-- What a codec of an extension writes, with what belongs to it, is a record
when it is as long as its length field says. -/
theorem isRecord_put {b : β} {bs : Bytes} {n : Nat} (hn : (fields b).1 = BitVec.ofNat 16 n) (h1 : 1 ≤ n)
    (hlt : n < 2 ^ 16) (hlen : (sadbExt c).size + bs.length = 8 * n) :
    IsRecord extFormat (((sadbExt c).iso pack fields h).put b ++ bs) := by
  have hs : extFormat.size (((sadbExt c).iso pack fields h).put b ++ bs) = n := by
    rw [size_put, hn, BitVec.toNat_ofNat, Nat.mod_eq_of_lt hlt]
  refine ⟨by omega, ?_⟩
  rw [hs, List.length_append, Codec.length_put]
  exact hlen

end Ext

/-! ## Messages -/

theorem length_message (m : SadbMsg) (exts : Bytes) : (message m exts).length = 16 + exts.length := by
  rw [message, List.length_append, sadbMsg.length_put]; rfl

theorem sadbMsg_get_message (m : SadbMsg) (exts : Bytes) :
    sadbMsg.get (message m exts) = { m with len := BitVec.ofNat 16 ((16 + exts.length) / 8) } :=
  sadbMsg.get_put _ _

theorem sadbMsg_get (bs : Bytes) :
    sadbMsg.get bs = ⟨getLE bs 0 8, getLE bs 1 8, getLE bs 2 8, getLE bs 3 8, getLE bs 4 16, getLE bs 6 16, getLE bs 8 32,
      getLE bs 12 32⟩ := by
  simp only [sadbMsg, Codec.iso, Codec.prod, u8, u16, u32, Codec.le, getLE_drop]

/-- The header of a message is read also where more follows. -/
theorem sadbMsg_get_append {msg : Bytes} (post : Bytes) (h : sadbMsg.size ≤ msg.length) :
    sadbMsg.get (msg ++ post) = sadbMsg.get msg := by
  have hsize : sadbMsg.size = 16 := rfl
  rw [sadbMsg_get, sadbMsg_get]
  simp (disch := omega) only [getLE_append_left]

theorem msgUnits_eq (msg : Bytes) : msgUnits msg = (sadbMsg.get msg).len.toNat := by
  have hlen : (sadbMsg.get msg).len = getLE ((((msg.drop 1).drop 1).drop 1).drop 1) 0 16 := rfl
  rw [msgUnits, hlen]
  simp only [List.drop_drop, getLE_drop]

variable {m : SadbMsg} {rs : List Bytes}

theorem exts_dvd {ws : Bytes} (h : IsExts ws rs) : 8 ∣ ws.length :=
  ⟨_, h.tiles.length⟩

theorem drop_message (m : SadbMsg) (exts : Bytes) : (message m exts).drop 16 = exts :=
  List.drop_left' (sadbMsg.length_put _)

theorem msgUnits_message {exts : Bytes} (hlt : exts.length < 2 ^ 18) :
    msgUnits (message m exts) = (16 + exts.length) / 8 := by
  rw [msgUnits_eq, sadbMsg_get_message, BitVec.toNat_ofNat, Nat.mod_eq_of_lt (by omega)]

theorem msgExts_message {exts : Bytes} (hlt : exts.length < 2 ^ 18) (hdvd : 8 ∣ exts.length) :
    msgExts (message m exts) = exts := by
  rw [msgExts, msgUnits_message hlt, drop_message, List.take_of_length_le (by omega)]

/-- A message of well-formed extensions is as long as it says, and the parser
notes where each of them starts. -/
theorem parse_message (h : IsExts rs.flatten rs) (hlt : rs.flatten.length < 2 ^ 18) :
    (message m rs.flatten).length = 8 * msgUnits (message m rs.flatten) ∧
      parsePfkeyMessage (message m rs.flatten) =
        some (0, fun t => (locate extFormat t rs).map (16 + ·)) := by
  have hd := exts_dvd h
  have hu := msgUnits_message (m := m) hlt
  have hl : (message m rs.flatten).length = 8 * msgUnits (message m rs.flatten) := by
    rw [hu, length_message]; omega
  obtain ⟨r, out, heq, hr, hout⟩ := parsePfkeyMessage_spec (by rw [hu]; omega) hl.ge
  rw [msgExts_message hlt hd] at hr hout
  rw [heq, hr.mpr ⟨rs, h⟩, hout rs h]
  exact ⟨hl, rfl⟩

theorem ext?_message (h : IsExts rs.flatten rs) (hlt : rs.flatten.length < 2 ^ 18) {pre post : List Bytes}
    {e : Bytes} (hrs : rs = pre ++ e :: post) :
    ext? (message m rs.flatten) (extFormat.type e) = some (e ++ post.flatten) := by
  have hloc := (locate_eq_some_iff h.nodup).mpr ⟨pre, e, post, hrs, rfl, rfl⟩
  have hdrop : (message m rs.flatten).drop (16 + pre.flatten.length) = e ++ post.flatten := by
    rw [← List.drop_drop, drop_message, hrs, List.flatten_append, List.drop_left, List.flatten_cons]
  rw [ext?, (parse_message h hlt).2]
  simp only [hloc, Option.map_some, hdrop]

theorem ext?_message_eq_none (h : IsExts rs.flatten rs) (hlt : rs.flatten.length < 2 ^ 18) {t : BitVec 16}
    (ht : ∀ e ∈ rs, extFormat.type e ≠ t) : ext? (message m rs.flatten) t = none := by
  rw [ext?, (parse_message h hlt).2]
  simp only [locate_eq_none_iff.mpr ht, Option.map_none]

/-- The extensions present are those put in. -/
theorem ext?_message_isSome (h : IsExts rs.flatten rs) (hlt : rs.flatten.length < 2 ^ 18) (t : BitVec 16) :
    (ext? (message m rs.flatten) t).isSome ↔ t ∈ rs.map extFormat.type := by
  constructor
  · intro hs
    by_contra ht
    rw [ext?_message_eq_none h hlt fun e he heq => ht (List.mem_map.mpr ⟨e, he, heq⟩)] at hs
    cases hs
  · intro ht
    obtain ⟨e, he, rfl⟩ := List.mem_map.mp ht
    obtain ⟨pre, post, hrs⟩ := List.append_of_mem he
    rw [ext?_message h hlt hrs]; rfl

/-- A structure put into a message is read back from it. -/
theorem decode_message (h : IsExts rs.flatten rs) (hlt : rs.flatten.length < 2 ^ 18) {α : Type}
    {c : Codec α} {a : α} {tail : Bytes} (he : c.put a ++ tail ∈ rs) {t : BitVec 16}
    (ht : extFormat.type (c.put a ++ tail) = t) : decode c (message m rs.flatten) t = some a := by
  obtain ⟨pre, post, hrs⟩ := List.append_of_mem he
  rw [decode, ← ht, ext?_message h hlt hrs, Option.map_some, List.append_assoc, c.get_put]

theorem decode_message_nil (h : IsExts rs.flatten rs) (hlt : rs.flatten.length < 2 ^ 18) {α : Type}
    {c : Codec α} {a : α} (he : c.put a ∈ rs) {t : BitVec 16} (ht : extFormat.type (c.put a) = t) :
    decode c (message m rs.flatten) t = some a := by
  rw [← List.append_nil (c.put a)] at he ht
  exact decode_message h hlt he ht

end CfgIpsec.Proof
