import CfgIpsec.Proof.Boundary
import CfgIpsec.Proof.Hex
import CfgIpsec.Spec.Capacity

/-!
# Strings written in place

`remove_all_chars` filters a string where it lies, and writes nothing behind it
(`remove_all_chars_filters`), so that `hexstr_to_char` undoes every way to write
bytes in hexadecimal (`hexstr_inverts`). `get_new_xpath` ends its string behind
the block it allocates, for every xpath (`new_xpath_outside`).
-/

namespace CfgIpsec.Proof

open Impl Spec
open CStr (lit)

/-! ## `remove_all_chars` -/

/-- What the loop leaves is what its writes make of the buffer. -/
theorem removeLoop_writes {c : Byte} {fuel : Nat} {str out : Bytes} {pr pw : Nat}
    (h : removeLoop c fuel str pr pw = some out) : out = applyWrites (removeWrites c fuel str pr pw) str := by
  induction fuel generalizing str pr pw with
  | zero => cases h
  | succ fuel ih =>
    rw [removeLoop] at h
    rw [removeWrites]
    cases hget : str[pr]? with
    | none => rw [hget] at h; cases h
    | some b =>
      rw [hget] at h
      simp only at h ⊢
      split at h
      · rename_i hb
        cases h
        rw [if_pos hb]
        rfl
      · rename_i hb
        rw [if_neg hb, applyWrites_cons]
        exact ih h

/-- The writer never passes the reader, nor the reader the end of the string. -/
theorem removeWrites_below {c : Byte} {rest tail : Bytes} {fuel : Nat} {str : Bytes} {pr pw : Nat} (hw : pw ≤ pr)
    (hstr : str.drop pr = rest ++ 0 :: tail) : WritesBelow (pr + rest.length + 1) (removeWrites c fuel str pr pw) := by
  induction fuel generalizing rest str pr pw with
  | zero => intro w hmem; cases hmem
  | succ fuel ih =>
    rcases rest with _ | ⟨b, rest⟩
    · have hget : str[pr]? = some 0 := by rw [← List.head?_drop, hstr]; rfl
      simp only [removeWrites, hget, if_true]
      exact writesBelow_cons.mpr ⟨by simp only [List.length_nil]; omega, fun w hmem => by cases hmem⟩
    · have hget : str[pr]? = some b := by rw [← List.head?_drop, hstr]; rfl
      simp only [removeWrites, hget]
      split
      · exact writesBelow_cons.mpr ⟨by simp only; omega, fun w hmem => by cases hmem⟩
      · have hdrop : (str.set pw b).drop (pr + 1) = rest ++ 0 :: tail := by
          rw [List.drop_set_of_lt (by omega), ← List.drop_drop, hstr]; rfl
        have hrest := @ih rest (str.set pw b) (pr + 1) (if b ≠ c then pw + 1 else pw) (by split <;> omega) hdrop
        rw [List.length_cons, show pr + (rest.length + 1) + 1 = pr + 1 + rest.length + 1 by omega]
        exact writesBelow_cons.mpr ⟨by simp only; omega, hrest⟩

/-- `remove_all_chars` ends, with all its writes up to the terminator of the
string, and leaves the string without the character, and what lay behind it. -/
theorem remove_all_chars_filters (s : CStr) (tail : Bytes) (c : Byte) :
    ∃ buf, removeAllChars (s.bytes ++ 0 :: tail) c = some buf ∧
      buf = applyWrites (removeAllWrites (s.bytes ++ 0 :: tail) c) (s.bytes ++ 0 :: tail) ∧
      WritesBelow (strlen s + 1) (removeAllWrites (s.bytes ++ 0 :: tail) c) ∧
      (CStr.ofBuf buf).bytes = s.bytes.filter (· ≠ c) ∧ buf.drop (strlen s + 1) = tail := by
  have hfuel : s.bytes.length < (s.bytes ++ 0 :: tail).length + 1 := by
    rw [List.length_append, List.length_cons]; omega
  obtain ⟨more, hloop⟩ := @removeLoop_spec c s.bytes _ (s.bytes ++ 0 :: tail) tail 0 0 hfuel (Nat.le_refl 0)
    List.drop_zero s.noNul
  have hwrites := removeLoop_writes hloop
  have hbelow : WritesBelow (strlen s + 1) (removeAllWrites (s.bytes ++ 0 :: tail) c) := by
    have h := @removeWrites_below c s.bytes tail ((s.bytes ++ 0 :: tail).length + 1) _ 0 0 (Nat.le_refl 0) List.drop_zero
    rwa [Nat.zero_add] at h
  refine ⟨_, hloop, hwrites, hbelow, ?_, ?_⟩
  · rw [List.take_zero, List.nil_append]
    exact CStr.ofBuf_append_zero fun h0 => s.noNul (List.mem_of_mem_filter h0)
  · rw [hwrites]
    exact (drop_applyWrites hbelow _).trans (by rw [strlen, ← List.drop_drop, List.drop_left]; rfl)

example : removeAllChars ((lit "a:b").bytes ++ [0, 7, 8]) 0x3a = some [0x61, 0x62, 0, 0, 7, 8] := by decide +kernel

/-! ## `hexstr_to_char` -/

theorem hexPairs_digits {kb ds : Bytes} (h : HexDigits kb ds) : ds.length % 2 = 0 ∧ hexPairs ds = kb := by
  induction h with
  | nil => exact ⟨rfl, rfl⟩
  | cons ha hb h ih =>
    rw [hexPairs, hexByte ha hb, ih.2, List.length_cons, List.length_cons]
    exact ⟨by have := ih.1; omega, rfl⟩

/-- `hexstr_to_char` gives the bytes of every way to write them, and a zero byte;
it gives `NULL` exactly when the number of digits is odd. -/
theorem hexstr_inverts (s : CStr) :
    (∀ kb, HexWriting kb s.bytes → hexstrToChar s = some (kb ++ [0])) ∧
      (hexstrToChar s = none ↔ (s.bytes.filter (· ≠ 0x3a)).length % 2 = 1) := by
  rw [hexstrToChar_eq]
  refine ⟨fun kb h => ?_, ?_⟩
  · obtain ⟨heven, hpairs⟩ := hexPairs_digits h
    rw [if_pos heven, hpairs]
  · split
    · rename_i heven
      rw [heven]
      simp
    · rename_i hodd
      exact iff_of_true rfl (Nat.mod_two_ne_zero.mp hodd)

/-- The bytes 0 and 171, and a text with an odd number of digits. -/
theorem hexstr_inverts_mixed : hexstrToChar (lit ":0:0Ab") = some [0, 0xab, 0] ∧ hexstrToChar (lit "1:23") = none := by
  have hbytes : (lit ":0:0Ab").bytes.filter (· ≠ 0x3a) = [0x30, 0x30, 0x41, 0x62] := by decide +kernel
  have hodd : ((lit "1:23").bytes.filter (· ≠ 0x3a)).length % 2 = 1 := by decide +kernel
  have hdigits : HexDigits [0, 0xab] [0x30, 0x30, 0x41, 0x62] :=
    .cons (x := 0) (y := 0) rfl rfl (.cons (x := 10) (y := 11) rfl rfl .nil)
  exact ⟨(hexstr_inverts _).1 _ (by rw [HexWriting, hbytes]; exact hdigits), (hexstr_inverts _).2.mpr hodd⟩

/-! ## `get_new_xpath` -/

/-- The block of an xpath below `p` has room for `p` but for its terminator. -/
theorem getNewXpathBlock_name {p : CStr} (h : strlen p < 2 ^ 31) :
    getNewXpathBlock (p ++ lit "/name") = some ⟨strlen p, fillWrites 0 p.bytes ++ [(strlen p, 0)]⟩ := by
  have hname : strlen (lit "/name") = 5 := by decide +kernel
  have hint : (BitVec.ofNat 64 (strlen (p ++ lit "/name")) - BitVec.ofNat 64 (strlen (lit "/name"))).setWidth 32 =
      BitVec.ofNat 32 (strlen p) := by
    rw [strlen_append_name, hname]
    apply BitVec.eq_of_toNat_eq
    simp only [BitVec.toNat_setWidth, BitVec.toNat_sub, BitVec.toNat_ofNat]
    omega
  have hnat : (BitVec.ofNat 32 (strlen p)).toNat = strlen p := by
    rw [BitVec.toNat_ofNat, Nat.mod_eq_of_lt (by omega)]
  have hpos : (BitVec.ofNat 32 (strlen p)).slt 0 = false := by
    rw [BitVec.slt_eq_decide, BitVec.toInt_eq_toNat_of_lt (by omega), hnat]
    simp
  have htake : (p ++ lit "/name").bytes.take (strlen p) = p.bytes := by
    rw [CStr.bytes_append, strlen, List.take_left]
  simp only [getNewXpathBlock, hint, hpos, hnat, htake]
  rfl

/-- The string that is written is `p`, with its terminator the one write outside. -/
theorem getNewXpathBlock_string {p : CStr} (h : strlen p < 2 ^ 31) :
    ∃ b, getNewXpathBlock (p ++ lit "/name") = some b ∧ WritesBelow (b.size + 1) b.writes ∧
      ∀ mem : Bytes, b.size < mem.length → CStr.ofBuf (applyWrites b.writes mem) = p := by
  refine ⟨_, getNewXpathBlock_name h, ?_, fun mem hmem => ?_⟩
  · intro w hw
    rcases List.mem_append.mp hw with hw | hw
    · have := fillWrites_below 0 p.bytes w hw
      simp only [strlen]
      omega
    · rw [List.mem_singleton.mp hw]
      exact Nat.lt_succ_self _
  · simp only [strlen] at hmem ⊢
    rw [applyWrites_append, applyWrites_fill _ (by omega), applyWrites_cons, applyWrites_nil, List.take_zero,
      List.nil_append, List.set_append_right _ _ (Nat.le_refl _), Nat.sub_self, Nat.zero_add,
      List.drop_eq_getElem_cons hmem, List.set_cons_zero]
    exact CStr.ext (CStr.ofBuf_append_zero p.noNul)

/-- For every xpath of a name that `new_entry` accepts, a write is outside the
block. -/
theorem new_xpath_outside (p : CStr) (d : SrData) :
    newEntry (SrVal.created ⟨d, p ++ lit "/name"⟩) = some true ∧ newEntry (SrVal.deleted ⟨d, p ++ lit "/name"⟩) = some true ∧
      ¬StaysInside (p ++ lit "/name") p := by
  refine ⟨endsInName_append p, endsInName_append p, ?_⟩
  rintro ⟨b, hb, -, hbelow⟩
  simp only [getNewXpathBlock] at hb
  split at hb
  · cases hb
  · cases hb
    have hlast := hbelow _ (List.mem_append_right _ List.mem_cons_self)
    exact Nat.lt_irrefl _ hlast

/-- The xpath of the name of an entry of the test configuration. -/
theorem new_xpath_outside_gw :
    newEntry (SrVal.created ⟨⟨0x1000, some (lit "gw")⟩, sadEntryXpath (lit "gw") ++ lit "/name"⟩) = some true ∧
      ¬StaysInside (sadEntryXpath (lit "gw") ++ lit "/name") (sadEntryXpath (lit "gw")) := by
  have hgw : strlen (sadEntryXpath (lit "gw")) < 2 ^ 31 := by decide +kernel
  refine ⟨by decide +kernel, ?_⟩
  rintro ⟨b, hb, -, hbelow⟩
  rw [getNewXpathBlock_name hgw] at hb
  cases hb
  have hlast := hbelow _ (List.mem_append_right _ List.mem_cons_self)
  exact Nat.lt_irrefl _ hlast

end CfgIpsec.Proof
