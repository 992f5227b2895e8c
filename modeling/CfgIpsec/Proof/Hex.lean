import CfgIpsec.Impl.Utils
import CfgIpsec.Spec.Yang

/-!
# Hex strings

`remove_all_chars` filters the string in place (`removeLoop_spec`: what lies
before the write index is kept), and `hexstr_to_char` gives the bytes a
hex-string stands for (`hexstrToChar_hexString`).
-/

namespace CfgIpsec.Proof

open Impl Spec

theorem CStr.ofBuf_append_zero {bs more : Bytes} (h : (0 : Byte) ∉ bs) :
    (CStr.ofBuf (bs ++ 0 :: more)).bytes = bs := by
  have hall : ∀ b ∈ bs, decide (b ≠ 0) = true := fun b hb => by
    simpa using fun e : b = 0 => h (e ▸ hb)
  change (bs ++ 0 :: more).takeWhile (· ≠ 0) = bs
  rw [List.takeWhile_append_of_pos hall]
  simp

/-! ## `remove_all_chars` -/

/-- From the read index on, the loop appends what it keeps to what lies before
the write index. -/
theorem removeLoop_spec {c : Byte} {rest : Bytes} {fuel : Nat} {str tail : Bytes} {pr pw : Nat}
    (hfuel : rest.length < fuel) (hw : pw ≤ pr) (hstr : str.drop pr = rest ++ 0 :: tail)
    (hrest : (0 : Byte) ∉ rest) :
    ∃ more, removeLoop c fuel str pr pw = some (str.take pw ++ rest.filter (· ≠ c) ++ 0 :: more) := by
  induction rest generalizing fuel str pr pw with
  | nil =>
    obtain ⟨fuel, rfl⟩ : ∃ k, fuel = k + 1 := ⟨fuel - 1, by simp only [List.length_nil] at hfuel; omega⟩
    have hget : str[pr]? = some 0 := by
      rw [← List.head?_drop, hstr]; rfl
    have hlt : pr < str.length := (List.getElem?_eq_some_iff.mp hget).1
    refine ⟨str.drop (pw + 1), ?_⟩
    simp only [removeLoop, hget, if_true]
    rw [List.set_eq_take_append_cons_drop, if_pos (by omega)]
    simp
  | cons b rest ih =>
    obtain ⟨fuel, rfl⟩ : ∃ k, fuel = k + 1 := ⟨fuel - 1, by simp only [List.length_cons] at hfuel; omega⟩
    have hget : str[pr]? = some b := by
      rw [← List.head?_drop, hstr]; rfl
    have hlt : pr < str.length := (List.getElem?_eq_some_iff.mp hget).1
    have hb : b ≠ 0 := fun e => hrest (by rw [e]; exact List.mem_cons_self)
    have hdrop : (str.set pw b).drop (pr + 1) = rest ++ 0 :: tail := by
      rw [List.drop_set_of_lt (by omega), ← List.drop_drop, hstr]; rfl
    have hfuel' : rest.length < fuel := by simp only [List.length_cons] at hfuel; omega
    have hrest' : (0 : Byte) ∉ rest := fun h => hrest (List.mem_cons_of_mem _ h)
    simp only [removeLoop, hget, if_neg hb]
    by_cases hc : b = c
    · obtain ⟨more, hm⟩ := @ih fuel _ _ pw hfuel' (by omega) hdrop hrest'
      refine ⟨more, ?_⟩
      rw [if_neg (by simpa using hc), hm, List.take_set_of_le (Nat.le_refl _),
        List.filter_cons_of_neg (by simpa using hc)]
    · obtain ⟨more, hm⟩ := @ih fuel _ _ (pw + 1) hfuel' (by omega) hdrop hrest'
      have htake : (str.set pw b).take (pw + 1) = str.take pw ++ [b] := by
        rw [List.set_eq_take_append_cons_drop, if_pos (by omega), List.take_append,
          List.length_take_of_le (by omega), List.take_of_length_le (by rw [List.length_take]; omega)]
        simp
      refine ⟨more, ?_⟩
      rw [if_pos (by simpa using hc), hm, htake, List.filter_cons_of_pos (by simpa using hc)]
      simp

/-- `remove_all_chars` leaves the string without the character. -/
theorem removeAllChars_eq (s : CStr) (c : Byte) :
    ∃ buf, removeAllChars (s.bytes ++ [0]) c = some buf ∧
      (CStr.ofBuf buf).bytes = s.bytes.filter (· ≠ c) := by
  have hfuel : s.bytes.length < (s.bytes ++ [0]).length + 1 := by
    rw [List.length_append, List.length_singleton]; omega
  obtain ⟨more, h⟩ := @removeLoop_spec c s.bytes _ (s.bytes ++ [0]) [] 0 0 hfuel (Nat.le_refl 0)
    List.drop_zero s.noNul
  refine ⟨_, h, ?_⟩
  rw [List.take_zero, List.nil_append]
  exact CStr.ofBuf_append_zero fun h0 => s.noNul (List.mem_of_mem_filter h0)

/-! ## `hexstr_to_char` -/

theorem hexstrToChar_eq (s : CStr) :
    hexstrToChar s =
      if (s.bytes.filter (· ≠ 0x3a)).length % 2 = 0 then some (hexPairs (s.bytes.filter (· ≠ 0x3a)) ++ [0])
      else none := by
  obtain ⟨buf, hbuf, hbytes⟩ := removeAllChars_eq s 0x3a
  rw [hexstrToChar, hbuf]
  simp only [Option.bind_eq_bind, Option.bind_some, strlen, hbytes]
  split <;> simp_all

/-- A digit, as the code values it. -/
theorem hexDigit_digitIn {c : Byte} {v : Nat} (h : digitIn 16 c = some v) : c ≠ 0x3a ∧ hexDigit c = v := by
  have hall : ∀ c : Byte, ∀ v ∈ digitIn 16 c, c ≠ 0x3a ∧ hexDigit c = v := by decide +kernel
  exact hall c v h

theorem hexByte {a b : Byte} {x y : Nat} (ha : digitIn 16 a = some x) (hb : digitIn 16 b = some y) :
    BitVec.ofInt 8 (hexDigit a * 16 + hexDigit b) = BitVec.ofNat 8 (16 * x + y) := by
  rw [(hexDigit_digitIn ha).2, (hexDigit_digitIn hb).2, ← BitVec.ofInt_natCast]
  congr 1
  push_cast
  ring

theorem filter_pair {a b : Byte} {x y : Nat} (ha : digitIn 16 a = some x) (hb : digitIn 16 b = some y)
    (r : Bytes) : (a :: b :: r).filter (· ≠ 0x3a) = a :: b :: r.filter (· ≠ 0x3a) := by
  rw [List.filter_cons_of_pos (by simpa using (hexDigit_digitIn ha).1),
    List.filter_cons_of_pos (by simpa using (hexDigit_digitIn hb).1)]

/-- The digits of a hex-string give its bytes. -/
theorem hexPairs_hexBytes {bs kb : Bytes} (h : hexBytes? bs = some kb) :
    (bs.filter (· ≠ 0x3a)).length % 2 = 0 ∧ hexPairs (bs.filter (· ≠ 0x3a)) = kb := by
  fun_induction hexBytes? bs generalizing kb with
  | case1 => cases h; exact ⟨rfl, rfl⟩
  | case2 a b =>
    obtain ⟨x, hx, h⟩ := Option.bind_eq_some_iff.mp h
    obtain ⟨y, hy, h⟩ := Option.bind_eq_some_iff.mp h
    cases h
    rw [filter_pair hx hy, List.filter_nil, hexPairs, hexByte hx hy]
    exact ⟨by simp, rfl⟩
  | case3 a b c r ih =>
    obtain ⟨x, hx, h⟩ := Option.bind_eq_some_iff.mp h
    obtain ⟨y, hy, h⟩ := Option.bind_eq_some_iff.mp h
    obtain ⟨bytes, hbytes, h⟩ := Option.bind_eq_some_iff.mp h
    cases h
    obtain ⟨heven, hpairs⟩ := ih hbytes
    rw [filter_pair hx hy, List.filter_cons_of_neg (by decide), hexPairs, hexByte hx hy, hpairs]
    exact ⟨by simp only [List.length_cons]; omega, rfl⟩
  | case4 => cases h

/-- `hexstr_to_char` gives the bytes a hex-string stands for. -/
theorem hexstrToChar_hexString {s : CStr} {kb : Bytes} (h : hexBytes? s.bytes = some kb) :
    hexstrToChar s = some (kb ++ [0]) := by
  obtain ⟨heven, hpairs⟩ := hexPairs_hexBytes h
  rw [hexstrToChar_eq, if_pos heven, hpairs]

end CfgIpsec.Proof
