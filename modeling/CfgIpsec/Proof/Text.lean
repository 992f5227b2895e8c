import Mathlib.Data.Nat.Digits.Lemmas
import CfgIpsec.Impl.Utils
import CfgIpsec.Spec.Decode

/-!
# Prefixes in text

`getIp` and `getMask` take apart the text of a prefix: what `decimal` prints
is what `atoi` reads.
-/

namespace CfgIpsec.Proof

open Impl Spec

/-! ## Decimal numbers -/

theorem mem_decimal {n : Nat} {c : Byte} (h : c ∈ decimal n) : ∃ d < 10, c = BitVec.ofNat 8 (0x30 + d) := by
  rw [decimal] at h
  split at h
  · exact ⟨0, by omega, by simpa using h⟩
  · obtain ⟨d, hd, rfl⟩ := List.mem_map.mp h
    exact ⟨d, Nat.digits_lt_base (by omega) (List.mem_reverse.mp hd), rfl⟩

theorem isDigit_of_mem_decimal {n : Nat} {c : Byte} (h : c ∈ decimal n) : isDigit c = true := by
  obtain ⟨d, hd, rfl⟩ := mem_decimal h
  interval_cases d <;> rfl

theorem decimal_ne_nil (n : Nat) : decimal n ≠ [] := by
  rw [decimal]
  split
  · simp
  · rename_i h
    simpa [Nat.digits_ne_nil_iff_ne_zero] using h

theorem decVal_append (xs : Bytes) (c : Byte) : decVal (xs ++ [c]) = 10 * decVal xs + (c.toNat - 0x30) := by
  simp [decVal]

theorem decVal_decimal (n : Nat) : decVal (decimal n) = n := by
  have key : ∀ ds : List Nat, (∀ d ∈ ds, d < 10) →
      decVal (ds.reverse.map fun d => BitVec.ofNat 8 (0x30 + d)) = Nat.ofDigits 10 ds := by
    intro ds hds
    induction ds with
    | nil => rfl
    | cons d ds ih =>
      have hd := hds d List.mem_cons_self
      rw [List.reverse_cons, List.map_append, List.map_singleton, decVal_append,
        ih fun x hx => hds x (List.mem_cons_of_mem _ hx), Nat.ofDigits_cons, BitVec.toNat_ofNat]
      omega
  rw [decimal]
  split
  · rename_i h; rw [h]; rfl
  · rw [key _ fun d hd => Nat.digits_lt_base (by omega) hd, Nat.ofDigits_digits]

theorem atoi_decimal {n : Nat} (h : n < 2 ^ 31) {s : CStr} (hs : s.bytes = decimal n) :
    atoi s = BitVec.ofNat 32 n := by
  obtain ⟨c, cs, hc⟩ := List.exists_cons_of_ne_nil (decimal_ne_nil n)
  have hdig : ∀ x ∈ c :: cs, isDigit x = true := fun x hx => isDigit_of_mem_decimal (hc ▸ hx)
  have hspace : isSpace c = false := by
    obtain ⟨d, hd, rfl⟩ := mem_decimal (hc ▸ List.mem_cons_self)
    interval_cases d <;> rfl
  have hsign : c ≠ 0x2d ∧ c ≠ 0x2b := by
    obtain ⟨d, hd, rfl⟩ := mem_decimal (hc ▸ List.mem_cons_self)
    interval_cases d <;> decide
  have hval : decVal ((c :: cs).takeWhile isDigit) = n := by
    rw [List.takeWhile_eq_self_iff.mpr hdig, ← hc, decVal_decimal]
  rw [atoi, hs, hc, List.dropWhile_cons_of_neg (by simp [hspace])]
  simp only []
  split
  · exact absurd (List.cons.inj ‹_›).1 hsign.1
  · exact absurd (List.cons.inj ‹_›).1 hsign.2
  · simp only [Bool.false_eq_true, if_false, hval]
    rw [Nat.min_eq_left (by omega)]

/-! ## Tokens -/

theorem strtok_eq {s : CStr} {d : Byte} {a rest : Bytes} (hs : s.bytes = a ++ d :: rest)
    (ha : a ≠ []) (hd : d ∉ a) : strtok s d = some (.ofBuf a, .ofBuf rest) := by
  obtain ⟨c, cs, rfl⟩ := List.exists_cons_of_ne_nil ha
  have hne : ∀ x ∈ c :: cs, x ≠ d := fun x hx e => hd (e ▸ hx)
  have htw : ((c :: cs) ++ d :: rest).takeWhile (· ≠ d) = c :: cs := by
    rw [List.takeWhile_append_of_pos (by simpa using hne)]; simp
  have hdw : ((c :: cs) ++ d :: rest).dropWhile (· ≠ d) = d :: rest := by
    rw [List.dropWhile_append_of_pos (by simpa using hne)]; simp
  rw [strtok, hs, List.cons_append, List.dropWhile_cons_of_neg (by simpa using hne c List.mem_cons_self)]
  rw [List.cons_append] at htw hdw
  simp only [htw, hdw, List.drop_one, List.tail_cons]

theorem strtok_last {s : CStr} {d : Byte} (hs : s.bytes ≠ []) (hd : d ∉ s.bytes) :
    strtok s d = some (s, .ofBuf []) := by
  obtain ⟨c, cs, hc⟩ := List.exists_cons_of_ne_nil hs
  have hne : ∀ x ∈ c :: cs, x ≠ d := fun x hx e => hd (hc ▸ e ▸ hx)
  have htw : (c :: cs).takeWhile (· ≠ d) = c :: cs := List.takeWhile_eq_self_iff.mpr (by simpa using hne)
  have hdw : (c :: cs).dropWhile (· ≠ d) = [] := List.dropWhile_eq_nil_iff.mpr (by simpa using hne)
  rw [strtok, hc, List.dropWhile_cons_of_neg (by simpa using hne c List.mem_cons_self)]
  simp only [htw, hdw, List.drop_nil]
  rw [← hc, CStr.ofBuf_bytes]

theorem noNul_decimal (n : Nat) : (0 : Byte) ∉ decimal n := fun h => by
  simpa [isDigit] using isDigit_of_mem_decimal h

theorem noSlash_decimal (n : Nat) : (0x2f : Byte) ∉ decimal n := fun h => by
  simpa [isDigit] using isDigit_of_mem_decimal h

theorem getIp_prefixText {s ip : CStr} {len : Nat} (h : IsPrefixText s ip len) : getIp s = some ip := by
  rw [getIp, strtok_eq h.text h.ip_ne_nil h.ip_noSlash, Option.map_some, CStr.ofBuf_bytes]

theorem getMask_prefixText {s ip : CStr} {len : Nat} (h : IsPrefixText s ip len) :
    getMask s = some (BitVec.ofNat 32 len) := by
  have hb : (CStr.ofBuf (decimal len)).bytes = decimal len := CStr.ofBuf_of_noNul (noNul_decimal len)
  rw [getMask, strtok_eq h.text h.ip_ne_nil h.ip_noSlash]
  simp only [Option.bind_eq_bind, Option.bind_some]
  rw [strtok_last (by rw [hb]; exact decimal_ne_nil len) (by rw [hb]; exact noSlash_decimal len)]
  simp only [Option.bind_some, atoi_decimal h.len_lt hb]
  rfl

end CfgIpsec.Proof
