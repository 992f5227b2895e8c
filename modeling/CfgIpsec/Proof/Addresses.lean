import CfgIpsec.Impl.Buffers
import CfgIpsec.Proof.Selectors
import CfgIpsec.Spec.Ip

/-!
# Addresses in text and on the wire

The texts that the patterns of IPv4 admit are four numbers below 256, and a
length up to 32 (`ipv4Prefix_text`). What `inet_addr` reads of such an address is
what `inet_ntop` prints (`inetAddr_dotted`, `inetNtop_quad`), so that an address
comes back from its extension with its port (`prefix_printed`).
-/

namespace CfgIpsec.Proof

open Impl Spec Pattern
open CStr (lit)

/-! ## Numbers -/

theorem length_decimal_le {n k : Nat} (hk : 0 < k) (h : n < 10 ^ k) : (decimal n).length ≤ k := by
  rw [decimal]
  split
  · exact hk
  · rw [List.length_map, List.length_reverse]
    exact (Nat.digits_length_le_iff (by omega) n).mpr h

/-- The numbers of a dotted notation, read in decimal or as `inet_addr` does. -/
theorem numeral_decimal {n : Nat} (h : n < 256) : numeral 10 (decimal n) = some n ∧ inetPart (decimal n) = some n := by
  have hall : ∀ n < 256, numeral 10 (decimal n) = some n ∧ inetPart (decimal n) = some n := by decide +kernel
  exact hall n h

theorem splitOn_dotted (w x y z : Nat) :
    (dotted w x y z).splitOn 0x2e = [decimal w, decimal x, decimal y, decimal z] := by
  rw [dotted, List.splitOn_append_cons_self_of_not_mem (noDot_decimal w),
    List.splitOn_append_cons_self_of_not_mem (noDot_decimal x),
    List.splitOn_append_cons_self_of_not_mem (noDot_decimal y), List.splitOn_eq_singleton (noDot_decimal z)]

theorem mapM_dotted {f : Bytes → Option Nat} (hf : ∀ n < 256, f (decimal n) = some n) {w x y z : Nat}
    (hw : w < 256) (hx : x < 256) (hy : y < 256) (hz : z < 256) :
    ((dotted w x y z).splitOn 0x2e).mapM f = some [w, x, y, z] := by
  rw [splitOn_dotted, List.mapM_cons, List.mapM_cons, List.mapM_cons, List.mapM_cons, List.mapM_nil,
    hf w hw, hf x hx, hf y hy, hf z hz]
  rfl

theorem inetAddr_dotted {s : CStr} {w x y z : Nat} (hs : s.bytes = dotted w x y z)
    (hw : w < 256) (hx : x < 256) (hy : y < 256) (hz : z < 256) : inetAddr s = quad w x y z := by
  rw [inetAddr, hs, mapM_dotted (fun n hn => (numeral_decimal hn).2) hw hx hy hz]
  exact if_pos ⟨hw, hx, hy, hz⟩

theorem quad?_dotted {w x y z : Nat} (hw : w < 256) (hx : x < 256) (hy : y < 256) (hz : z < 256) :
    quad? (dotted w x y z) = some (quad w x y z) := by
  rw [quad?, mapM_dotted (fun n hn => (numeral_decimal hn).1) hw hx hy hz]

theorem inetNtop_quad {w x y z : Nat} (hw : w < 256) (hx : x < 256) (hy : y < 256) (hz : z < 256) :
    (inetNtop (quad w x y z)).bytes = dotted w x y z := by
  have hnat : (quad w x y z).toNat = w + 256 * (x + 256 * (y + 256 * z)) := by
    rw [quad, BitVec.toNat_ofNat, Nat.mod_eq_of_lt (by omega)]
  rw [inetNtop_bytes, hnat, dotted, show (w + 256 * (x + 256 * (y + 256 * z))) % 256 = w by omega,
    show (w + 256 * (x + 256 * (y + 256 * z))) / 256 % 256 = x by omega,
    show (w + 256 * (x + 256 * (y + 256 * z))) / 2 ^ 16 % 256 = y by omega,
    show (w + 256 * (x + 256 * (y + 256 * z))) / 2 ^ 24 = z by omega]

/-- Four numbers below 256. -/
def IsDotted (bs : Bytes) : Prop :=
  ∃ w x y z, w < 256 ∧ x < 256 ∧ y < 256 ∧ z < 256 ∧ bs = dotted w x y z

theorem length_dotted_le {bs : Bytes} (h : IsDotted bs) : bs.length ≤ 15 := by
  obtain ⟨w, x, y, z, hw, hx, hy, hz, rfl⟩ := h
  have hlen : ∀ n < 256, (decimal n).length ≤ 3 := fun n hn => length_decimal_le (by omega) (by omega)
  have := hlen w hw
  have := hlen x hx
  have := hlen y hy
  have := hlen z hz
  simp only [dotted, List.length_append, List.length_cons]
  omega

/-- No separator is in the dotted notation. -/
theorem not_mem_dotted {c : Byte} (hd : isDigit c = false) (hc : c ≠ 0x2e) {bs : Bytes} (h : IsDotted bs) : c ∉ bs := by
  obtain ⟨w, x, y, z, -, -, -, -, rfl⟩ := h
  have hdec : ∀ n, c ∉ decimal n := fun n hn => by
    rw [isDigit_of_mem_decimal hn] at hd
    cases hd
  simpa [dotted, hdec] using hc

/-! ## Patterns -/

theorem words_octet : words octet = (List.range 256).map decimal := by decide +kernel

theorem words_ipv4LenPat : words ipv4LenPat = (List.range 33).map decimal := by decide +kernel

theorem mem_octet_iff {bs : Bytes} : bs ∈ octet.matches' ↔ ∃ n < 256, bs = decimal n := by
  rw [mem_words_iff rfl, words_octet]
  simp only [List.mem_map, List.mem_range, eq_comm]

theorem mem_ipv4LenPat_iff {bs : Bytes} : bs ∈ ipv4LenPat.matches' ↔ ∃ n < 33, bs = decimal n := by
  rw [mem_words_iff rfl, words_ipv4LenPat]
  simp only [List.mem_map, List.mem_range, eq_comm]

theorem octetDot_word {bs : Bytes} (h : bs ∈ (octet * str ".").matches') : ∃ n < 256, bs = decimal n ++ [0x2e] := by
  obtain ⟨x, hx, y, hy, rfl⟩ := Language.mem_mul.mp h
  obtain ⟨n, hn, rfl⟩ := mem_octet_iff.mp hx
  have hdot : (lit ".").bytes = [0x2e] := rfl
  exact ⟨n, hn, by rw [mem_text.mp hy, hdot]⟩

theorem quadPat_text {bs : Bytes} (h : bs ∈ quadPat.matches') : IsDotted bs := by
  obtain ⟨t, ht, b₄, h₄, rfl⟩ := Language.mem_mul.mp h
  obtain ⟨u, hu, b₃, h₃, rfl⟩ := Language.mem_mul.mp ht
  obtain ⟨b₁, h₁, b₂, h₂, rfl⟩ := Language.mem_mul.mp hu
  obtain ⟨w, hw, rfl⟩ := octetDot_word h₁
  obtain ⟨x, hx, rfl⟩ := octetDot_word h₂
  obtain ⟨y, hy, rfl⟩ := octetDot_word h₃
  obtain ⟨z, hz, rfl⟩ := mem_octet_iff.mp h₄
  exact ⟨w, x, y, z, hw, hx, hy, hz, by simp [dotted]⟩

/-- The text of a prefix of IPv4. -/
theorem ipv4Prefix_text {s : CStr} (h : IsIpv4Prefix s) :
    ∃ addr len, IsDotted addr ∧ len ≤ 32 ∧ s.bytes = addr ++ 0x2f :: decimal len := by
  obtain ⟨t, ht, l, hl, hs⟩ := Language.mem_mul.mp h
  obtain ⟨addr, ha, slash, hslash, rfl⟩ := Language.mem_mul.mp ht
  obtain ⟨len, hlen, rfl⟩ := mem_ipv4LenPat_iff.mp hl
  have hbytes : (lit "/").bytes = [0x2f] := rfl
  refine ⟨addr, len, quadPat_text ha, by omega, ?_⟩
  rw [← hs, mem_text.mp hslash, hbytes, List.append_assoc]
  rfl

theorem ipv4Prefix_isPrefixText {s : CStr} (h : IsIpv4Prefix s) :
    ∃ (ip : CStr) (w x y z len : Nat), w < 256 ∧ x < 256 ∧ y < 256 ∧ z < 256 ∧ len ≤ 32 ∧
      ip.bytes = dotted w x y z ∧ IsPrefixText s ip len := by
  obtain ⟨addr, len, hdot, hlen, hs⟩ := ipv4Prefix_text h
  have hnul : (0 : Byte) ∉ addr := not_mem_dotted rfl (by decide) hdot
  have hslash : (0x2f : Byte) ∉ addr := not_mem_dotted rfl (by decide) hdot
  obtain ⟨w, x, y, z, hw, hx, hy, hz, rfl⟩ := hdot
  refine ⟨⟨_, hnul⟩, w, x, y, z, len, hw, hx, hy, hz, hlen, rfl, hs, ?_, hslash, by omega⟩
  simp [dotted]

theorem mem_bytesFrom {a b c : Byte} (ha : a ≤ c) (hb : c ≤ b) : c ∈ bytesFrom a b := by
  rw [BitVec.le_def] at ha hb
  refine List.mem_map.mpr ⟨c.toNat - a.toNat, List.mem_range.mpr (by omega), ?_⟩
  apply BitVec.eq_of_toNat_eq
  rw [BitVec.toNat_add, BitVec.toNat_ofNat]
  have := c.isLt
  omega

/-- Up to four hexadecimal digits. -/
theorem mem_group {bs : Bytes} (hlen : bs.length ≤ 4) (hd : ∀ b ∈ bs, (digitIn 16 b).isSome = true) :
    bs ∈ group.matches' := by
  refine mem_upTo_oneOf (fun b hb => ?_) hlen
  have h := hd b hb
  simp only [digitIn, isDigit, Bool.and_eq_true, decide_eq_true_eq] at h
  rw [List.mem_append, List.mem_append]
  by_cases hdec : 0x30 ≤ b ∧ b ≤ 0x39
  · exact .inl (.inl (mem_bytesFrom hdec.1 hdec.2))
  by_cases hlow : 0x61 ≤ b ∧ b ≤ 0x66
  · exact .inl (.inr (mem_bytesFrom hlow.1 hlow.2))
  by_cases hup : 0x41 ≤ b ∧ b ≤ 0x46
  · exact .inr (mem_bytesFrom hup.1 hup.2)
  rw [if_neg hdec, if_neg hlow, if_neg hup] at h
  cases h

/-- Bytes other than a colon. -/
theorem mem_part {b : Byte} {bs : Bytes} (h : ∀ c ∈ b :: bs, c ≠ 0 ∧ c ≠ 0x3a) : b :: bs ∈ part.matches' := by
  refine mem_more_oneOf fun c hc => ?_
  obtain ⟨h0, hcolon⟩ := h c hc
  rw [List.mem_append]
  by_cases hlt : c < 0x3a
  · exact .inl (mem_bytesFrom (by bv_omega) (by bv_omega))
  · exact .inr (mem_bytesFrom (by bv_omega) (by bv_omega))

/-- No digit is a colon. -/
theorem digitIn_clear {b : Byte} (hb : (digitIn 16 b).isSome = true) : b ≠ 0 ∧ b ≠ 0x3a := by
  refine ⟨fun h => ?_, fun h => ?_⟩
  all_goals
    subst h
    cases hb

/-- A prefix of IPv6 with all its groups. -/
theorem isIpv6Prefix_groups (g₀ g₁ g₂ g₃ g₄ g₅ g₆ g₇ : Bytes) {len : Bytes}
    (h : ∀ g ∈ [g₀, g₁, g₂, g₃, g₄, g₅, g₆, g₇], g ≠ [] ∧ g.length ≤ 4 ∧ ∀ b ∈ g, (digitIn 16 b).isSome = true)
    (hlen : len ∈ ipv6LenPat.matches') (hd : ∀ b ∈ len, (digitIn 16 b).isSome = true) {s : CStr}
    (hs : s.bytes = g₀ ++ 0x3a :: (g₁ ++ 0x3a :: (g₂ ++ 0x3a :: (g₃ ++ 0x3a :: (g₄ ++ 0x3a :: (g₅ ++ 0x3a ::
      (g₆ ++ 0x3a :: (g₇ ++ 0x2f :: len)))))))) : IsIpv6Prefix s := by
  have hcolon : [0x3a] ∈ (str ":").matches' := mem_text.mpr rfl
  have hslash : [0x2f] ∈ (str "/").matches' := mem_text.mpr rfl
  have hg : ∀ g ∈ [g₀, g₁, g₂, g₃, g₄, g₅, g₆, g₇], g ∈ group.matches' := fun g hg =>
    mem_group (h g hg).2.1 (h g hg).2.2
  have hp : ∀ g ∈ [g₀, g₁, g₂, g₃, g₄, g₅, g₆, g₇], ∀ bs : Bytes, (∀ b ∈ bs, b ≠ 0 ∧ b ≠ 0x3a) →
      g ++ bs ∈ part.matches' := by
    intro g hg bs hbs
    obtain ⟨hne, -, hb⟩ := h g hg
    obtain ⟨b, r, rfl⟩ := List.exists_cons_of_ne_nil hne
    exact mem_part fun c hc => (List.mem_append.mp hc).elim (fun hc => digitIn_clear (hb c hc)) (hbs c)
  rw [List.forall_mem_cons, List.forall_mem_cons, List.forall_mem_cons, List.forall_mem_cons, List.forall_mem_cons,
    List.forall_mem_cons, List.forall_mem_cons, List.forall_mem_singleton] at hg hp
  obtain ⟨h₀, h₁, h₂, h₃, h₄, h₅, h₆, h₇⟩ := hg
  obtain ⟨p₀, p₁, p₂, p₃, p₄, p₅, p₆, p₇⟩ := hp
  constructor
  · have hfive : [g₁ ++ [0x3a], g₂ ++ [0x3a], g₃ ++ [0x3a], g₄ ++ [0x3a], g₅ ++ [0x3a]].flatten ∈
        (upTo (group * str ":") 5).matches' := by
      refine flatten_mem_upTo ?_ le_rfl
      rw [List.forall_mem_cons, List.forall_mem_cons, List.forall_mem_cons, List.forall_mem_cons,
        List.forall_mem_singleton]
      exact ⟨mem_seq h₁ hcolon, mem_seq h₂ hcolon, mem_seq h₃ hcolon, mem_seq h₄ hcolon, mem_seq h₅ hcolon⟩
    have hgroups : _ ∈ ipv6Groups.matches' := mem_seq (mem_seq (mem_seq (mem_right h₀) hcolon) hfive)
      (mem_left (mem_seq (mem_opt (mem_seq h₆ hcolon)) (mem_right h₇)))
    exact mem_of_eq (mem_seq hgroups (mem_seq hslash hlen)) (by simp [hs])
  · have hpart : ∀ g : Bytes, (∀ bs : Bytes, (∀ b ∈ bs, b ≠ 0 ∧ b ≠ 0x3a) → g ++ bs ∈ part.matches') →
        g ++ [0x3a] ∈ (part * str ":").matches' := fun g hg => by
      have h := mem_seq (hg [] (List.forall_mem_nil _)) hcolon
      rwa [List.append_nil] at h
    have hlast : g₇ ++ 0x2f :: len ∈ part.matches' :=
      p₇ _ (List.forall_mem_cons.mpr ⟨by decide, fun b hb => digitIn_clear (hd b hb)⟩)
    have hfull : _ ∈ ipv6Full.matches' := mem_seq
      (mem_seq (mem_seq (mem_seq (mem_seq (mem_seq (hpart _ p₀) (hpart _ p₁)) (hpart _ p₂)) (hpart _ p₃)) (hpart _ p₄))
        (hpart _ p₅))
      (mem_left (mem_seq (hpart _ p₆) hlast))
    exact mem_left (mem_of_eq hfull (by simp [hs]))

/-- A prefix of IPv6 with two groups, and zeros. -/
theorem isIpv6Prefix_double (g₀ g₁ : Bytes) {len : Bytes}
    (h : ∀ g ∈ [g₀, g₁], g ≠ [] ∧ g.length ≤ 4 ∧ ∀ b ∈ g, (digitIn 16 b).isSome = true)
    (hlen : len ∈ ipv6LenPat.matches') (hne : len ≠ []) (hd : ∀ b ∈ len, isDigit b = true) {s : CStr}
    (hs : s.bytes = g₀ ++ 0x3a :: (g₁ ++ 0x3a :: 0x3a :: 0x2f :: len)) : IsIpv6Prefix s := by
  have hcolon : [0x3a] ∈ (str ":").matches' := mem_text.mpr rfl
  have hslash : [0x2f] ∈ (str "/").matches' := mem_text.mpr rfl
  rw [List.forall_mem_cons, List.forall_mem_singleton] at h
  obtain ⟨⟨hne₀, hlen₀, hd₀⟩, hne₁, hlen₁, hd₁⟩ := h
  constructor
  · have hone : g₁ ++ [0x3a] ++ [] ∈ (upTo (group * str ":") 5).matches' :=
      mem_upTo_succ (mem_seq (mem_group hlen₁ hd₁) hcolon) (nil_mem_upTo 4)
    have hgroups : _ ∈ ipv6Groups.matches' := mem_seq
      (mem_seq (mem_seq (mem_right (mem_group hlen₀ hd₀)) hcolon) hone) (mem_left (mem_seq nil_mem_opt (mem_left hcolon)))
    exact mem_of_eq (mem_seq hgroups (mem_seq hslash hlen)) (by simp [hs])
  · have hpart : ∀ g : Bytes, g ≠ [] → (∀ b ∈ g, (digitIn 16 b).isSome = true) → g ∈ part.matches' := by
      intro g hg hb
      obtain ⟨b, r, rfl⟩ := List.exists_cons_of_ne_nil hg
      exact mem_part fun c hc => digitIn_clear (hb c hc)
    have hdouble : [0x3a, 0x3a] ∈ (str "::").matches' := mem_text.mpr rfl
    have hparts : g₀ ++ [0x3a] ++ g₁ ∈ parts.matches' :=
      mem_opt (mem_seq (Language.mem_kstar.mpr ⟨[g₀ ++ [0x3a]], by simp, by
        simpa using mem_seq (hpart g₀ hne₀ hd₀) hcolon⟩) (hpart g₁ hne₁ hd₁))
    have hany : len ∈ (more anyByte).matches' := by
      obtain ⟨b, r, rfl⟩ := List.exists_cons_of_ne_nil hne
      refine mem_more_oneOf fun c hc => List.mem_append_right _ ?_
      have hdigit := hd c hc
      simp only [isDigit, Bool.and_eq_true, decide_eq_true_eq] at hdigit
      exact mem_bytesFrom (by bv_omega) (by bv_omega)
    exact mem_right (mem_of_eq (mem_seq (mem_seq (mem_seq hparts hdouble) nil_mem_opt) (mem_seq hslash hany))
      (by simp [hs]))

/-! ## There and back -/

/-- The text of a prefix. -/
def prefixText (w x y z len : Nat) : CStr := .ofBuf (dotted w x y z ++ 0x2f :: decimal len)

theorem bytes_prefixText {w x y z : Nat} (hw : w < 256) (hx : x < 256) (hy : y < 256) (hz : z < 256) (len : Nat) :
    (prefixText w x y z len).bytes = dotted w x y z ++ 0x2f :: decimal len := by
  have hnul : (0 : Byte) ∉ dotted w x y z := not_mem_dotted rfl (by decide) ⟨w, x, y, z, hw, hx, hy, hz, rfl⟩
  refine CStr.ofBuf_of_noNul fun h0 => ?_
  simp only [List.mem_append, hnul, false_or, List.mem_cons, noNul_decimal, or_false] at h0
  exact absurd h0 (by decide)

theorem mem_quadPat {w x y z : Nat} (hw : w < 256) (hx : x < 256) (hy : y < 256) (hz : z < 256) :
    dotted w x y z ∈ quadPat.matches' := by
  have hoctet : ∀ n < 256, decimal n ∈ octet.matches' := fun n hn => mem_octet_iff.mpr ⟨n, hn, rfl⟩
  have hdot : [0x2e] ∈ (str ".").matches' := mem_text.mpr rfl
  have hquad := mem_seq (mem_seq (mem_seq (mem_seq (hoctet w hw) hdot) (mem_seq (hoctet x hx) hdot))
    (mem_seq (hoctet y hy) hdot)) (hoctet z hz)
  simp only [List.append_assoc, List.cons_append, List.nil_append] at hquad
  exact hquad

/-- The text of a prefix is one by the schema. -/
theorem isIpv4Prefix_prefixText {w x y z len : Nat} (hw : w < 256) (hx : x < 256) (hy : y < 256) (hz : z < 256)
    (hlen : len ≤ 32) : IsIpv4Prefix (prefixText w x y z len) := by
  have hslash : [0x2f] ∈ (str "/").matches' := mem_text.mpr rfl
  have h := mem_seq (mem_seq (mem_quadPat hw hx hy hz) hslash) (mem_ipv4LenPat_iff.mpr ⟨len, by omega, rfl⟩)
  rw [IsIpv4Prefix, bytes_prefixText hw hx hy hz]
  rwa [List.append_assoc] at h

theorem isIpv4Prefix_lit {text : String} (w x y z : Fin 256) (len : Fin 33) (h : prefixText w x y z len = lit text) :
    IsIpv4Prefix (lit text) :=
  h ▸ isIpv4Prefix_prefixText w.isLt x.isLt y.isLt z.isLt (Nat.le_of_lt_succ len.isLt)

/-- The extension of an address keeps the length of its prefix, and is printed as
the address, with its port after a dot unless it is zero; the port has room. -/
theorem prefix_printed (w x y z : Fin 256) (len : Fin 33) (port : BitVec 16) (zero : BitVec 64) (t : BitVec 16)
    (proto : BitVec 32) :
    ∃ a text, subnetAddr zero t proto (port.setWidth 32) (prefixText w x y z len) = some a ∧
      a.prefixlen.toNat = len ∧ sockNtop (sadbAddress.put a) 8 = some text ∧
      text.bytes = dotted w x y z ++ (if port = 0 then [] else (portText port).bytes) ∧
      (portText port).bytes = 0x2e :: decimal port.toNat ∧ strlen (portText port) + 1 ≤ PORTSTR_SIZE := by
  have hdot : IsDotted (dotted w x y z) := ⟨w, x, y, z, w.isLt, x.isLt, y.isLt, z.isLt, rfl⟩
  have hnul : (0 : Byte) ∉ dotted w x y z := not_mem_dotted rfl (by decide) hdot
  have hbytes := bytes_prefixText w.isLt x.isLt y.isLt z.isLt len
  have htext : IsPrefixText (prefixText w x y z len) ⟨_, hnul⟩ len :=
    ⟨hbytes, by simp [dotted], not_mem_dotted rfl (by decide) hdot, by have := len.isLt; omega⟩
  have hport : (portText port).bytes = 0x2e :: decimal port.toNat := by
    refine CStr.ofBuf_of_noNul fun h0 => ?_
    simp only [List.mem_cons, noNul_decimal, or_false] at h0
    exact absurd h0 (by decide)
  have hprint : ∀ a : SadbAddress, a.sockaddr.family = AF_INET →
      sockNtop (sadbAddress.put a) 8 = some (ntop a.sockaddr.addr a.sockaddr.port) := by
    intro a ha
    have h := sockNtop_within [] [] (e := sadbAddress.put a) (by rw [Codec.length_put])
    rw [List.nil_append, List.append_nil, Codec.get_put_nil, if_pos ha] at h
    exact h
  refine ⟨_, _, subnetAddr_prefixText htext, ?_, hprint _ rfl, ?_, hport, ?_⟩
  · have := len.isLt
    simp only [address, BitVec.toNat_ofNat]
    omega
  · have hsw : (port.setWidth 32).setWidth 16 = port := by
      apply BitVec.eq_of_toNat_eq
      simp only [BitVec.toNat_setWidth]
      omega
    simp only [address, hsw, inetAddr_dotted (s := ⟨_, hnul⟩) rfl w.isLt x.isLt y.isLt z.isLt, ntop]
    split
    · rename_i hne
      rw [CStr.bytes_append, inetNtop_quad w.isLt x.isLt y.isLt z.isLt]
      rfl
    · rename_i hzero
      rw [inetNtop_quad w.isLt x.isLt y.isLt z.isLt, if_pos (not_not.mp hzero), List.append_nil]
  · have hlen : (decimal port.toNat).length ≤ 5 := length_decimal_le (by omega) (by have := port.isLt; omega)
    rw [strlen, hport, List.length_cons, PORTSTR_SIZE]
    omega

end CfgIpsec.Proof
