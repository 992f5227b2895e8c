import CfgIpsec.Impl.Parse
import CfgIpsec.Spec.Grammar

/-!
# What the parser accepts

`parseLoop_spec`: from any point of a message, the parser's loop consumes all
that is left exactly when it is a concatenation of extensions of types not
seen before (`Fits`), and then notes where each starts. The induction is on
the fuel, which bounds the units left.
-/

namespace CfgIpsec.Proof

open Impl Spec Tlv

/-- The extensions `rs` may follow those noted in `out`. -/
structure Fits (out : PfkeyMsg) (rs : List Bytes) : Prop where
  types : ∀ e ∈ rs, extFormat.type e ≠ 0 ∧ extFormat.type e ≤ SADB_EXT_MAX
  nodup : (rs.map extFormat.type).Nodup
  fresh : ∀ e ∈ rs, out (extFormat.type e) = none

theorem Fits.nil (out : PfkeyMsg) : Fits out [] := ⟨by simp, by simp, by simp⟩

theorem fits_cons_iff {out : PfkeyMsg} {e : Bytes} {rs : List Bytes} (p : Nat) :
    Fits out (e :: rs) ↔
      (extFormat.type e ≠ 0 ∧ extFormat.type e ≤ SADB_EXT_MAX ∧ out (extFormat.type e) = none) ∧
        Fits (Function.update out (extFormat.type e) (some p)) rs := by
  have hne : extFormat.type e ∉ rs.map extFormat.type ↔ ∀ e' ∈ rs, extFormat.type e' ≠ extFormat.type e := by
    simp [List.mem_map]
  constructor
  · rintro ⟨ht, hn, hf⟩
    obtain ⟨hte, ht⟩ := List.forall_mem_cons.mp ht
    obtain ⟨hfe, hf⟩ := List.forall_mem_cons.mp hf
    obtain ⟨hni, hn⟩ := List.nodup_cons.mp hn
    refine ⟨⟨hte.1, hte.2, hfe⟩, ht, hn, fun e' he' => ?_⟩
    rw [Function.update_of_ne (hne.mp hni e' he'), hf e' he']
  · rintro ⟨⟨h0, hm, he⟩, ht, hn, hf⟩
    have hni : ∀ e' ∈ rs, extFormat.type e' ≠ extFormat.type e := by
      intro e' he' heq
      have := hf e' he'
      rw [heq, Function.update_self] at this
      cases this
    refine ⟨List.forall_mem_cons.mpr ⟨⟨h0, hm⟩, ht⟩, List.nodup_cons.mpr ⟨hne.mpr hni, hn⟩,
      List.forall_mem_cons.mpr ⟨he, fun e' he' => ?_⟩⟩
    have := hf e' he'
    rwa [Function.update_of_ne (hni e' he')] at this

/-- Where the extensions `rs` from position `p` on start, after those in `out`. -/
def noted (out : PfkeyMsg) (p : Nat) (rs : List Bytes) : PfkeyMsg :=
  fun t => (out t).or ((locate extFormat t rs).map (p + ·))

theorem noted_nil (out : PfkeyMsg) (p : Nat) : noted out p [] = out := by
  funext t; simp [noted, locate]

theorem noted_cons {out : PfkeyMsg} {p : Nat} {e : Bytes} {rs : List Bytes}
    (h : out (extFormat.type e) = none) :
    noted out p (e :: rs) =
      noted (Function.update out (extFormat.type e) (some p)) (p + e.length) rs := by
  funext t
  by_cases ht : extFormat.type e = t
  · subst ht; simp [noted, locate, h]
  · rw [noted, noted, locate, if_neg ht, Function.update_of_ne (Ne.symm ht), Option.map_map]
    congr 2
    funext n
    simp only [Function.comp_apply]; omega

/-- The head of what lies at `p`. -/
theorem exts_head (buf : Bytes) {p len : Nat} (h : p + 8 * len ≤ buf.length) (hl : 1 ≤ len) :
    extLen buf p = some (BitVec.ofNat 16 (extFormat.size ((buf.drop p).take (8 * len)))) ∧
      extType buf p = some (extFormat.type ((buf.drop p).take (8 * len))) := by
  constructor
  · rw [extLen, getLE?_eq_some (by omega)]
    simp only [extFormat]
    rw [getLE_take (by omega), getLE_drop, BitVec.ofNat_toNat, BitVec.setWidth_eq, Nat.add_zero]
  · rw [extType, getLE?_eq_some (by omega)]
    simp only [extFormat]
    rw [getLE_take (by omega), getLE_drop]

theorem parseLoop_spec (buf : Bytes) {fuel len p : Nat} {out : PfkeyMsg}
    (h : p + 8 * len ≤ buf.length) (hf : len < fuel) :
    ∃ k out', parseLoop buf fuel len p out = some (k, out') ∧
      (k = 0 ↔ ∃ rs, Tiles extFormat ((buf.drop p).take (8 * len)) rs ∧ Fits out rs) ∧
      ∀ rs, Tiles extFormat ((buf.drop p).take (8 * len)) rs → Fits out rs → out' = noted out p rs := by
  induction fuel generalizing len p out with
  | zero => omega
  | succ fuel ih =>
    rcases Nat.eq_zero_or_pos len with rfl | hl
    · refine ⟨0, out, by simp [parseLoop], ?_, ?_⟩
      · simpa using ⟨[], tiles_nil_iff.mpr rfl, Fits.nil out⟩
      · intro rs ht _
        rw [Nat.mul_zero, List.take_zero, tiles_nil_iff] at ht
        rw [ht, noted_nil]
    replace hl : 1 ≤ len := hl
    set ws := (buf.drop p).take (8 * len) with hws
    have hwl : ws.length = 8 * len := by rw [hws, List.length_take, List.length_drop]; omega
    have hu : extFormat.unit ≤ ws.length := by rw [hwl]; exact Nat.le_mul_of_pos_right 8 hl
    obtain ⟨hel, het⟩ := exts_head buf h hl
    rw [← hws] at hel het
    have hsize : (BitVec.ofNat 16 (extFormat.size ws)).toNat = extFormat.size ws := by
      simp only [extFormat, BitVec.ofNat_toNat, BitVec.setWidth_eq]
    have hstep := exists_tiles_iff (F := extFormat) (P := Fits out) hu
    rw [show extFormat.unit = 8 from rfl, hwl] at hstep
    rw [parseLoop, if_pos hl]
    simp only [hel, het, Option.bind_eq_bind, Option.bind_some, hsize]
    -- an extension that does not fit, or whose type does not, ends the loop
    have stop : ¬ (∃ rs, Tiles extFormat ws rs ∧ Fits out rs) → ∃ k out',
        (pure (len, out) : Option (Nat × PfkeyMsg)) = some (k, out') ∧
          (k = 0 ↔ ∃ rs, Tiles extFormat ws rs ∧ Fits out rs) ∧
          ∀ rs, Tiles extFormat ws rs → Fits out rs → out' = noted out p rs := fun hno =>
      ⟨len, out, rfl, iff_of_false (by omega) hno, fun rs ht hf => absurd ⟨rs, ht, hf⟩ hno⟩
    by_cases hlen : extFormat.size ws < 1 ∨ len < extFormat.size ws
    · rw [if_pos hlen]
      exact stop fun hex => by have := hstep.mp hex; omega
    rw [if_neg hlen]
    have h1 : 1 ≤ extFormat.size ws := by omega
    have hty := type_take hu h1
    rw [show extFormat.unit = 8 from rfl] at hty
    have hhead : ∀ rs, Fits out (ws.take (8 * extFormat.size ws) :: rs) ↔
        (extFormat.type ws ≠ 0 ∧ extFormat.type ws ≤ SADB_EXT_MAX ∧ out (extFormat.type ws) = none) ∧
          Fits (Function.update out (extFormat.type ws) (some p)) rs := fun rs => by
      rw [fits_cons_iff p, hty]
    by_cases hmax : extFormat.type ws > SADB_EXT_MAX ∨ extFormat.type ws = 0
    · rw [if_pos hmax]
      refine stop fun hex => ?_
      obtain ⟨-, -, rs, -, hfit⟩ := hstep.mp hex
      have := ((hhead rs).mp hfit).1
      exact hmax.elim (fun hm => absurd this.2.1 (BitVec.not_le.mpr hm)) this.1
    rw [if_neg hmax]
    by_cases hdup : (out (extFormat.type ws)).isSome
    · rw [if_pos hdup]
      refine stop fun hex => ?_
      obtain ⟨-, -, rs, -, hfit⟩ := hstep.mp hex
      rw [((hhead rs).mp hfit).1.2.2] at hdup; cases hdup
    rw [if_neg hdup]
    obtain ⟨hle, h0⟩ := not_or.mp hmax
    have hnone : out (extFormat.type ws) = none := by simpa using hdup
    have hdrop : ws.drop (8 * extFormat.size ws) =
        (buf.drop (p + 8 * extFormat.size ws)).take (8 * (len - extFormat.size ws)) := by
      rw [hws, List.drop_take, List.drop_drop, Nat.mul_sub]
    obtain ⟨k, out', heq, hk, hout⟩ := @ih (len - extFormat.size ws) (p + 8 * extFormat.size ws)
      (Function.update out (extFormat.type ws) (some p)) (by omega) (by omega)
    rw [← hdrop] at hk hout
    refine ⟨k, out', heq, ?_, fun rs ht hf => ?_⟩
    · rw [hk, hstep]
      constructor
      · rintro ⟨rs, ht, hf⟩
        exact ⟨h1, by omega, rs, ht, (hhead rs).mpr ⟨⟨h0, BitVec.not_lt.mp hle, hnone⟩, hf⟩⟩
      · rintro ⟨-, -, rs, ht, hf⟩
        exact ⟨rs, ht, ((hhead rs).mp hf).2⟩
    · obtain ⟨-, -, rs', ht', rfl, hf'⟩ :=
        (exists_tiles_iff (P := fun r => r = rs ∧ Fits out r) hu).mp ⟨rs, ht, rfl, hf⟩
      rw [show extFormat.unit = 8 from rfl] at ht' hf' ⊢
      have hlt : (ws.take (8 * extFormat.size ws)).length = 8 * extFormat.size ws := by
        rw [List.length_take, hwl]; omega
      rw [hout rs' ht' ((hhead rs').mp hf').2, noted_cons (by rw [hty]; exact hnone), hty, hlt]

/-- A message as `pfkey_send_socket` hands it on: the parser never reads past
its end, and returns 0 exactly for a concatenation of extensions of pairwise
different types, of which it notes where each starts. -/
theorem parsePfkeyMessage_spec {buf : Bytes} (h2 : 2 ≤ msgUnits buf)
    (hbuf : 8 * msgUnits buf ≤ buf.length) :
    ∃ r out, parsePfkeyMessage buf = some (r, out) ∧
      (r = 0 ↔ ∃ rs, IsExts (msgExts buf) rs) ∧
      ∀ rs, IsExts (msgExts buf) rs → out = fun t => (locate extFormat t rs).map (16 + ·) := by
  have hsub : ((getLE buf 4 16).setWidth 64 - BitVec.ofNat 64 (sadbMsg.size / 8)).toNat = msgUnits buf - 2 := by
    have hlt := (getLE buf 4 16).isLt
    rw [msgUnits] at h2 ⊢
    rw [show sadbMsg.size / 8 = 2 from rfl, BitVec.toNat_sub, BitVec.toNat_setWidth]
    simp only [BitVec.toNat_ofNat]
    omega
  obtain ⟨k, out, heq, hk, hout⟩ := @parseLoop_spec buf (buf.length + 1) (msgUnits buf - 2) 16
    (fun _ => none) (by omega) (by omega)
  have hfits : ∀ rs, Tiles extFormat (msgExts buf) rs ∧ Fits (fun _ => none) rs ↔ IsExts (msgExts buf) rs :=
    fun rs => ⟨fun h => ⟨h.1, h.2.types, h.2.nodup⟩, fun h => ⟨h.tiles, h.types, h.nodup, by simp⟩⟩
  refine ⟨if k ≠ 0 then 1 else 0, out, ?_, ?_, fun rs hrs => ?_⟩
  · rw [parsePfkeyMessage, getLE?_eq_some (by omega)]
    simp only [Option.bind_eq_bind, Option.bind_some, hsub]
    rw [show sadbMsg.size = 16 from rfl, heq]; rfl
  · rw [show (∃ rs, IsExts (msgExts buf) rs) ↔ k = 0 by
      rw [hk]; exact exists_congr fun rs => (hfits rs).symm]
    split <;> simp_all
  · rw [hout rs ((hfits rs).mpr hrs).1 ((hfits rs).mpr hrs).2]
    funext t
    simp [noted]

/-- `parse_pfkey_message` accepts exactly its grammar. -/
theorem parsePfkeyMessage_accepts {buf : Bytes} (h2 : 2 ≤ msgUnits buf)
    (hbuf : 8 * msgUnits buf ≤ buf.length) :
    ∃ r out, parsePfkeyMessage buf = some (r, out) ∧
      (r = 0 ↔ ∃ rs, IsExts (msgExts buf) rs) ∧
      (r = 0 → ∃ rs, IsExts (msgExts buf) rs ∧ ∀ t,
        (out t = none ↔ ∀ e ∈ rs, extFormat.type e ≠ t) ∧
        ∀ p, out t = some p ↔ ∃ pre e post, rs = pre ++ e :: post ∧ extFormat.type e = t ∧
          p = 16 + pre.flatten.length) := by
  obtain ⟨r, out, heq, hr, hout⟩ := parsePfkeyMessage_spec h2 hbuf
  refine ⟨r, out, heq, hr, fun h0 => ?_⟩
  obtain ⟨rs, hrs⟩ := hr.mp h0
  refine ⟨rs, hrs, fun t => ?_⟩
  rw [hout rs hrs]
  refine ⟨by rw [Option.map_eq_none_iff, locate_eq_none_iff], fun p => ?_⟩
  rw [Option.map_eq_some_iff]
  constructor
  · rintro ⟨o, ho, rfl⟩
    obtain ⟨pre, e, post, h, ht, rfl⟩ := (locate_eq_some_iff hrs.nodup).mp ho
    exact ⟨pre, e, post, h, ht, rfl⟩
  · rintro ⟨pre, e, post, h, ht, rfl⟩
    exact ⟨_, (locate_eq_some_iff hrs.nodup).mpr ⟨pre, e, post, h, ht, rfl⟩, rfl⟩

/-- A message with an SA extension of one unit. -/
theorem parsePfkeyMessage_accepts_sa :
    ∃ r out, parsePfkeyMessage [2, 3, 0, 3, 3, 0, 0, 0, 0, 0, 0, 0, 0, 0, 0, 0, 1, 0, 1, 0, 9, 9, 9, 9] =
      some (r, out) ∧ (r = 0 ↔ ∃ rs, IsExts [1, 0, 1, 0, 9, 9, 9, 9] rs) := by
  obtain ⟨r, out, h, hr, -⟩ := @parsePfkeyMessage_accepts
    [2, 3, 0, 3, 3, 0, 0, 0, 0, 0, 0, 0, 0, 0, 0, 0, 1, 0, 1, 0, 9, 9, 9, 9] (by decide) (by decide)
  exact ⟨r, out, h, hr⟩

end CfgIpsec.Proof
