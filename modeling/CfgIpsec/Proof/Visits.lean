import CfgIpsec.Proof.Message
import CfgIpsec.Spec.Expiry

/-!
# Visiting the extensions of a message

A walk over a message in the thread's buffer sees its extensions and nothing of
what was in the buffer before (`walkExts_message`). `print_sadb_msg` reads no
further than an extension reaches that is as long as its type has it
(`PrintRoom`), and stays only at a current lifetime with a time that has no
local one (`printVisit_isSome_iff`): whether it prints a message is told by the
extensions (`printSadbMsg_message`).
-/

namespace CfgIpsec.Proof

open Impl Spec Tlv

/-! ## Walks -/

/-- A walk over records that start at `off`. -/
def walkRecords {σ : Type} (visit : BitVec 16 → Nat → σ → Option σ) : Nat → List Bytes → σ → Option σ
  | _, [], st => some st
  | off, e :: rs, st => do
    let st ← visit (extFormat.type e) off st
    walkRecords visit (off + e.length) rs st

/-- A walk over extensions sees each of them once. -/
theorem walkExts_tiles {σ : Type} {visit : BitVec 16 → Nat → σ → Option σ} {pre post : Bytes} {rs : List Bytes}
    (hr : ∀ e ∈ rs, IsRecord extFormat e) {fuel : Nat} (hf : rs.length ≤ fuel) (st : σ) :
    walkExts visit (pre ++ (rs.flatten ++ post)) fuel rs.flatten.length pre.length st =
      walkRecords visit pre.length rs st := by
  induction rs generalizing pre fuel st with
  | nil => cases fuel <;> simp [walkExts, walkRecords]
  | cons e rs ih =>
    obtain ⟨he, hr⟩ := List.forall_mem_cons.mp hr
    have hlen : 8 ≤ e.length := he.unit_le
    have hsize : e.length = 8 * (getLE e 0 16).toNat := he.2
    obtain ⟨fuel, rfl⟩ : ∃ k, fuel = k + 1 := ⟨fuel - 1, by rw [List.length_cons] at hf; omega⟩
    have htype : extType (pre ++ ((e ++ rs.flatten) ++ post)) pre.length = some (extFormat.type e) := by
      rw [List.append_assoc]
      exact getLE?_within pre (rs.flatten ++ post) 2 (by omega)
    have hextlen : extLen (pre ++ ((e ++ rs.flatten) ++ post)) pre.length = some (getLE e 0 16) := by
      rw [List.append_assoc]
      exact getLE?_within pre (rs.flatten ++ post) 0 (by omega)
    have hleft : (((e ++ rs.flatten).length : Nat) : Int) - 8 * ((getLE e 0 16).toNat : Int) =
        (rs.flatten.length : Nat) := by
      rw [List.length_append]; omega
    rw [List.flatten_cons, walkExts, if_pos (by rw [List.length_append]; omega), htype, hextlen, walkRecords]
    simp only [Option.bind_eq_bind, Option.bind_some]
    cases visit (extFormat.type e) pre.length st with
    | none => rfl
    | some st =>
      have hnext := @ih (pre ++ e) hr fuel (by simpa using hf) st
      rw [List.length_append, List.append_assoc, ← List.append_assoc e] at hnext
      rw [Option.bind_some, Option.bind_some, hleft, ← hsize]
      exact hnext

/-! ## Messages in memory -/

/-- A message is its header and its extensions. -/
theorem isMessage_eq {msg : Bytes} {rs : List Bytes} (hm : IsMessage msg rs) :
    ∃ header : Bytes, header.length = sadbMsg.size ∧ msg = header ++ rs.flatten := by
  have hheader := hm.header
  have hwhole := hm.whole
  refine ⟨msg.take 16, ?_, ?_⟩
  · rw [List.length_take, Nat.min_eq_left (by omega)]; rfl
  · have hexts : msgExts msg = msg.drop 16 := List.take_of_length_le (by rw [List.length_drop]; omega)
    rw [hm.exts.flatten, hexts, List.take_append_drop]

theorem length_le_of_records {rs : List Bytes} (hr : ∀ e ∈ rs, IsRecord extFormat e) :
    rs.length ≤ rs.flatten.length := by
  induction rs with
  | nil => exact le_rfl
  | cons e rs ih =>
    obtain ⟨he, hr⟩ := List.forall_mem_cons.mp hr
    have hlen : 8 ≤ e.length := he.unit_le
    have hrs := ih hr
    rw [List.length_cons, List.flatten_cons, List.length_append]
    omega

/-- A walk over a message at the start of memory is one over its extensions. -/
theorem walkExts_message {σ : Type} {visit : BitVec 16 → Nat → σ → Option σ} {msg : Bytes} {rs : List Bytes}
    (hm : IsMessage msg rs) (post : Bytes) (st : σ) :
    walkExts visit (msg ++ post) PFKEY_BUFFER_SIZE ((msg.length : Nat) - sadbMsg.size) sadbMsg.size st =
      walkRecords visit sadbMsg.size rs st := by
  have hr := hm.exts.records
  have hfits := hm.fits
  obtain ⟨header, hheader, rfl⟩ := isMessage_eq hm
  rw [List.length_append] at hfits
  have hfuel : rs.length ≤ PFKEY_BUFFER_SIZE := (length_le_of_records hr).trans (by omega)
  have hleft : (((header ++ rs.flatten).length : Nat) : Int) - sadbMsg.size = (rs.flatten.length : Nat) := by
    rw [List.length_append]; omega
  rw [hleft, ← hheader, List.append_assoc, walkExts_tiles hr hfuel]

/-- The buffer after a message is read starts with it. -/
theorem readInto_message {msg : Bytes} (hfits : msg.length ≤ PFKEY_BUFFER_SIZE) (buf : Buffer) :
    ∃ (buf' : Buffer) (post : Bytes), readInto buf (some msg) = (buf', ((msg.length : Nat) : Int)) ∧
      buf'.bytes = msg ++ post := by
  have htake : msg.take PFKEY_BUFFER_SIZE = msg := List.take_of_length_le hfits
  refine ⟨_, buf.bytes.drop msg.length, Prod.ext rfl ?_, ?_⟩
  · show (((msg.take PFKEY_BUFFER_SIZE).length : Nat) : Int) = _
    rw [htake]
  · simp only [readInto, htake]

/-! ## Printing -/

/-- What is printed of the extension at `p` is in memory. -/
structure PrintRoom (mem : Bytes) (type : BitVec 16) (p : Nat) : Prop where
  unit : p + 8 ≤ mem.length
  whole : p + 8 * (getLE mem p 16).toNat ≤ mem.length
  sa : type = SADB_EXT_SA → p + sadbSa.size ≤ mem.length
  lifetime : type = SADB_EXT_LIFETIME_CURRENT ∨ type = SADB_EXT_LIFETIME_HARD ∨ type = SADB_EXT_LIFETIME_SOFT →
    p + sadbLifetime.size ≤ mem.length

theorem readFields_eq {mem : Bytes} {p n : Nat} (h : p + n ≤ mem.length) : readFields mem p n = some () := if_pos h

/-- The loop over the algorithms ends. -/
theorem supportedLoop_isSome {mem : Bytes} {fuel alg : Nat} {len : Int} (hf : len ≤ fuel) (hm : alg + len ≤ mem.length)
    (h8 : (8 : Int) ∣ len) : (supportedLoop mem fuel len alg).isSome := by
  induction fuel generalizing len alg with
  | zero => rw [supportedLoop, if_neg (by omega)]; rfl
  | succ fuel ih =>
    rw [supportedLoop]
    split
    · rw [readFields_eq (by omega)]
      exact ih (by omega) (by omega) (by omega)
    · rfl

theorem supportedPrint_isSome {mem : Bytes} {p : Nat} (hunit : p + 8 ≤ mem.length)
    (h : p + 8 * (getLE mem p 16).toNat ≤ mem.length) : (supportedPrint mem p).isSome := by
  rw [supportedPrint, getLE?_eq_some (by omega)]
  simp only [Option.bind_eq_bind, Option.bind_some]
  split
  · rfl
  · exact supportedLoop_isSome (Int.self_le_toNat _) (by omega) (by omega)

theorem lifetimePrint_isSome_iff {zone : Int → Int} {mem : Bytes} {type : BitVec 16} {p : Nat}
    (h : p + sadbLifetime.size ≤ mem.length) :
    (lifetimePrint zone mem type p).isSome ↔
      (type = SADB_EXT_LIFETIME_CURRENT → HasLocalTimes zone (getLE mem (p + 16) 64) (getLE mem (p + 24) 64)) := by
  have hsize : sadbLifetime.size = 32 := rfl
  rw [lifetimePrint, readFields_eq h]
  by_cases htype : type = SADB_EXT_LIFETIME_CURRENT
  · simp only [htype, if_true, getLE?_eq_some (show p + 16 + 64 / 8 ≤ mem.length by omega),
      getLE?_eq_some (show p + 24 + 64 / 8 ≤ mem.length by omega), Option.bind_eq_bind, Option.bind_some, true_implies]
    cases hadded : localtime zone (getLE mem (p + 16) 64) with
    | none => exact iff_of_false (fun h => (by cases h)) fun h => by simpa [hadded] using h.added
    | some added =>
      rw [Option.bind_some]
      by_cases hnone : getLE mem (p + 24) 64 = 0
      · rw [if_pos hnone]
        exact iff_of_true rfl ⟨by rw [hadded]; rfl, fun h => absurd hnone h⟩
      · rw [if_neg hnone]
        cases hused : localtime zone (getLE mem (p + 24) 64) with
        | none => exact iff_of_false (fun h => (by cases h)) fun h => by simpa [hused] using h.used hnone
        | some used => exact iff_of_true rfl ⟨by rw [hadded]; rfl, fun _ => by rw [hused]; rfl⟩
  · simp [htype]

/-- `print_sadb_msg` stays only at a current lifetime of a time that has no local
one. -/
theorem printVisit_isSome_iff {zone : Int → Int} {mem : Bytes} {type : BitVec 16} {p : Nat}
    (h : PrintRoom mem type p) :
    (printVisit zone mem type p ()).isSome ↔
      (type = SADB_EXT_LIFETIME_CURRENT → HasLocalTimes zone (getLE mem (p + 16) 64) (getLE mem (p + 24) 64)) := by
  have hkey : sadbKey.size = 8 := rfl
  have hunit := h.unit
  rw [printVisit]
  by_cases hsa : type = SADB_EXT_SA
  · rw [if_pos hsa, readFields_eq (h.sa hsa)]
    exact iff_of_true rfl fun hcur => absurd (hsa.symm.trans hcur) (by decide)
  rw [if_neg hsa]
  by_cases hlife : type = SADB_EXT_LIFETIME_CURRENT ∨ type = SADB_EXT_LIFETIME_HARD ∨ type = SADB_EXT_LIFETIME_SOFT
  · rw [if_pos hlife]
    exact lifetimePrint_isSome_iff (h.lifetime hlife)
  rw [if_neg hlife]
  refine iff_of_true ?_ fun hcur => absurd (.inl hcur) hlife
  split
  · rw [readFields_eq hunit]; rfl
  split
  · rw [readFields_eq (by omega)]; rfl
  split
  · exact supportedPrint_isSome hunit h.whole
  · rfl

/-- The walk of `print_sadb_msg` over extensions that are as long as their types
have them. -/
theorem walkRecords_print {zone : Int → Int} {pre post : Bytes} {rs : List Bytes} (hr : ∀ e ∈ rs, IsRecord extFormat e)
    (hs : ∀ e ∈ rs, Sized e) :
    (walkRecords (printVisit zone (pre ++ (rs.flatten ++ post))) pre.length rs ()).isSome ↔ ∀ e ∈ rs, TimesPrint zone e := by
  induction rs generalizing pre with
  | nil => exact iff_of_true rfl (List.forall_mem_nil _)
  | cons e rs ih =>
    obtain ⟨he, hr⟩ := List.forall_mem_cons.mp hr
    obtain ⟨hse, hs⟩ := List.forall_mem_cons.mp hs
    have hlen : 8 ≤ e.length := he.unit_le
    have hsize : e.length = 8 * (getLE e 0 16).toNat := he.2
    have hext : getLE (pre ++ (e ++ (rs.flatten ++ post))) pre.length 16 = getLE e 0 16 :=
      getLE_within pre (rs.flatten ++ post) 0 (by omega)
    have hmem : (pre ++ (e ++ (rs.flatten ++ post))).length = pre.length + (e.length + (rs.flatten ++ post).length) := by
      rw [List.length_append, List.length_append]
    have hroom : PrintRoom (pre ++ (e ++ (rs.flatten ++ post))) (extFormat.type e) pre.length :=
      ⟨by omega, by rw [hext]; omega, fun h => by have := hse.sa h; omega, fun h => by have := hse.lifetime h; omega⟩
    have hvisit : (printVisit zone (pre ++ (e ++ (rs.flatten ++ post))) (extFormat.type e) pre.length ()).isSome ↔
        TimesPrint zone e := by
      rw [printVisit_isSome_iff hroom, TimesPrint]
      refine imp_congr_right fun hcur => ?_
      have h32 : 32 ≤ e.length := hse.lifetime (.inl hcur)
      rw [getLE_within pre _ 16 (by omega), getLE_within pre _ 24 (by omega)]
    rw [List.flatten_cons, List.append_assoc, walkRecords, List.forall_mem_cons, ← hvisit]
    cases printVisit zone (pre ++ (e ++ (rs.flatten ++ post))) (extFormat.type e) pre.length () with
    | none => exact iff_of_false (fun h => (by cases h)) fun h => by cases h.1
    | some u =>
      rw [Option.isSome_some, eq_self, true_and, Option.bind_eq_bind, Option.bind_some, ← List.append_assoc pre,
        ← List.length_append]
      exact ih hr hs

/-- Whether a message is printed is told by its extensions, whatever follows it
in the buffer. -/
theorem printSadbMsg_message {zone : Int → Int} {msg : Bytes} {rs : List Bytes} (hm : IsSized msg rs) (post : Bytes) :
    (printSadbMsg zone (msg ++ post) PFKEY_BUFFER_SIZE (msg.length : Nat)).isSome ↔ Prints zone msg rs := by
  obtain ⟨hm, hs⟩ := hm
  have hheader := hm.header
  have hwhole := hm.whole
  have hsize : sadbMsg.size = 16 := rfl
  have hget : sadbMsg.get (msg ++ post) = sadbMsg.get msg := sadbMsg_get_append _ (by omega)
  have hlen : ¬((msg.length : Nat) : Int) ≠ 8 * (sadbMsg.get msg).len.toNat := by
    rw [← msgUnits_eq]
    omega
  rw [printSadbMsg, hget, Prints]
  simp only [if_neg hlen]
  by_cases hversion : (sadbMsg.get msg).version = PF_KEY_V2
  · rw [if_neg (not_not_intro hversion), walkExts_message hm]
    simp only [hversion, true_implies]
    have hr := hm.exts.records
    obtain ⟨header, hsixteen, rfl⟩ := isMessage_eq hm
    have hwalk := @walkRecords_print zone header post rs hr hs
    rw [hsixteen, ← List.append_assoc] at hwalk
    rw [← hwalk]
    split
    · rename_i hshort
      rw [List.length_append, hsixteen] at hshort
      have hnone : rs = [] := List.length_eq_zero_iff.mp (by have := length_le_of_records hr; omega)
      rw [hnone]
      exact iff_of_true rfl rfl
    · exact Iff.rfl
  · rw [if_pos hversion]
    exact iff_of_true rfl fun h => absurd h hversion

end CfgIpsec.Proof
