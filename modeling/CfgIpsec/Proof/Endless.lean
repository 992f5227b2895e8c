import CfgIpsec.Proof.Visits
import CfgIpsec.Spec.Walks

/-!
# Which walks end

Each walk is a loop that moves on by lengths (`walkExts_eq_loop`,
`walkRequests_eq_loop`), and does nothing at an extension that would not end,
but for the walk over the requests of a policy and the printing of a current
lifetime. So a walk ends exactly when the lengths it comes to are none of them
zero (`walkEnds_iff`), and what it prints can be printed (`print_ends_iff`).
-/

namespace CfgIpsec.Proof

open Impl Spec Cursor

/-! ## The loops -/

/-- A walk over extensions, where their headers can be read. -/
theorem walkExts_eq_loop {σ : Type} {visit : BitVec 16 → Nat → σ → Option σ} {mem : Bytes} {stop : Nat}
    (hmem : stop + 4 ≤ mem.length) (fuel p : Nat) (st : σ) :
    walkExts visit mem fuel ((stop : Int) - p) p st =
      loop (extHop mem) (fun p => visit (getLE mem (p + 2) 16) p) stop fuel p st := by
  induction fuel generalizing p st with
  | zero =>
    rw [walkExts, loop]
    by_cases hp : p < stop
    · rw [if_pos hp, if_pos (by omega)]
    · rw [if_neg hp, if_neg (by omega)]
  | succ fuel ih =>
    rw [walkExts, loop]
    by_cases hp : p < stop
    · have htype : extType mem p = some (getLE mem (p + 2) 16) := getLE?_eq_some (by omega)
      have hlen : extLen mem p = some (getLE mem p 16) := getLE?_eq_some (by omega)
      rw [if_pos hp, if_pos (by omega), htype, hlen]
      cases hv : visit (getLE mem (p + 2) 16) p st with
      | none => simp [hv]
      | some st' =>
        have hleft : ((stop : Int) - p) - 8 * ((getLE mem p 16).toNat : Int) =
            (stop : Int) - ((p + extHop mem p : Nat) : Int) := by
          rw [extHop]; omega
        simp only [Option.bind_eq_bind, Option.bind_some, hv, hleft]
        exact ih (p + extHop mem p) st'
    · rw [if_neg hp, if_neg (by omega)]

theorem length_read (f : Frame) (d : Bytes) :
    received d ≤ PFKEY_BUFFER_SIZE ∧ PFKEY_BUFFER_SIZE + 2 ^ 20 ≤ (f.read d).length := by
  have hroom := f.room
  constructor
  · rw [received]
    exact List.length_take_le ..
  · rw [Frame.read, List.length_append, (readInto f.buf (some d)).1.size]
    exact Nat.add_le_add_left hroom _

/-- A datagram that fits the buffer stands at its start. -/
theorem read_eq (f : Frame) {d : Bytes} (hd : d.length ≤ PFKEY_BUFFER_SIZE) :
    f.read d = d ++ (f.buf.bytes.drop d.length ++ f.behind) ∧ received d = d.length := by
  have htake : d.take PFKEY_BUFFER_SIZE = d := List.take_of_length_le hd
  simp [Frame.read, received, readInto, htake]

/-- A walk whose visits end exactly where it is `ok` ends exactly when it comes
only to places that are `ok` and tell a length. -/
theorem walkEnds_iff_of {σ : Type} {f : Frame} {d : Bytes} {visit : BitVec 16 → Nat → σ → Option σ} {ok : Nat → Prop}
    (hvisit : ∀ p < received d, ∀ st, (visit (getLE (f.read d) (p + 2) 16) p st).isSome ↔ ok p) (st : σ) :
    WalkEnds visit (f.read d) (received d) st ↔
      ∀ p, Cursor.Reached (extHop (f.read d)) (received d) sadbMsg.size p → p < received d →
        ok p ∧ extHop (f.read d) p ≠ 0 := by
  obtain ⟨hn, hmem⟩ := length_read f d
  have hwalk : ∀ fuel, walk visit (f.read d) (received d) fuel st = loop (extHop (f.read d))
      (fun p => visit (getLE (f.read d) (p + 2) 16) p) (received d) fuel sadbMsg.size st :=
    fun fuel => walkExts_eq_loop (by omega) fuel _ st
  simp only [WalkEnds, hwalk]
  rw [exists_loop_iff hvisit, ends_iff]

theorem printVisit_isSome_iff_of_room {zone : Int → Int} {mem : Bytes} {p : Nat} (h : p + 2 ^ 20 ≤ mem.length)
    (type : BitVec 16) (u : Unit) :
    (printVisit zone mem type p u).isSome ↔
      (type = SADB_EXT_LIFETIME_CURRENT → HasLocalTimes zone (getLE mem (p + 16) 64) (getLE mem (p + 24) 64)) := by
  have hlt := (getLE mem p 16).isLt
  have hsa : sadbSa.size = 16 := rfl
  have hlife : sadbLifetime.size = 32 := rfl
  exact printVisit_isSome_iff ⟨by omega, by omega, fun _ => by omega, fun _ => by omega⟩

theorem acquireVisit_isSome {mem : Bytes} {p : Nat} (h : p + 12 ≤ mem.length) (type : BitVec 16) (i : BitVec 32) :
    (acquireVisit mem type p i).isSome := by
  rw [acquireVisit, getLE?_eq_some (by omega)]
  split <;> rfl

theorem expiryVisit_isSome {mem : Bytes} {p : Nat} (h : p + 8 ≤ mem.length) (type : BitVec 16) (x : Expiry) :
    (expiryVisit mem type p x).isSome := by
  rw [expiryVisit, getBE?_eq_some (by omega)]
  repeat' split
  all_goals rfl

/-- Where `sock_ntop` has a result, the walk of `pf_addpolicy` is the one with
these results. -/
theorem dumpVisitWith_eq {mem : Bytes} {type : BitVec 16} {ext : Nat} {t t' : Dump}
    (h : dumpVisit mem type ext t = some t') :
    dumpVisitWith (fun p => (sockNtop mem p).getD default) mem type ext t = some t' := by
  rw [dumpVisitWith]
  split
  · rename_i hsrc
    rw [dumpVisit, if_neg (by rw [hsrc]; decide), if_pos hsrc] at h
    obtain ⟨s, hs, h⟩ := Option.bind_eq_some_iff.mp h
    rw [hs, Option.getD_some]
    exact h
  split
  · rename_i hsrc hdst
    rw [dumpVisit, if_neg (by rw [hdst]; decide), if_neg hsrc, if_pos hdst] at h
    obtain ⟨s, hs, h⟩ := Option.bind_eq_some_iff.mp h
    rw [hs, Option.getD_some]
    exact h
  · exact h

/-! ## The walks of the program -/

/-- A message that fails the checks of `print_sadb_msg` is not walked over. -/
theorem print_ends_iff (zone : Int → Int) (f : Frame) (d : Bytes) :
    (∃ fuel, (printSadbMsg zone (f.read d) fuel (received d)).isSome) ↔
      (PassesChecks (f.read d) (received d) →
        NoEmptyExt (f.read d) (received d) ∧ LifetimesPrint zone (f.read d) (received d)) := by
  obtain ⟨hn, hmem⟩ := length_read f d
  have hwalk : WalkEnds (printVisit zone (f.read d)) (f.read d) (received d) () ↔
      NoEmptyExt (f.read d) (received d) ∧ LifetimesPrint zone (f.read d) (received d) := by
    rw [walkEnds_iff_of fun p hp u => printVisit_isSome_iff_of_room (by omega) _ u]
    exact ⟨fun h => ⟨fun p hp hlt => (h p hp hlt).2, fun p hp hlt => (h p hp hlt).1⟩,
      fun ⟨hext, hlife⟩ p hp hlt => ⟨hlife p hp hlt, hext p hp hlt⟩⟩
  unfold printSadbMsg
  by_cases hlen : received d = 8 * (sadbMsg.get (f.read d)).len.toNat
  · by_cases hversion : (sadbMsg.get (f.read d)).version = PF_KEY_V2
    · have hpasses : PassesChecks (f.read d) (received d) := ⟨hlen, hversion⟩
      have hint : (received d : Int) = 8 * (sadbMsg.get (f.read d)).len.toNat := by omega
      simp only [hint.symm, hversion, ne_eq, not_true_eq_false, if_false, hpasses, true_implies]
      by_cases hsize : received d = sadbMsg.size
      · -- there is no extension to walk over
        have hnone : ∀ p, Cursor.Reached (extHop (f.read d)) (received d) sadbMsg.size p → ¬p < received d := by
          intro p hp hlt
          cases hp <;> omega
        exact iff_of_true ⟨0, by rw [if_pos (by omega)]; rfl⟩
          ⟨fun p hp hlt => absurd hlt (hnone p hp), fun p hp hlt => absurd hlt (hnone p hp)⟩
      · have hne : ¬(received d : Int) = sadbMsg.size := by omega
        simp only [hne, if_false]
        exact hwalk
    · exact iff_of_true ⟨0, by simp [hversion]⟩ fun h => absurd h.version hversion
  · have hne : ¬(received d : Int) = 8 * (sadbMsg.get (f.read d)).len.toNat := by omega
    exact iff_of_true ⟨0, by simp [hne]⟩ fun h => absurd h.len hlen

/-- A current lifetime of an SA that was added at the end of time. -/
def lateExpire : Bytes :=
  message { version := PF_KEY_V2, type := SADB_EXPIRE, satype := SADB_SATYPE_ESP }
    (sadbLifetime.put ⟨4, SADB_EXT_LIFETIME_CURRENT, 0, 0, 0x7fffffffffffffff, 0⟩)

/-- `print_sadb_msg` does not get over that lifetime, which has a length. -/
theorem print_late (f : Frame) :
    ¬∃ fuel, (printSadbMsg (fun _ => 0) (f.read lateExpire) fuel (received lateExpire)).isSome := by
  have hlen : lateExpire.length = 48 := by decide +kernel
  obtain ⟨hread, hreceived⟩ := read_eq f (hlen.trans_le (by decide))
  have hget : sadbMsg.get (f.read lateExpire) = sadbMsg.get lateExpire := by
    rw [hread, lateExpire, sadbMsg_get_message]
    exact sadbMsg.get_put _ _
  have hpasses : PassesChecks (f.read lateExpire) (received lateExpire) := by
    refine ⟨?_, ?_⟩
    · rw [hget, hreceived, hlen]
      decide +kernel
    · rw [hget]
      decide +kernel
  rw [print_ends_iff]
  intro h
  have htimes := (h hpasses).2 16 (.here 16) (by omega)
  rw [hread, getLE_append_left _ (by omega), getLE_append_left _ (by omega), getLE_append_left _ (by omega)] at htimes
  exact absurd (htimes (by decide +kernel)) (by decide +kernel)

end CfgIpsec.Proof
