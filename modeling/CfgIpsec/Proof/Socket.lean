import CfgIpsec.Impl.Pfkey
import CfgIpsec.Impl.Socket
import CfgIpsec.Proof.Message
import CfgIpsec.Spec.Decode

/-!
# Replies are parsed within their bounds

A reply is handed out when it has all the units its header tells
(`recvLoop_whole`), so the parser does not leave it. What it notes, whether it
accepts the message or not, are whole extensions apart from each other: the
loop keeps `Recorded` up to where it stands (`parseLoop_recorded`).
-/

namespace CfgIpsec.Proof

open Impl Spec

/-! ## The parser -/

theorem recorded_mono {buf : Bytes} {n n' : Nat} {out : PfkeyMsg} (h : Recorded buf n out) (hn : n ≤ n') :
    Recorded buf n' out :=
  ⟨fun t p hp => ⟨(h.within t p hp).1, (h.within t p hp).2.1, (h.within t p hp).2.2.trans hn⟩, h.apart⟩

theorem recorded_nil (buf : Bytes) (n : Nat) : Recorded buf n fun _ => none :=
  ⟨nofun, nofun⟩

/-- One more extension, after those noted. -/
theorem recorded_update {buf : Bytes} {p : Nat} {out : PfkeyMsg} (h : Recorded buf p out) (hp : sadbMsg.size ≤ p)
    (hstop : p < extStop buf p) (t : BitVec 16) :
    Recorded buf (extStop buf p) (Function.update out t (some p)) := by
  have hnoted : ∀ {s q}, Function.update out t (some p) s = some q → s = t ∧ q = p ∨ s ≠ t ∧ out s = some q := by
    intro s q hq
    by_cases hs : s = t
    · subst hs
      rw [Function.update_self] at hq
      exact .inl ⟨rfl, (Option.some.inj hq).symm⟩
    · rw [Function.update_of_ne hs] at hq
      exact .inr ⟨hs, hq⟩
  constructor
  · intro s q hq
    rcases hnoted hq with ⟨-, rfl⟩ | ⟨-, hq⟩
    · exact ⟨hp, hstop, le_rfl⟩
    · obtain ⟨h1, h2, h3⟩ := h.within s q hq
      exact ⟨h1, h2, h3.trans hstop.le⟩
  · intro s s' q q' hne hup hup'
    rcases hnoted hup with ⟨hs, hpos⟩ | ⟨-, hq⟩ <;> rcases hnoted hup' with ⟨hs', hpos'⟩ | ⟨-, hq'⟩
    · exact absurd (hs.trans hs'.symm) hne
    · exact .inr (hpos ▸ (h.within s' q' hq').2.2)
    · exact .inl (hpos' ▸ (h.within s q hq).2.2)
    · exact h.apart s s' q q' hne hq hq'

/-- From a point of the message on, with whole extensions noted before it, the
parser's loop notes whole extensions of the message. -/
theorem parseLoop_recorded {buf : Bytes} {fuel len p k : Nat} {out out' : PfkeyMsg}
    (h : p + 8 * len ≤ buf.length) (hp : sadbMsg.size ≤ p) (hout : Recorded buf p out)
    (hr : parseLoop buf fuel len p out = some (k, out')) : Recorded buf buf.length out' := by
  induction fuel generalizing len p out with
  | zero => cases hr
  | succ fuel ih =>
    have hstay : Recorded buf buf.length out := recorded_mono hout (by omega)
    rw [parseLoop] at hr
    split at hr
    · rename_i hlen
      obtain ⟨extlen, hext, hr⟩ := Option.bind_eq_some_iff.mp hr
      have hsize : extlen = getLE buf p 16 := by
        rw [extLen, getLE?_eq_some (by omega)] at hext
        exact (Option.some.inj hext).symm
      split at hr
      · cases hr; exact hstay
      · rename_i hbounds
        obtain ⟨type, -, hr⟩ := Option.bind_eq_some_iff.mp hr
        split at hr
        · cases hr; exact hstay
        · split at hr
          · cases hr; exact hstay
          · -- the extension is noted, and the loop goes on at its end
            have hstop : extStop buf p = p + 8 * extlen.toNat := by rw [extStop, hsize]
            have hup := recorded_update hout hp (by omega) type
            rw [hstop] at hup
            exact ih (by omega) (by omega) hup hr
    · cases hr; exact hstay

/-- In a message that has the units its header tells, the parser reads no header
past the end, and notes whole extensions only. -/
theorem parsePfkeyMessage_recorded {msg : Bytes} (h2 : 2 ≤ msgUnits msg) (hlen : 8 * msgUnits msg ≤ msg.length) :
    ∃ r out, parsePfkeyMessage msg = some (r, out) ∧ Recorded msg msg.length out := by
  obtain ⟨r, out, hparse, -, -⟩ := parsePfkeyMessage_spec h2 hlen
  refine ⟨r, out, hparse, ?_⟩
  obtain ⟨units, hunits, hparse⟩ := Option.bind_eq_some_iff.mp hparse
  obtain ⟨⟨k, out'⟩, hloop, hr⟩ := Option.bind_eq_some_iff.mp hparse
  cases hr
  rw [getLE?_eq_some (by omega)] at hunits
  have hu : units.toNat = msgUnits msg := by rw [← Option.some.inj hunits, msgUnits]
  have hsize : sadbMsg.size = 16 := rfl
  have hleft : (units.setWidth 64 - BitVec.ofNat 64 (sadbMsg.size / 8)).toNat = msgUnits msg - 2 := by
    have hlt := units.isLt
    rw [hsize, BitVec.toNat_sub, BitVec.toNat_setWidth, BitVec.toNat_ofNat]
    omega
  refine parseLoop_recorded ?_ le_rfl (recorded_nil _ _) hloop
  rw [hleft, hsize]
  omega

/-! ## The socket -/

/-- The loop that waits for the reply hands out a message which has the units
its header tells. -/
theorem recvLoop_whole {req : SadbMsg} {rs : List Recv} {buf : Buffer} {out : Option Bytes}
    (h : recvLoop req rs buf = some (0, out)) :
    ∃ msg, out = some msg ∧ 2 ≤ msgUnits msg ∧ 8 * msgUnits msg ≤ msg.length := by
  induction rs generalizing buf with
  | nil => cases h
  | cons r rs ih =>
    rcases r with d | _ | _
    · have hread : (readInto buf (some d)).2 = ((d.take PFKEY_BUFFER_SIZE).length : Nat) := rfl
      have hbuf := (readInto buf (some d)).1.size
      have hfits : (d.take PFKEY_BUFFER_SIZE).length ≤ PFKEY_BUFFER_SIZE := List.length_take_le ..
      have hsize : sadbMsg.size = 16 := rfl
      rw [recvLoop] at h
      simp only [hread] at h
      split at h
      · cases h
      rename_i hshort
      split at h
      · cases h
      rename_i hwhole
      split at h
      · exact ih h
      cases h
      have hunits : msgUnits ((readInto buf (some d)).1.bytes.take (d.take PFKEY_BUFFER_SIZE).length) =
          (sadbMsg.get (readInto buf (some d)).1.bytes).len.toNat := by
        rw [← msgUnits_eq, msgUnits, msgUnits, getLE_take (by omega)]
      refine ⟨_, rfl, ?_⟩
      rw [Int.toNat_natCast, hunits, List.length_take, hbuf]
      omega
    · exact ih h
    · cases h

theorem pfkeySendSocket_whole {e : SocketEnv} {req : SadbMsg} {out : Option Bytes}
    (h : pfkeySendSocket e req = some (0, out)) :
    ∃ msg, out = some msg ∧ 2 ≤ msgUnits msg ∧ 8 * msgUnits msg ≤ msg.length := by
  obtain ⟨buf, -, h⟩ := Option.bind_eq_some_iff.mp h
  obtain ⟨sent, -, h⟩ := Option.bind_eq_some_iff.mp h
  cases sent
  · cases h
  · exact recvLoop_whole h

/-- Of a reply that was accepted the parser reads no header outside the bytes
handed out, and what it notes, also when it rejects the message, are extensions
within these bytes and apart from each other. -/
theorem reply_recorded {e : SocketEnv} {req : SadbMsg} {out : Option Bytes}
    (h : pfkeySendSocket e req = some (0, out)) :
    ∃ msg, out = some msg ∧ ∃ r exts, parsePfkeyMessage msg = some (r, exts) ∧ Recorded msg msg.length exts := by
  obtain ⟨msg, rfl, h2, hlen⟩ := pfkeySendSocket_whole h
  exact ⟨msg, rfl, parsePfkeyMessage_recorded h2 hlen⟩

/-- A reply of three units, with an extension of no length. -/
def emptyExtReply : Bytes :=
  message { version := PF_KEY_V2, type := SADB_GET, satype := 3, pid := 7 } [0, 0, 1, 0, 0, 0, 0, 0]

/-- A call that is interrupted once, and meets that reply. -/
def emptyExtEnv : SocketEnv := ⟨7, .zeros, [.failed], [.interrupted, .sent], [.interrupted, .datagram emptyExtReply]⟩

theorem reply_recorded_empty_ext :
    ∃ msg, pfkeySendSocket emptyExtEnv { version := PF_KEY_V2, type := SADB_GET, satype := 3 } = some (0, some msg) ∧
      ∃ exts, parsePfkeyMessage msg = some (1, exts) ∧ Recorded msg msg.length exts := by
  have hsend : (pfkeySendSocket emptyExtEnv { version := PF_KEY_V2, type := SADB_GET, satype := 3 }).any (fun r =>
      r.1 = 0 ∧ r.2.any fun msg => (parsePfkeyMessage msg).any (·.1 = 1)) = true := by decide +kernel
  obtain ⟨⟨rc, out⟩, hrun, h⟩ := (Option.any_eq_true _ _).mp hsend
  obtain ⟨rfl, hout⟩ := of_decide_eq_true h
  obtain ⟨msg, rfl, r, exts, hparse, hrec⟩ := reply_recorded hrun
  rw [Option.any_some, hparse, Option.any_some, decide_eq_true_eq] at hout
  obtain rfl : r = 1 := hout
  exact ⟨msg, hrun, exts, hparse, hrec⟩

end CfgIpsec.Proof
