import CfgIpsec.Proof.Message
import CfgIpsec.Spec.Answers

/-!
# The answer that `pfkey_send_socket` gives

The loop that waits for the reply passes over what does not concern the process
(`recvLoop_eq`), and so ends at a message of another type, which it only reports
to ignore (`own_answer_iff`).
-/

namespace CfgIpsec.Proof

open Impl Spec

/-- The header of a datagram in the buffer it was read into. -/
theorem header_readInto (buf : Buffer) {d : Bytes} (h : sadbMsg.size ≤ (receivedBytes d).length) :
    sadbMsg.get (readInto buf (some d)).1.bytes = sadbMsg.get (receivedBytes d) := by
  have hsize : sadbMsg.size = 16 := rfl
  have hbytes : (readInto buf (some d)).1.bytes = receivedBytes d ++ buf.bytes.drop (receivedBytes d).length := rfl
  rw [hbytes, sadbMsg_get, sadbMsg_get]
  repeat rw [getLE_append_left _ (by omega)]

theorem take_readInto (buf : Buffer) (d : Bytes) :
    (readInto buf (some d)).1.bytes.take (receivedBytes d).length = receivedBytes d := List.take_left

/-- A turn of the loop at a datagram. -/
theorem recvLoop_datagram (req : SadbMsg) (d : Bytes) (rs : List Recv) (buf : Buffer) :
    recvLoop req (.datagram d :: rs) buf =
      if Foreign req (.datagram d) then recvLoop req rs (readInto buf (some d)).1
      else some (outcome (.datagram d)) := by
  have hread : (readInto buf (some d)).2 = ((receivedBytes d).length : Nat) := rfl
  have hsize : sadbMsg.size = 16 := rfl
  rw [recvLoop]
  simp only [hread, outcome]
  by_cases hhead : sadbMsg.size ≤ (receivedBytes d).length
  · rw [header_readInto buf hhead]
    by_cases hwhole : WholeMessage (receivedBytes d)
    · have hshort : ¬(((receivedBytes d).length : Nat) < (sadbMsg.size : Int) ∨
          (sadbMsg.get (receivedBytes d)).len.toNat < sadbMsg.size / 8) := by
        have := hwhole.1
        have := hwhole.2.1
        omega
      have hlong : ¬((sadbMsg.get (receivedBytes d)).len.toNat : Int) > ((receivedBytes d).length : Nat) / 8 := by
        have := hwhole.2.2
        omega
      rw [if_neg hshort, if_neg hlong]
      by_cases hpid : (sadbMsg.get (receivedBytes d)).pid = req.pid
      · have hown : ¬Foreign req (.datagram d) := fun h => h.2 hpid
        rw [if_neg (not_not.mpr hpid), if_neg hown, if_pos hwhole, Int.toNat_natCast, take_readInto]
      · have hforeign : Foreign req (.datagram d) := ⟨hwhole, hpid⟩
        rw [if_pos hpid, if_pos hforeign]
    · have hown : ¬Foreign req (.datagram d) := fun h => hwhole h.1
      rw [if_neg hown, if_neg hwhole]
      split
      · rfl
      · rename_i hshort
        split
        · rfl
        · rename_i hlong
          exact absurd ⟨hhead, by omega, by omega⟩ hwhole
  · have hwhole : ¬WholeMessage (receivedBytes d) := fun h => hhead h.1
    have hown : ¬Foreign req (.datagram d) := fun h => hwhole h.1
    rw [if_neg hown, if_neg hwhole, if_pos (.inl (by omega))]

/-- The loop ends at the first that concerns the process. -/
theorem recvLoop_eq (req : SadbMsg) (rs : List Recv) (buf : Buffer) :
    recvLoop req rs buf = (rs.find? fun r => ¬Foreign req r).map outcome := by
  induction rs generalizing buf with
  | nil => rfl
  | cons r rs ih =>
    cases r with
    | interrupted => rw [recvLoop, ih, List.find?_cons_of_neg (by simp [Foreign])]
    | failed => rw [recvLoop, List.find?_cons_of_pos (by simp [Foreign])]; rfl
    | datagram d =>
      rw [recvLoop_datagram]
      split
      · rename_i hf
        rw [ih, List.find?_cons_of_neg (by simpa using hf)]
      · rename_i hf
        rw [List.find?_cons_of_pos (by simpa using hf), Option.map_some]

theorem ignored_of_foreign {req : SadbMsg} {r : Recv} (h : Foreign req r) : Ignored req r := by
  cases r with
  | interrupted => trivial
  | failed => exact h
  | datagram d => exact ⟨h.1, .inl h.2⟩

/-- A result of 0 is of a whole message. -/
theorem outcome_zero {r : Recv} {msg : Bytes} (h : outcome r = (0, some msg)) :
    ∃ d, r = .datagram d ∧ WholeMessage (receivedBytes d) ∧ receivedBytes d = msg := by
  cases r with
  | interrupted | failed => cases h
  | datagram d =>
    rw [outcome] at h
    split at h
    · rename_i hwhole
      cases h
      exact ⟨d, rfl, hwhole, rfl⟩
    · cases h

/-- What the loop ends at is the answer exactly when it is not a message of
another type. -/
theorem outcome_eq_answer_iff (req : SadbMsg) (rs : List Recv) :
    (rs.find? fun r => ¬Foreign req r).map outcome = answer req rs ↔ OwnTypeFirst req rs := by
  constructor
  · intro heq d hd hwhole
    rw [hd, Option.map_some, outcome, if_pos hwhole] at heq
    obtain ⟨r, hr, hout⟩ := Option.map_eq_some_iff.mp heq.symm
    obtain ⟨d', rfl, hwhole', hsame⟩ := outcome_zero hout
    have hfound := List.find?_some hr
    have hown : ¬Ignored req (.datagram d') := of_decide_eq_true hfound
    rw [← hsame]
    by_contra htype
    exact hown ⟨hwhole', .inr htype⟩
  · intro hfirst
    cases hd : rs.find? fun r => ¬Foreign req r with
    | none =>
      have hnone : rs.find? (fun r => ¬Ignored req r) = none := by
        rw [List.find?_eq_none] at hd ⊢
        intro r hr
        have hf := hd r hr
        simp only [decide_eq_true_eq, not_not] at hf ⊢
        exact ignored_of_foreign hf
      rw [answer, hnone]
    | some r =>
      have hr := List.find?_eq_some_iff_append.mp hd
      obtain ⟨hforeign, pre, post, hrs, hpre⟩ := hr
      have hown : ¬Ignored req r := by
        simp only [decide_eq_true_eq] at hforeign
        cases r with
        | interrupted => exact absurd trivial hforeign
        | failed => exact hforeign
        | datagram d =>
          rintro ⟨hwhole, hpid | htype⟩
          · exact hforeign ⟨hwhole, hpid⟩
          · exact htype (hfirst d hd hwhole)
      have hfind : rs.find? (fun r => ¬Ignored req r) = some r := by
        refine List.find?_eq_some_iff_append.mpr ⟨by simpa using hown, pre, post, hrs, fun x hx => ?_⟩
        have hf := hpre x hx
        simp only [Bool.not_eq_true', decide_eq_false_iff_not, not_not] at hf ⊢
        exact ignored_of_foreign hf
      rw [answer, hfind]

/-- A request that was sent has the answer to itself exactly when the first
message that concerns its process, if it is whole, is of its type. -/
theorem own_answer_iff {e : SocketEnv} (req : SadbMsg) (hdrain : (drainLoop e.waiting e.stack).isSome)
    (hsend : sendLoop e.sends = some true) :
    AnswersOwn e req ↔ OwnTypeFirst { req with pid := e.pid } e.replies := by
  obtain ⟨buf, hbuf⟩ := Option.isSome_iff_exists.mp hdrain
  have hrun : pfkeySendSocket e req = recvLoop { req with pid := e.pid } e.replies buf := by
    rw [pfkeySendSocket, hbuf, hsend]
    rfl
  rw [AnswersOwn, hrun, recvLoop_eq]
  exact outcome_eq_answer_iff _ _

/-- A broadcast of an expiry, with the process of the request. -/
def expiryReply : Bytes := message { version := PF_KEY_V2, type := SADB_EXPIRE, satype := 3, pid := 7 } []

/-- The awaited reply. -/
def getReply : Bytes := message { version := PF_KEY_V2, type := SADB_GET, satype := 3, pid := 7 } []

/-- A broadcast to another process, and the reply. -/
def orderlyEnv : SocketEnv :=
  ⟨7, .zeros, [.failed], [.sent],
    [.interrupted, .datagram (message { version := PF_KEY_V2, type := SADB_EXPIRE, satype := 3, pid := 8 } []),
      .datagram getReply]⟩

/-- A broadcast of another type before the reply. -/
def broadcastEnv : SocketEnv := ⟨7, .zeros, [.failed], [.sent], [.datagram expiryReply, .datagram getReply]⟩

theorem own_answer_orderly :
    AnswersOwn orderlyEnv { version := PF_KEY_V2, type := SADB_GET, satype := 3 } ∧
      pfkeySendSocket orderlyEnv { version := PF_KEY_V2, type := SADB_GET, satype := 3 } = some (0, some getReply) := by
  refine ⟨(own_answer_iff _ (by decide +kernel) rfl).mpr fun d hd _ => ?_, by decide +kernel⟩
  have hfirst : orderlyEnv.replies.find? (fun r => ¬Foreign { version := PF_KEY_V2, type := SADB_GET, satype := 3, pid := 7 } r) =
      some (.datagram getReply) := by decide +kernel
  obtain rfl : getReply = d := by
    have h := hfirst.symm.trans hd
    cases h
    rfl
  decide +kernel

theorem own_answer_broadcast :
    pfkeySendSocket broadcastEnv { version := PF_KEY_V2, type := SADB_GET, satype := 3 } = some (0, some expiryReply) ∧
      ¬AnswersOwn broadcastEnv { version := PF_KEY_V2, type := SADB_GET, satype := 3 } := by
  have hrun : pfkeySendSocket broadcastEnv { version := PF_KEY_V2, type := SADB_GET, satype := 3 } =
      some (0, some expiryReply) := by decide +kernel
  refine ⟨hrun, fun h => ?_⟩
  have hanswer : answer { version := PF_KEY_V2, type := SADB_GET, satype := 3, pid := 7 } broadcastEnv.replies =
      some (0, some getReply) := by decide +kernel
  have hsame := hrun.symm.trans (h.trans hanswer)
  exact absurd hsame (by decide +kernel)

end CfgIpsec.Proof
