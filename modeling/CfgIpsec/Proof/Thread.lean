import CfgIpsec.Proof.Walks
import CfgIpsec.Spec.Thread

/-!
# The thread is what it hears

Of its buffer a thread keeps the type of the last message only: a turn handles
what it hears (`step_failed`, `step_reads`), and leaves a buffer that starts as
an expiry or not. So a run is the handling of what is heard in it
(`thread_hears`).
-/

namespace CfgIpsec.Proof

open Impl Spec Tlv
open CStr (lit)

/-! ## Turns -/

/-- A walk over no bytes. -/
theorem walkExts_nothing {σ : Type} {visit : BitVec 16 → Nat → σ → Option σ} {buf : Bytes} {fuel : Nat} {msglen : Int}
    (h : msglen ≤ 0) (ext : Nat) (st : σ) : walkExts visit buf fuel msglen ext st = some st := by
  cases fuel with
  | zero => rw [walkExts, if_neg (by omega)]
  | succ fuel => rw [walkExts, if_neg (by omega)]

/-- A turn in which reading fails looks at the message before it. -/
theorem step_failed {t : Turn} (ht : t.datagram = none) (s : Thread) :
    s.step t = if isExpiry s.buf then (handleExpiry t s.rc {}).map fun r => (⟨r.1, s.buf⟩, r.2)
      else some (s, []) := by
  have hleft : (-1 : Int) - sadbMsg.size ≤ 0 := by decide
  have hprint : printSadbMsg t.zone s.buf.bytes PFKEY_BUFFER_SIZE (-1) = some () := by
    rw [printSadbMsg]
    exact if_pos (by omega)
  rw [Thread.step, ht]
  simp only [readInto, hprint, walkExts_nothing hleft, Option.bind_eq_bind, Option.bind_some, isExpiry,
    decide_eq_true_eq]
  by_cases hexp : msgType s.buf.bytes = SADB_EXPIRE
  · rw [if_neg (by rw [hexp]; decide), if_pos hexp, if_pos hexp]
    cases handleExpiry t s.rc {} <;> rfl
  · rw [if_neg hexp, if_neg hexp, ite_self]
    rfl

/-- The walk over the policies of an acquire ends when they are whole. -/
theorem walkRecords_acquire_isSome {msg post : Bytes} {rs : List Bytes} (hm : IsMessage msg rs)
    (hp : ∀ e ∈ rs, extFormat.type e = SADB_X_EXT_POLICY → sadbPolicy.size ≤ e.length) (i : BitVec 32) :
    ∃ i', walkRecords (acquireVisit (msg ++ post)) sadbMsg.size rs i = some i' := by
  refine walkRecords_isSome (fun pre e post' h st => ?_) i
  have he : e ∈ rs := h ▸ List.mem_append_right _ List.mem_cons_self
  obtain ⟨before, behind, hmsg, hbefore⟩ := ext_at hm h
  have hmem : (msg ++ post).length = before.length + (e.length + behind.length) + post.length := by
    rw [hmsg, List.length_append, List.length_append, List.length_append]
  rw [acquireVisit]
  split
  · rename_i hpolicy
    have hsize : 16 ≤ e.length := hp e he hpolicy
    rw [getLE?_eq_some (by omega)]
    rfl
  · rfl

/-- The buffer after a message is read starts as the message does. -/
theorem msgType_received {msg : Bytes} {rs : List Bytes} (hm : IsMessage msg rs) (post : Bytes) :
    msgType (msg ++ post) = msgType msg := by
  have hheader := hm.header
  have hwhole := hm.whole
  exact getLE_append_left post (by omega)

/-- A message that can be printed is. -/
theorem printSadbMsg_prints {zone : Int → Int} {msg : Bytes} {rs : List Bytes} (hm : IsSized msg rs)
    (hp : Prints zone msg rs) (post : Bytes) :
    printSadbMsg zone (msg ++ post) PFKEY_BUFFER_SIZE (msg.length : Nat) = some () := by
  obtain ⟨u, hu⟩ := Option.isSome_iff_exists.mp ((printSadbMsg_message hm post).mpr hp)
  exact hu

/-- A turn that reads an expiry. -/
theorem step_expiry {t : Turn} {msg : Bytes} {rs : List Bytes} (ht : t.datagram = some msg) (hm : IsSized msg rs)
    (hexp : msgType msg = SADB_EXPIRE) (hp : Prints t.zone msg rs) (s : Thread) :
    ∃ buf, isExpiry buf = true ∧
      s.step t = (handleExpiry t s.rc (expiryOf rs)).map fun r => (⟨r.1, buf⟩, r.2) := by
  obtain ⟨buf, post, hread, hbuf⟩ := readInto_message hm.message.fits s.buf
  have hty : msgType buf.bytes = SADB_EXPIRE := by rw [hbuf, msgType_received hm.message, hexp]
  refine ⟨buf, decide_eq_true hty, ?_⟩
  rw [Thread.step, ht, hread]
  simp only [hty]
  rw [if_neg (by decide), if_pos trivial, hbuf, printSadbMsg_prints hm hp, walkExts_expiry hm.message,
    Option.bind_eq_bind, Option.bind_some, Option.bind_eq_bind, Option.bind_some]
  cases handleExpiry t s.rc (expiryOf rs) <;> rfl

/-- A turn that reads another message. -/
theorem step_other {t : Turn} {msg : Bytes} {rs : List Bytes} (ht : t.datagram = some msg) (hm : IsMessage msg rs)
    (hexp : msgType msg ≠ SADB_EXPIRE) (hp : msgType msg = SADB_ACQUIRE → IsAcquire t.zone msg rs) (s : Thread) :
    ∃ buf, isExpiry buf = false ∧ s.step t = some (⟨s.rc, buf⟩, []) := by
  obtain ⟨buf, post, hread, hbuf⟩ := readInto_message hm.fits s.buf
  have hty : msgType buf.bytes = msgType msg := by rw [hbuf, msgType_received hm]
  refine ⟨buf, decide_eq_false (hty ▸ hexp), ?_⟩
  rw [Thread.step, ht, hread]
  simp only [hty]
  by_cases hacq : msgType msg = SADB_ACQUIRE
  · obtain ⟨hsized, hprints, hpolicies⟩ := hp hacq
    obtain ⟨i, hi⟩ := @walkRecords_acquire_isSome msg post rs hm hpolicies 0
    rw [if_pos hacq, hbuf, printSadbMsg_prints hsized hprints, walkExts_message hm, hi]
    rfl
  · rw [if_neg hacq, if_neg hexp]
    rfl

/-! ## Runs -/

/-- The result of the last notification, and what was called for. -/
def outcome (r : Option (Thread × List (List Action))) : Option (Rc × List (List Action)) :=
  r.map fun r => (r.1.rc, r.2)

theorem outcome_cons (t : Turn) (ts : List Turn) (s : Thread) :
    outcome (Thread.run (t :: ts) s) =
      (s.step t).bind fun r => (outcome (Thread.run ts r.1)).map fun q => (q.1, r.2 :: q.2) := by
  rw [Thread.run]
  cases s.step t with
  | none => rfl
  | some r =>
    simp only [Option.bind_eq_bind, Option.bind_some]
    cases Thread.run ts r.1 <;> rfl

theorem handled_some (t : Turn) (x : Expiry) (hs : List (Turn × Option Expiry)) (rc : Rc) :
    handled ((t, some x) :: hs) rc =
      (handleExpiry t rc x).bind fun r => (handled hs r.1).map fun q => (q.1, r.2 :: q.2) := by
  rw [handled]
  cases handleExpiry t rc x with
  | none => rfl
  | some r =>
    simp only [Option.bind_eq_bind, Option.bind_some]
    cases handled hs r.1 <;> rfl

/-- A run of a thread is the handling of what it hears: neither the other
messages nor what is left of them in the buffer count, and a failure to read
counts as the soft expiry of the SPI 0 when the message before it was an
expiry. -/
theorem thread_hears {ts : List Turn} {rs : List Reading}
    (h : List.Forall₂ (fun t r => Reads t.zone t.datagram r) ts rs) (s : Thread) :
    outcome (Thread.run ts s) = handled (ts.zip (heard (isExpiry s.buf) rs)) s.rc := by
  induction h generalizing s with
  | nil => rfl
  | @cons t r ts rs ht hts ih =>
    rw [outcome_cons]
    generalize hd : t.datagram = d at ht
    cases ht with
    | failed =>
      rw [step_failed hd, heard]
      cases hexp : isExpiry s.buf with
      | true =>
        rw [if_pos rfl, if_pos rfl, List.zip_cons_cons, handled_some, Option.bind_map]
        refine Option.bind_congr fun q _ => ?_
        rw [Function.comp_apply, ih, hexp]
      | false =>
        rw [if_neg (by decide), if_neg (by decide), List.zip_cons_cons, handled, Option.bind_some, ih, hexp]
    | expiry hm hexp hp =>
      obtain ⟨buf, hbuf, hstep⟩ := step_expiry hd hm hexp hp s
      rw [hstep, heard, List.zip_cons_cons, handled_some, Option.bind_map]
      refine Option.bind_congr fun q _ => ?_
      rw [Function.comp_apply, ih, hbuf]
    | other hm hexp hp =>
      obtain ⟨buf, hbuf, hstep⟩ := step_other hd hm hexp hp s
      rw [hstep, heard, List.zip_cons_cons, handled, Option.bind_some, ih, hbuf]

/-- A turn when the SAD has entries of the SPIs 34502 and 0. -/
def twoTurn (datagram : Option Bytes) : Turn where
  datagram := datagram
  sad := [{ (default : SadEntryNode) with name := lit "gw", spi := 34502 },
    { (default : SadEntryNode) with name := lit "new", spi := 0 }]
  notify := ⟨true, true, true, .ok ()⟩
  delete := ⟨.ok (), .ok (), .ok ()⟩
  zone := fun _ => 0

/-- A message that is no expiry. -/
def addMessage : Bytes := message { version := PF_KEY_V2, type := SADB_ADD, satype := SADB_SATYPE_ESP } []

/-- The soft expiry of the SPI 34502, a message that is no expiry, and after each
a failure to read. -/
def failingReads : List (Option Bytes) := [some (expireMessage 34502 SADB_EXT_LIFETIME_SOFT), none, some addMessage, none]

/-- Reading fails after the soft expiry of one SA, and the other is notified of;
it fails again after another message. -/
theorem thread_hears_failed :
    outcome (Thread.run (failingReads.map twoTurn) (.start .zeros)) =
      some (.ok (), [[.notify (lit "gw") true], [.notify (lit "new") true], [], []]) := by
  have hexpire : IsSized (expireMessage 34502 SADB_EXT_LIFETIME_SOFT) (expireExts 34502 SADB_EXT_LIFETIME_SOFT) :=
    ⟨⟨by decide +kernel, by decide +kernel, by decide +kernel, by decide +kernel, by decide +kernel⟩, by decide +kernel⟩
  have hprints : ∀ e ∈ expireExts 34502 SADB_EXT_LIFETIME_SOFT, TimesPrint (fun _ => 0) e := by decide +kernel
  have hadd : IsMessage addMessage [] := ⟨by decide, by decide, by decide, by decide, by decide⟩
  have hreads : List.Forall₂ (fun t r => Reads t.zone t.datagram r) (failingReads.map twoTurn)
      [.expiry (expiryOf (expireExts 34502 SADB_EXT_LIFETIME_SOFT)), .failed, .other, .failed] :=
    .cons (.expiry hexpire (by decide +kernel) fun _ => hprints) (.cons .failed
      (.cons (.other hadd (by decide) fun h => absurd h (by decide)) (.cons .failed .nil)))
  rw [thread_hears hreads]
  decide +kernel

end CfgIpsec.Proof
