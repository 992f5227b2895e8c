import CfgIpsec.Framework.Run
import CfgIpsec.Proof.Visits

/-!
# The thread forgets what it read

The thread's walks, and what it prints, are about the extensions of the message
it reads, and nothing of what was in its buffer before. So a turn depends on the
turns before it through the result of the last notification only, which keeps a
hard expiry from being handled when it is an error.
-/

namespace CfgIpsec.Proof

open Impl Spec Tlv Run
open CStr (lit)

/-! ## Walks -/

/-- The walk over an expiry notes what its extensions tell. -/
theorem walkRecords_expiry {pre post : Bytes} {rs : List Bytes} (hr : ∀ e ∈ rs, IsRecord extFormat e) (x : Expiry) :
    walkRecords (expiryVisit (pre ++ (rs.flatten ++ post))) pre.length rs x = some (rs.foldl note x) := by
  induction rs generalizing pre x with
  | nil => rfl
  | cons e rs ih =>
    obtain ⟨he, hr⟩ := List.forall_mem_cons.mp hr
    have hlen : 8 ≤ e.length := he.unit_le
    have hvisit : expiryVisit (pre ++ ((e :: rs).flatten ++ post)) (extFormat.type e) pre.length x =
        some (note x e) := by
      rw [List.flatten_cons, List.append_assoc, expiryVisit, note,
        getBE?_within pre (rs.flatten ++ post) 4 (show 4 + 32 / 8 ≤ e.length by omega)]
      split
      · rfl
      · split <;> rfl
    rw [walkRecords, hvisit, List.foldl_cons, List.flatten_cons, List.append_assoc, ← List.append_assoc pre,
      ← List.length_append]
    exact ih hr (note x e)

/-- The walk over an expiry notes what its extensions tell. -/
theorem walkExts_expiry {msg : Bytes} {rs : List Bytes} (hm : IsMessage msg rs) (post : Bytes) :
    walkExts (expiryVisit (msg ++ post)) (msg ++ post) PFKEY_BUFFER_SIZE ((msg.length : Nat) - sadbMsg.size)
      sadbMsg.size {} = some (expiryOf rs) := by
  have hr := hm.exts.records
  rw [walkExts_message hm]
  obtain ⟨header, hheader, rfl⟩ := isMessage_eq hm
  rw [← hheader, List.append_assoc]
  exact walkRecords_expiry hr {}

/-! ## Turns -/

/-- What a turn does with a message. -/
theorem step_message {t : Turn} {msg : Bytes} {rs : List Bytes} (ht : t.datagram = some msg) (hm : IsMessage msg rs)
    (s : Thread) :
    ∃ buf : Buffer, s.step t =
      if msgType msg = SADB_ACQUIRE then (printing s t).bind fun _ =>
        (walkRecords (acquireVisit buf.bytes) 16 rs 0).map fun _ => ({ s with buf := buf }, [])
      else if msgType msg = SADB_EXPIRE then (printing s t).bind fun _ =>
        (handleExpiry t s.rc (expiryOf rs)).map fun r => (⟨r.1, buf⟩, r.2)
      else some ({ s with buf := buf }, []) := by
  obtain ⟨buf, post, hread, hbuf⟩ := readInto_message hm.fits s.buf
  have hheader := hm.header
  have hwhole := hm.whole
  have hty : msgType buf.bytes = msgType msg := by
    rw [hbuf]
    exact getLE_append_left post (by omega)
  refine ⟨buf, ?_⟩
  rw [Thread.step, printing, ht, hread]
  simp only [hty]
  split
  · rw [hbuf, walkExts_message hm, show sadbMsg.size = 16 from rfl]
    refine Option.bind_congr fun _ _ => ?_
    cases walkRecords (acquireVisit (msg ++ post)) 16 rs 0 <;> rfl
  · split
    · rw [hbuf, walkExts_expiry hm]
      refine Option.bind_congr fun _ _ => ?_
      rw [Option.bind_eq_bind, Option.bind_some]
      cases handleExpiry t s.rc (expiryOf rs) <;> rfl
    · rfl

/-- Whether the message of a turn is printed is told by its extensions. -/
theorem printing_isSome_iff {t : Turn} {msg : Bytes} {rs : List Bytes} (ht : t.datagram = some msg) (hm : IsSized msg rs)
    (s : Thread) : (printing s t).isSome ↔ Prints t.zone msg rs := by
  obtain ⟨buf, post, hread, hbuf⟩ := readInto_message hm.message.fits s.buf
  rw [printing, ht, hread]
  show (printSadbMsg t.zone buf.bytes PFKEY_BUFFER_SIZE (msg.length : Nat)).isSome ↔ _
  rw [hbuf]
  exact printSadbMsg_message hm post

theorem isSized_of_eq {msg : Bytes} {rs rs' : List Bytes} (hm : IsSized msg rs) (hm' : IsMessage msg rs') :
    IsSized msg rs' := by
  rwa [hm'.exts.unique hm.message.exts]

/-- A message has its extensions only. -/
theorem printable_iff {t : Turn} {msg : Bytes} {rs : List Bytes} (ht : t.datagram = some msg) (hm : IsMessage msg rs) :
    Printable t ↔ Prints t.zone msg rs := by
  refine ⟨fun h => h msg rs ht hm, fun h msg' rs' ht' hm' => ?_⟩
  obtain rfl : msg = msg' := Option.some.inj (ht.symm.trans ht')
  rwa [hm'.exts.unique hm.exts]

theorem deleteXpath_eq {name : CStr} (h : PathFits name) : deleteXpath name = some (sadEntryXpath name) := if_pos h

theorem deleteXpath_eq_some {name xpath : CStr} (h : deleteXpath name = some xpath) : xpath = sadEntryXpath name := by
  rw [deleteXpath] at h
  split at h
  · exact (Option.some.inj h).symm
  · cases h

theorem deleteXpath_eq_none {name : CStr} (h : ¬PathFits name) : deleteXpath name = none := if_neg h

/-- An expiry of an SA, of the lifetime in the extension `type`. -/
def expireExts (spi : BitVec 32) (type : BitVec 16) : List Bytes :=
  [sadbSa.put { len := 2, exttype := SADB_EXT_SA, spi := spi },
   sadbLifetime.put { len := 4, exttype := type, allocations := 0, bytes := 0, addtime := 15, usetime := 0 }]

def expireMessage (spi : BitVec 32) (type : BitVec 16) : Bytes :=
  message { version := PF_KEY_V2, type := SADB_EXPIRE, satype := SADB_SATYPE_ESP } (expireExts spi type).flatten

/-- A turn at an expiry, when the SAD has an entry of the SPI 34502 and sysrepo
can be reached. -/
def expireTurn (spi : BitVec 32) (type : BitVec 16) : Turn where
  datagram := some (expireMessage spi type)
  sad := [{ (default : SadEntryNode) with name := lit "gw", spi := 34502 }]
  notify := ⟨true, true, true, .ok ()⟩
  delete := ⟨.ok (), .ok (), .ok ()⟩
  zone := fun _ => 0

end CfgIpsec.Proof
