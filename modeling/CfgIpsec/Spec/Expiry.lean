import CfgIpsec.Impl.Expire
import CfgIpsec.Spec.Grammar

/-!
# Expired SAs

What a message tells of an expired SA, by its extensions, and when it can be
printed (`Printable`); what the thread does with a message that is the first it
reads (`firstTurn`), and the condition under which it does so with every message
(`Undisturbed`).
-/

namespace CfgIpsec.Spec

open Impl Tlv

/-- A PF_KEY message that the thread's buffer holds, with its extensions. -/
structure IsMessage (msg : Bytes) (rs : List Bytes) : Prop where
  header : 2 ≤ msgUnits msg
  whole : msg.length = 8 * msgUnits msg
  fits : msg.length ≤ PFKEY_BUFFER_SIZE
  exts : Tiles extFormat (msgExts msg) rs

/-- What an extension adds to what is known of an expiry. -/
def note (x : Expiry) (e : Bytes) : Expiry :=
  if extFormat.type e = SADB_EXT_SA then { x with spi := getBE e 4 32 }
  else if extFormat.type e = SADB_EXT_LIFETIME_HARD then { x with hard := true }
  else x

/-- What the extensions of a message tell of an expiry. -/
def expiryOf (rs : List Bytes) : Expiry := rs.foldl note {}

/-- Both times of a current lifetime have local times; there need be no second. -/
structure HasLocalTimes (zone : Int → Int) (addtime usetime : BitVec 64) : Prop where
  added : (localtime zone addtime).isSome
  used : usetime ≠ 0 → (localtime zone usetime).isSome

instance (zone : Int → Int) (addtime usetime : BitVec 64) : Decidable (HasLocalTimes zone addtime usetime) :=
  decidable_of_iff ((localtime zone addtime).isSome ∧ (usetime ≠ 0 → (localtime zone usetime).isSome))
    ⟨fun h => ⟨h.1, h.2⟩, fun h => ⟨h.1, h.2⟩⟩

/-- The extension, if it is a current lifetime, can be printed. -/
def TimesPrint (zone : Int → Int) (e : Bytes) : Prop :=
  extFormat.type e = SADB_EXT_LIFETIME_CURRENT → HasLocalTimes zone (getLE e 16 64) (getLE e 24 64)

instance (zone : Int → Int) (e : Bytes) : Decidable (TimesPrint zone e) := inferInstanceAs (Decidable (_ → _))

/-- An extension is as long as those of its type are, as far as they are printed. -/
structure Sized (e : Bytes) : Prop where
  sa : extFormat.type e = SADB_EXT_SA → sadbSa.size ≤ e.length
  lifetime : extFormat.type e = SADB_EXT_LIFETIME_CURRENT ∨ extFormat.type e = SADB_EXT_LIFETIME_HARD ∨
    extFormat.type e = SADB_EXT_LIFETIME_SOFT → sadbLifetime.size ≤ e.length

instance (e : Bytes) : Decidable (Sized e) :=
  decidable_of_iff ((extFormat.type e = SADB_EXT_SA → sadbSa.size ≤ e.length) ∧
    (extFormat.type e = SADB_EXT_LIFETIME_CURRENT ∨ extFormat.type e = SADB_EXT_LIFETIME_HARD ∨
      extFormat.type e = SADB_EXT_LIFETIME_SOFT → sadbLifetime.size ≤ e.length))
    ⟨fun h => ⟨h.1, h.2⟩, fun h => ⟨h.1, h.2⟩⟩

/-- A PF_KEY message that the thread's buffer holds, with its extensions, each as
long as its type has it. -/
structure IsSized (msg : Bytes) (rs : List Bytes) : Prop where
  message : IsMessage msg rs
  sized : ∀ e ∈ rs, Sized e

/-- `print_sadb_msg` prints a message of these extensions: of another version it
prints nothing of them. -/
def Prints (zone : Int → Int) (msg : Bytes) (rs : List Bytes) : Prop :=
  (sadbMsg.get msg).version = PF_KEY_V2 → ∀ e ∈ rs, TimesPrint zone e

/-- The message of a turn can be printed. -/
def Printable (t : Turn) : Prop := ∀ msg rs, t.datagram = some msg → IsMessage msg rs → Prints t.zone msg rs

/-! ## Turns -/

/-- Printing the message that the thread reads in a turn. -/
def printing (s : Thread) (t : Turn) : Option Unit :=
  let (buf, msglen) := readInto s.buf t.datagram
  printSadbMsg t.zone buf.bytes PFKEY_BUFFER_SIZE msglen

/-- The thread after a turn. -/
def turn (s : Thread) (t : Turn) : Option Thread := (s.step t).map (·.1)

/-- The path `send_delete_SAD_request` prints for the name fits its buffer. -/
def PathFits (name : CStr) : Prop := strlen (sadEntryXpath name) < MAX_PATH

instance : DecidablePred PathFits := fun _ => inferInstanceAs (Decidable (_ < _))

end CfgIpsec.Spec
