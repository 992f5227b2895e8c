import CfgIpsec.Impl.Libc
import CfgIpsec.Impl.Wire

/-!
# Walking over a received message

The loops over received messages share their steps: they look at the type of
the extension at `ext`, and go on by the length it tells, while bytes of the
message are left by their own count `msglen`. None of them checks a length.
-/

namespace CfgIpsec.Impl

/-- A buffer messages are read into. -/
structure Buffer where
  bytes : Bytes
  size : bytes.length = PFKEY_BUFFER_SIZE
deriving DecidableEq

def Buffer.zeros : Buffer := ⟨List.replicate PFKEY_BUFFER_SIZE 0, List.length_replicate ..⟩

/-- What `read` leaves in a buffer, and its result: the datagram (`none` for an
error), as far as it fits, over what was there. -/
def readInto (buf : Buffer) : Option Bytes → Buffer × Int
  | none => (buf, -1)
  | some d =>
    let d := d.take PFKEY_BUFFER_SIZE
    (⟨d ++ buf.bytes.drop d.length, by
      have := buf.size
      simp only [List.length_append, List.length_drop, d, List.length_take]; omega⟩, d.length)

/-- A walk, with what it does at each extension. An extension of no length
holds it forever; all others take it on by at least one unit, so `fuel` turns
are enough for a message of `8 * fuel` bytes. -/
def walkExts {σ : Type} (visit : BitVec 16 → Nat → σ → Option σ) (buf : Bytes) :
    Nat → Int → Nat → σ → Option σ
  | 0, msglen, _, st => if msglen > 0 then none else some st
  | fuel + 1, msglen, ext, st =>
    if msglen > 0 then do
      let type ← extType buf ext
      let st ← visit type ext st
      let len ← extLen buf ext
      walkExts visit buf fuel (msglen - 8 * len.toNat) (ext + 8 * len.toNat) st
    else some st

/-- `((struct sadb_msg *) buf)->sadb_msg_type`. -/
def msgType (buf : Bytes) : BitVec 8 := getLE buf 1 8

/-- `((struct sadb_msg *) buf)->sadb_msg_seq`. -/
def msgSeq (buf : Bytes) : BitVec 32 := getLE buf 8 32

/-- `sock_ntop`: the address, and the port after a dot unless it is zero. For
another family it returns nothing. -/
def sockNtop (buf : Bytes) (sa : Nat) : Option CStr := do
  let family ← getLE? buf sa 16
  if family = AF_INET then
    let addr ← getLE? buf (sa + 4) 32
    let port ← getBE? buf (sa + 2) 16
    if port ≠ 0 then pure (inetNtop addr ++ .ofBuf (0x2e :: decimal port.toNat))
    else pure (inetNtop addr)
  else none

end CfgIpsec.Impl
