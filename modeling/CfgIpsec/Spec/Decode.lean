import CfgIpsec.Impl.Libc
import CfgIpsec.Impl.Parse

/-!
# What a message says

A message is read through the parser: `ext?` is what lies from its extension
of a type on, which the codec of the extension reads. An extension reaches to
where its length says it ends (`extStop`); `Recorded` says that what the parser
notes are whole extensions which do not overlap.
-/

namespace CfgIpsec.Spec

open Impl

/-- The parser accepts the message. -/
def Accepted (msg : Bytes) : Prop := ∃ out, parsePfkeyMessage msg = some (0, out)

/-- The bytes of an accepted message from its extension of type `t` on. -/
def ext? (msg : Bytes) (t : BitVec 16) : Option Bytes :=
  match parsePfkeyMessage msg with
  | some (0, out) => (out t).map msg.drop
  | _ => none

/-- The extension of type `t`, read by `c`. -/
def decode {α : Type} (c : Codec α) (msg : Bytes) (t : BitVec 16) : Option α := (ext? msg t).map c.get

/-- The address extension of an end: the fields at their widths on the wire,
with the bytes the code leaves unset. -/
def address (zero : BitVec 64) (t : BitVec 16) (proto : BitVec 32) (len : Nat) (port : BitVec 32)
    (ip : CStr) : SadbAddress where
  len := 3
  exttype := t
  proto := proto.setWidth 8
  prefixlen := BitVec.ofNat 8 len
  sockaddr := ⟨AF_INET, port.setWidth 16, inetAddr ip, zero⟩

/-! ## Texts of the configuration -/

/-- The text `ip/len` of a prefix. -/
structure IsPrefixText (s ip : CStr) (len : Nat) : Prop where
  text : s.bytes = ip.bytes ++ 0x2f :: decimal len
  ip_ne_nil : ip.bytes ≠ []
  ip_noSlash : (0x2f : Byte) ∉ ip.bytes
  len_lt : len < 2 ^ 31

/-! ## Extents -/

/-- Where the extension at `p` ends. -/
def extStop (buf : Bytes) (p : Nat) : Nat := p + 8 * (getLE buf p 16).toNat

/-- The extensions noted in `out` lie after the header of the message, within
its first `n` bytes, and apart from each other. -/
structure Recorded (buf : Bytes) (n : Nat) (out : PfkeyMsg) : Prop where
  within : ∀ t p, out t = some p → sadbMsg.size ≤ p ∧ p < extStop buf p ∧ extStop buf p ≤ n
  apart : ∀ t t' p p', t ≠ t' → out t = some p → out t' = some p' → extStop buf p ≤ p' ∨ extStop buf p' ≤ p

end CfgIpsec.Spec
