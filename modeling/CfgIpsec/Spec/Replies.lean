import CfgIpsec.Spec.Expiry

/-!
# Replies to a dump

The kernel answers a dump with a message for each of its entries, of which the
last has the sequence number 0.
-/

namespace CfgIpsec.Spec

open Impl

/-- A message with its extensions, of pairwise different types. -/
structure Reply where
  msg : Bytes
  exts : List Bytes
  isMessage : IsMessage msg exts
  distinct : (exts.map extFormat.type).Nodup

/-- The replies to a dump. -/
structure DumpOf (ρ : Type) (toReply : ρ → Reply) where
  init : List ρ
  last : ρ
  more : ∀ r ∈ init, msgSeq (toReply r).msg ≠ 0
  done : msgSeq (toReply last).msg = 0

section

variable {ρ : Type} {toReply : ρ → Reply} (d : DumpOf ρ toReply)

def DumpOf.replies : List ρ := d.init ++ [d.last]

/-- What the socket delivers. -/
def DumpOf.datagrams : List (Option Bytes) := d.replies.map fun r => some (toReply r).msg

end

end CfgIpsec.Spec
