import CfgIpsec.Spec.Expiry

/-!
# What a thread hears

A thread reads messages and failures to read. It looks at its buffer after
either, so after a failure at the message before it (`heard`). All it does is
to handle the expiries it hears of (`handled`).
-/

namespace CfgIpsec.Spec

open Impl

/-- What a thread reads. -/
inductive Reading
  /-- `read` fails. -/
  | failed
  /-- A message that an SA expires. -/
  | expiry (x : Expiry)
  /-- Another message. -/
  | other

/-- An acquire can be printed, and its policies are whole. -/
structure IsAcquire (zone : Int → Int) (msg : Bytes) (rs : List Bytes) : Prop where
  sized : IsSized msg rs
  prints : Prints zone msg rs
  policies : ∀ e ∈ rs, extFormat.type e = SADB_X_EXT_POLICY → sadbPolicy.size ≤ e.length

/-- What a datagram is read as. What the thread prints can be printed. -/
inductive Reads (zone : Int → Int) : Option Bytes → Reading → Prop
  | failed : Reads zone none .failed
  | expiry {msg : Bytes} {rs : List Bytes} (hm : IsSized msg rs) (ht : msgType msg = SADB_EXPIRE)
    (hp : Prints zone msg rs) : Reads zone (some msg) (.expiry (expiryOf rs))
  | other {msg : Bytes} {rs : List Bytes} (hm : IsMessage msg rs) (ht : msgType msg ≠ SADB_EXPIRE)
    (hp : msgType msg = SADB_ACQUIRE → IsAcquire zone msg rs) : Reads zone (some msg) .other

/-- What a thread hears of, from whether its buffer starts as an expiry: a
failure to read is heard as an expiry of nothing when it does. -/
def heard : Bool → List Reading → List (Option Expiry)
  | _, [] => []
  | stale, .failed :: rs => (if stale then some {} else none) :: heard stale rs
  | _, .expiry x :: rs => some x :: heard true rs
  | _, .other :: rs => none :: heard false rs

/-- What handling the expiries gives, from the result of the last notification:
the result of the last one, and what each calls for. -/
def handled : List (Turn × Option Expiry) → Rc → Option (Rc × List (List Action))
  | [], rc => some (rc, [])
  | (_, none) :: hs, rc => (handled hs rc).map fun r => (r.1, [] :: r.2)
  | (t, some x) :: hs, rc => do
    let (rc, acts) ← handleExpiry t rc x
    let (rc, actss) ← handled hs rc
    pure (rc, acts :: actss)

/-- The buffer starts as an expiry does. -/
def isExpiry (buf : Buffer) : Bool := msgType buf.bytes = SADB_EXPIRE

end CfgIpsec.Spec
