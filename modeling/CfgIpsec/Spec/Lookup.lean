import CfgIpsec.Spec.Expiry
import CfgIpsec.Spec.Yang

/-!
# Which entry an expiry is about

The SPI of an entry as the reader keeps it (`Stores`), and as the thread looks
it up on an expiry (`LooksUp`); what is asked for of an expiry of an SA that is
not listed (`Harmless`), and of one that is (`requestsFor`).
-/

namespace CfgIpsec.Spec

open Impl
open CStr (lit)

/-- The node of the SPI of an entry. -/
def spiNode : SchemaNode := ⟨[.child (lit "ipsec-sa-config"), .child (lit "spi")], .uint 32⟩

/-- The reader keeps `stored` for entries with the SPI. -/
def Stores (spi : BitVec 32) (stored : BitVec 64) : Prop :=
  ∀ (malloc : SadEntryNode) (name : CStr) (entry : List Setting) (d : SrData), valueAt spiNode entry = some d →
    d.uint32Val = spi → ∃ n, readSettings malloc name entry = some (.ok (), [], n) ∧ n.spi = stored

/-- What follows on an expiry of the SA that `key` is looked up for. -/
def expiredAs (key : BitVec 64) (t : Turn) (rc : Rc) (hard : Bool) : Option (Rc × List Action) :=
  if hard then
    if rc = .ok () then do
      let (rc, acts) := sendSaExpireNotification t.notify t.sad key false
      let acts' ← sendDeleteSadRequest t.delete t.sad key
      pure (rc, acts ++ acts')
    else some (rc, [])
  else some (sendSaExpireNotification t.notify t.sad key true)

/-- A turn reads an expiry, of the lifetimes and of the SA that `x` tells. -/
def Expires (t : Turn) (x : Expiry) : Prop :=
  ∃ msg rs, t.datagram = some msg ∧ IsMessage msg rs ∧ msgType msg = SADB_EXPIRE ∧ expiryOf rs = x

/-- The extensions of what a turn reads are as long as their types have them. -/
def WellSized (t : Turn) : Prop := ∀ msg rs, t.datagram = some msg → IsMessage msg rs → IsSized msg rs

/-- On an expiry of the SPI the thread, after it has printed the message, looks
up `key`. -/
def LooksUp (spi : BitVec 32) (key : BitVec 64) : Prop :=
  ∀ (t : Turn) (s : Thread) (hard : Bool), Expires t ⟨spi, hard⟩ →
    (s.step t).map (fun r => (r.1.rc, r.2)) = (printing s t).bind fun _ => expiredAs key t s.rc hard

/-- `key` finds an entry with the SPI that is kept as `stored` in every list
that has one. -/
def Finds (key stored : BitVec 64) : Prop :=
  ∀ sad : List SadEntryNode, (∃ n ∈ sad, n.spi = stored) → ∃ n, getSadNodeBySpi sad key = some n ∧ n.spi = stored

/-- A turn ends, and asks for no deletion. -/
def Harmless (r : Option (Thread × List Action)) : Prop :=
  ∃ s acts, r = some (s, acts) ∧ ∀ a ∈ acts, ∃ name soft, a = .notify name soft

/-- What the expiry of an entry's SA has to lead to. -/
def requestsFor (n : SadEntryNode) (hard : Bool) : List Action :=
  .notify n.name (!hard) :: if hard then [.deleteItem (sadEntryXpath n.name), .applyChanges] else []

/-- All calls into sysrepo and libyang succeed. -/
structure Reachable (t : Turn) : Prop where
  notify : t.notify = ⟨true, true, true, .ok ()⟩
  delete : t.delete = ⟨.ok (), .ok (), .ok ()⟩

end CfgIpsec.Spec
