import CfgIpsec.Spec.Expiry
import CfgIpsec.Spec.Identity
import CfgIpsec.Spec.Transactions
import CfgIpsec.Spec.Xpaths

/-!
# The thread's requests carried out

The thread asks sysrepo to delete entries (`send_delete_SAD_request`). sysrepo
deletes the entry that a path is of, if it is configured, in a transaction like
any other: the callbacks are told of it. So the lists change with the
transactions of clients, and with what the kernel tells (`Host.step`).
-/

namespace CfgIpsec.Spec

open Impl
open CStr (lit)

/-- The name that the predicate of a path compares with, when the path is that
of its entry. -/
def entryOf? (path : CStr) : Option CStr :=
  match pathTests (path.bytes.length + 1) path.bytes with
  | some [t] => if sadEntryXpath (.ofBuf t.literal) = path then some (.ofBuf t.literal) else none
  | _ => none

/-- The values sysrepo tells the callbacks of entries that it deletes, and what
the calls meet. -/
structure Removal where
  block : CStr → Block sadEntryXpath
  name_block : ∀ x, (block x).name = x
  values : ∀ x, ∀ v ∈ (block x).values, endsInName v.xpath = some false
  spdCalls : CallbackEnv AddSpdEnv RemoveSpdEnv
  sadCalls : CallbackEnv AddSadEnv RemoveSadEnv

/-- The transaction that deletes the entry `x`. -/
def Removal.transaction (r : Removal) (x : CStr) : Transaction :=
  ⟨[⟨.sad, .deleted (r.block x)⟩], r.spdCalls, r.sadCalls⟩

/-- sysrepo deletes what the path is of, if it is configured. -/
def System.delete (r : Removal) (path : CStr) (s : System) : Option System :=
  match entryOf? path with
  | some x => if x ∈ s.config.sad then s.step (r.transaction x) else some s
  | none => some s

/-- sysrepo carries out what the thread asks for: a deletion is applied when the
thread goes on to apply it. -/
def System.carryOut (r : Removal) : List Action → System → Option System
  | .deleteItem path :: .applyChanges :: acts, s => do
    let s ← s.delete r path
    carryOut r acts s
  | _ :: acts, s => carryOut r acts s
  | [], s => some s

/-- The datastore and the lists, with the thread. -/
structure Host where
  system : System
  thread : Thread

def Host.start (stack : Buffer) : Host := ⟨.start, .start stack⟩

/-- What happens. -/
inductive HostEvent
  /-- A client changes the configuration. -/
  | commit (t : Transaction)
  /-- `read` returns in the thread, and sysrepo carries out what it asks for. -/
  | turn (datagram : Option Bytes) (notify : NotifyEnv) (delete : DeleteEnv) (zone : Int → Int) (r : Removal)

def Host.step (h : Host) : HostEvent → Option Host
  | .commit t => (h.system.step t).map fun s => { h with system := s }
  | .turn datagram notify delete zone r => do
    let (thread, acts) ← h.thread.step ⟨datagram, h.system.sad.entries, notify, delete, zone⟩
    let system ← h.system.carryOut r acts
    pure ⟨system, thread⟩

/-- A client's transaction is about different entries of one of the lists, and
changes the committed configuration. -/
def HostEvent.Fits (h : Host) : HostEvent → Prop
  | .commit t => t.Fits h.system
  | .turn .. => True

/-- The SPD callback accepts a client's transaction, or refuses it at its first
entry. -/
def HostEvent.Accepted (h : Host) : HostEvent → Prop
  | .commit t => t.Accepted h.system ∨ t.RefusedAtOnce h.system
  | .turn .. => True

/-- The thread reads that an SA has reached one of its lifetimes, in a message
that can be printed; an `int` holds the SPI, and sysrepo can be reached. -/
def ReadsExpiry (x : Expiry) : HostEvent → Prop
  | .commit _ => False
  | .turn datagram notify delete zone _ =>
    (∃ msg rs, datagram = some msg ∧ IsSized msg rs ∧ Prints zone msg rs ∧ msgType msg = SADB_EXPIRE ∧
      expiryOf rs = x) ∧
      x.spi.toNat < 2 ^ 31 ∧ notify = ⟨true, true, true, .ok ()⟩ ∧ delete = ⟨.ok (), .ok (), .ok ()⟩

/-- The thread reads that an SA has reached its hard lifetime. -/
def ReadsHard (spi : BitVec 32) : HostEvent → Prop := ReadsExpiry ⟨spi, true⟩

/-- The path `send_delete_SAD_request` prints for the name fits its buffer, and
is of the entry. -/
def Deletable (name : CStr) : Prop := ∃ path, deleteXpath name = some path ∧ Addresses path name

/-- The entry can be deleted: by its path, and by messages. -/
structure Retirable (n : SadEntryNode) : Prop where
  path : Deletable n.name
  messages : SadRemovable n

/-- The entries without the first one of an SPI. -/
def withoutSpi (entries : List SadEntryNode) (spi : BitVec 32) : List SadEntryNode :=
  entries.eraseP fun n => n.spi = spi.setWidth 64

/-- Each SPI is that of an entry, when the entries of those before it are gone. -/
def ListedInTurn : List (BitVec 32) → List SadEntryNode → Prop
  | [], _ => True
  | spi :: spis, entries => (∃ n ∈ entries, n.spi = spi.setWidth 64) ∧ ListedInTurn spis (withoutSpi entries spi)

/-- The first entry of an SPI is taken out of the list, and its SA asked for and
then asked to be deleted. -/
def Retires (spi : BitVec 32) (s s' : Store SadEntryNode) : Prop :=
  ∃ (e : RemoveSadEnv) (n : SadEntryNode) (get del : Bytes), getSadNodeBySpi s.entries (spi.setWidth 64) = some n ∧
    pfGetsad e.get n = some get ∧ pfDelsad e.del n = some del ∧ s' = ⟨withoutSpi s.entries spi, s.sent ++ [get, del]⟩

end CfgIpsec.Spec
