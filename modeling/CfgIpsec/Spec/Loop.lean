import CfgIpsec.Spec.Host
import CfgIpsec.Spec.Kernel
import CfgIpsec.Spec.Thread

/-!
# The kernel in the loop

The kernel does not only do what the daemon asks for: it drops an SA by itself
when its hard lifetime is over, and tells the thread, which has sysrepo delete
the entry, which has the SA asked to be deleted that is no longer there
(`Loop.step`).
-/

namespace CfgIpsec.Spec

open Impl Tables

/-- A kernel that also drops SAs by itself. -/
structure SaKernel (τ : Type) extends Keeper τ Bytes SaKey SaRule where
  drop : τ → SaKey → τ

/-- What is assumed of it. -/
structure SaKernel.Lawful {τ : Type} (K : SaKernel τ) : Prop where
  keeper : K.toKeeper.Lawful saRequest?
  drop : ∀ st k, K.table (K.drop st k) = Function.update (K.table st) k none

/-- The host, and the kernel. -/
structure Loop (τ : Type) where
  host : Host
  kernel : τ

inductive LoopEvent
  | host (e : HostEvent)
  /-- The kernel drops an SA by itself, and then the event happens. -/
  | drop (k : SaKey) (e : HostEvent)

def LoopEvent.event : LoopEvent → HostEvent
  | .host e => e
  | .drop _ e => e

/-- An entry that is added has an SPI of its own, and a name that can be put in a
path. -/
def SadOp.SpiFree (entries : List SadEntryNode) : SadOp → Prop
  | .add e it xpath name => ∀ it' n, readSadEntry it xpath ((createSadNode e.node).setName name) = some (.ok (), it', n) →
    (∀ m ∈ entries, m.spi ≠ n.spi) ∧ Deletable n.name
  | .remove .. => True

section Kernel

variable {τ : Type} (K : SaKernel τ)

def Loop.start (stack : Buffer) : Loop τ := ⟨.start stack, K.start⟩

/-- The kernel after what it does by itself. -/
def LoopEvent.dropped (st : τ) : LoopEvent → τ
  | .host _ => st
  | .drop k _ => K.drop st k

/-- The kernel after what is sent from the list `s` to the list `s'`. -/
def sentSince (st : τ) (s s' : Store SadEntryNode) : τ := K.after st (s'.sent.drop s.sent.length)

def Loop.step (l : Loop τ) (e : LoopEvent) : Option (Loop τ) :=
  (l.host.step e.event).map fun h => ⟨h, sentSince K (e.dropped K l.kernel) l.host.system.sad h.system.sad⟩

/-- The transactions of clients are accepted, and by the kernel too; the kernel
tells of SAs that it has, of their soft lifetime or when it drops them, or of
something else. -/
def LoopEvent.Fits (l : Loop τ) : LoopEvent → Prop
  | .host (.commit t) => t.Fits l.host.system ∧ t.Accepted l.host.system ∧
    AlongItems sadOps (fun e s i => (i.sadOp e).Taken K.toKeeper (sentSince K l.kernel l.host.system.sad s) s ∧
      (i.sadOp e).SpiFree s.entries) t.sadCalls l.host.system.sad t.sad
  | .host (.turn d notify delete zone r) => Reads zone d .other ∨
    ∃ k, (K.table l.kernel k).isSome ∧ ReadsExpiry ⟨k.spi, false⟩ (.turn d notify delete zone r)
  | .drop k e => (K.table l.kernel k).isSome ∧ ReadsHard k.spi e

/-- The lists have the committed entries, and the kernel the SAs of the list. -/
structure LoopInSync (l : Loop τ) : Prop where
  lists : InSync l.host.system
  sas : Mirrors saRows (K.table l.kernel) l.host.system.sad.entries

end Kernel

end CfgIpsec.Spec
