import CfgIpsec.Impl.Lifetime
import CfgIpsec.Spec.Replies

/-!
# Current lifetimes

What the kernel tells of its SAs (`SadDump`), and what reading the current
lifetimes of one of them is to give (`lookedUp`).
-/

namespace CfgIpsec.Spec

open Impl Tlv

/-- The counters of an SA. -/
structure Counters where
  packets : BitVec 64
  bytes : BitVec 64
  time : BitVec 64
  idle : BitVec 64
deriving DecidableEq

/-- The current counters of a node. -/
def counters (n : SadEntryNode) : Counters :=
  ⟨n.lftPacketsCurrent, n.lftBytesCurrent, n.lftTimeCurrent, n.lftIdleCurrent⟩

/-- The node with other current counters. -/
def withCounters (n : SadEntryNode) (c : Counters) : SadEntryNode :=
  { n with
    lftPacketsCurrent := c.packets
    lftBytesCurrent := c.bytes
    lftTimeCurrent := c.time
    lftIdleCurrent := c.idle }

/-- A reply with an SA extension and one with its current lifetime. -/
structure SadReply extends Reply where
  version : (sadbMsg.get msg).version = PF_KEY_V2
  sa : Bytes
  sa_mem : sa ∈ exts
  sa_type : extFormat.type sa = SADB_EXT_SA
  current : Bytes
  current_mem : current ∈ exts
  current_type : extFormat.type current = SADB_EXT_LIFETIME_CURRENT
  current_size : sadbLifetime.size ≤ current.length

/-- The SPI of the SA, which stands in network order. -/
def SadReply.spi (r : SadReply) : BitVec 32 := getBE r.sa 4 32

/-- The counters of the SA. -/
def SadReply.counters (r : SadReply) : Counters :=
  let life := sadbLifetime.get r.current
  ⟨life.allocations.setWidth 64, life.bytes, life.addtime, life.usetime⟩

/-- What the kernel tells of its SAs. -/
abbrev SadDump := DumpOf SadReply SadReply.toReply

/-- The reply is about the SA of the node. -/
def IsOf (n : SadEntryNode) (r : SadReply) : Prop := r.spi.setWidth 64 = n.spi

instance (n : SadEntryNode) (r : SadReply) : Decidable (IsOf n r) := inferInstanceAs (Decidable (_ = _))

/-- What reading the current lifetimes of a node is to give: the counters of the
first reply about its SA, else an error and the node as it was. -/
def lookedUp (d : SadDump) (n : SadEntryNode) : Rc × SadEntryNode :=
  match d.replies.find? (IsOf n ·) with
  | some r => (.ok (), withCounters n r.counters)
  | none => (.error .notFound, n)

/-- What a call meets when the kernel replies with a dump, whatever is in the
socket after it. -/
def dumpEnv (pid : BitVec 32) (stack : Buffer) (d : SadDump) (rest : List (Option Bytes)) : LifetimeEnv :=
  ⟨pid, stack, d.datagrams ++ rest⟩

end CfgIpsec.Spec
