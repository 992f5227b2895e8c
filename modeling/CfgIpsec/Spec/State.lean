import CfgIpsec.Impl.State
import CfgIpsec.Spec.Current

/-!
# State data

What a request for state data is to make: for each entry of the list whose SA
the kernel knows (`ListedSa`), a path for each of its counters (`Reported`).
-/

namespace CfgIpsec.Spec

open Impl
open CStr (lit)

/-- An entry of the list, the dump that the search for its SA meets, and the
reply about it. -/
structure ListedSa where
  node : SadEntryNode
  pid : BitVec 32
  stack : Buffer
  dump : SadDump
  rest : List (Option Bytes)
  reply : SadReply
  found : dump.replies.find? (IsOf node ·) = some reply

/-- What the search for the entry meets. -/
def ListedSa.env (a : ListedSa) : LifetimeEnv := dumpEnv a.pid a.stack a.dump a.rest

/-- The leaves of `sa-lifetime-current`, with the counter that each shows. -/
def currentLeaves (c : Counters) : List (CStr × BitVec 64) :=
  [(lit "/bytes", c.bytes), (lit "/packets", c.packets), (lit "/idle", c.idle), (lit "/time", c.time)]

/-- The path of such a leaf of an entry. -/
def currentPath (name leaf : CStr) : CStr :=
  stateXpath ++ lit "[name='" ++ name ++ lit "']/ipsec-sa-state/sa-lifetime-current" ++ leaf

/-- For each entry and each leaf exactly one path is made, with the text of the
counter that the kernel told. -/
def Reported (sas : List ListedSa) (made : List (CStr × CStr)) : Prop :=
  ∀ a ∈ sas, ∀ leaf ∈ currentLeaves a.reply.counters,
    (made.filter (·.1 = currentPath a.node.name leaf.1)).map (·.2) = [.ofBuf (decimal leaf.2.toNat)]

/-- The callback, called with the module and the path it is registered for,
reports every entry. -/
def StateReported (sas : List ListedSa) (newPath : CStr → CStr → Bool) (parent : Bool) : Prop :=
  ∃ nodes o, sadStateCb ⟨sas.map (·.env), newPath⟩ stateModule stateXpath (sas.map (·.node)) parent =
    some (.ok (), nodes, o) ∧ Reported sas o.made

end CfgIpsec.Spec
