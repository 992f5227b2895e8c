import CfgIpsec.Framework.Run
import CfgIpsec.Spec.Identity

/-!
# The policies of the kernel and their ids

Beside the SPD list stand the policies the kernel has for its entries, each
with the id the kernel gave it. That ids differ, and that `pf_addpolicy` stores
the one of the policy it has added, is assumed of each call (`KernelOk`).
-/

namespace CfgIpsec.Spec

open Impl Run

/-- A policy of the kernel, with the name of the entry it is for. -/
structure Policy where
  owner : CStr
  dir : BitVec 16
  id : BitVec 32
deriving DecidableEq

/-- The ids the kernel gives the policies of an entry. -/
structure PolicyIds where
  own : BitVec 32
  forward : BitVec 32

/-- The policies that are installed for an entry. -/
def installed (ids : PolicyIds) (n : SpdEntryNode) : List Policy :=
  ⟨n.name, n.policyDir, ids.own⟩ ::
    if n.policyDir = IPSEC_DIR_INBOUND then [⟨n.name, IPSEC_DIR_FORWARD, ids.forward⟩] else []

/-- The SPD list, and the policies of the kernel. -/
structure SpdState where
  store : Store SpdEntryNode
  policies : List Policy

def SpdState.start : SpdState := ⟨emptyStore, []⟩

/-- A call that changes the SPD list, with the ids the kernel gives in it. -/
inductive SpdCall
  | add (e : AddSpdEnv) (ids : PolicyIds) (it : SrChangeIter) (xpath name : CStr)
  | remove (e : RemoveSpdEnv) (name : CStr)

def SpdCall.op : SpdCall → SpdOp
  | .add e _ it xpath name => .add e it xpath name
  | .remove e name => .remove e name

/-- The node that an addition reads and appends. -/
def newNode? (e : AddSpdEnv) (entries : List SpdEntryNode) (it : SrChangeIter) (xpath name : CStr) :
    Option SpdEntryNode :=
  if (getSpdNode entries name).isSome then none
  else match readSpdEntry it xpath ((createSpdNode e.node).setName name) with
    | some (.ok _, _, node) => some node
    | _ => none

/-- The policies of the kernel after a call. -/
def SpdCall.policies (s : SpdState) : SpdCall → List Policy
  | .add e ids it xpath name => s.policies ++ (newNode? e s.store.entries it xpath name).elim [] (installed ids)
  | .remove _ name => s.policies.filter fun p => p.owner ≠ name

def SpdCall.step (s : SpdState) (c : SpdCall) : Option SpdState :=
  (c.op.step s.store).map fun store => ⟨store, c.policies s⟩

/-- Each call of `pf_addpolicy` for a node stores the id of the policy it has
added. -/
def storesIds (e : AddSpdEnv) (ids : PolicyIds) (n : SpdEntryNode) : Bool :=
  (pfAddpolicy e.add n).all fun r => r.2.index = ids.own ∧
    (n.policyDir = IPSEC_DIR_INBOUND →
      (pfAddpolicy e.forward { r.2 with policyDir := IPSEC_DIR_FORWARD }).all fun r => r.2.index = ids.forward)

/-- What is assumed of a call: the ids of the policies differ, and are stored. -/
def SpdCall.KernelOk (s : SpdState) : SpdCall → Prop
  | .add e ids it xpath name => ∀ n ∈ newNode? e s.store.entries it xpath name,
    storesIds e ids n = true ∧ ((s.policies ++ installed ids n).map (·.id)).Nodup
  | .remove .. => True

instance (s : SpdState) : (c : SpdCall) → Decidable (c.KernelOk s)
  | .add e ids it xpath name => inferInstanceAs (Decidable (∀ n ∈ newNode? e s.store.entries it xpath name,
    storesIds e ids n = true ∧ ((s.policies ++ installed ids n).map (·.id)).Nodup))
  | .remove .. => inferInstanceAs (Decidable True)

/-- The id of an entry's policy in its own direction. -/
def ownId? (s : SpdState) (n : SpdEntryNode) : Option (BitVec 32) :=
  (s.policies.find? fun p => p.owner = n.name ∧ p.dir = n.policyDir).map (·.id)

/-- The id of its own policy leads back to the entry. -/
def LeadsBack (s : SpdState) (n : SpdEntryNode) : Prop :=
  ∃ id, ownId? s n = some id ∧ getSpdNodeByIndex s.store.entries id = some n

/-- The entry that a call adds is not inbound. -/
def SpdCall.NotInbound (s : SpdState) : SpdCall → Prop
  | .add e _ it xpath name => ∀ n ∈ newNode? e s.store.entries it xpath name, n.policyDir ≠ IPSEC_DIR_INBOUND
  | .remove .. => True

end CfgIpsec.Spec
