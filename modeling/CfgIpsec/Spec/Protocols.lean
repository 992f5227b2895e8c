import CfgIpsec.Spec.Decode
import CfgIpsec.Spec.YangSpd

/-!
# Inner protocols, addresses and reqids

The value of an `inner-protocol` is a number or the text `any`, of which the
reader gets the address (`protocolOf`). Two entries that differ in nothing but
where sysrepo placed their texts are related by `Replaced`. A policy is for the
SAs that have its `reqid`, of which entries have 64 bits and messages 32
(`LinksReqids`).
-/

namespace CfgIpsec.Spec

open Impl
open CStr (lit)

/-! ## Entries of either database -/

/-- A configured entry, and what `malloc` left in its node. -/
inductive Entry
  | sad (malloc : SadEntryNode) (settings : List Setting)
  | spd (malloc : SpdEntryNode) (settings : List SpdSetting)

inductive EntryNode
  | sad (n : SadEntryNode)
  | spd (n : SpdEntryNode)
deriving DecidableEq

def EntryNode.innerProtocol : EntryNode → BitVec 32
  | .sad n => n.innerProtocol
  | .spd n => n.innerProtocol

/-- What `readSAD_entry` or `readSPD_entry` makes of an entry. -/
def Entry.read (name : CStr) : Entry → Option (Rc × EntryNode)
  | .sad malloc settings => (readSettings malloc name settings).map fun r => (r.1, .sad r.2.2)
  | .spd malloc settings => (readSpdSettings malloc name settings).map fun r => (r.1, .spd r.2.2)

/-! ## Protocols -/

def sadProtocolNode : SchemaNode :=
  ⟨[.child (lit "ipsec-sa-config"), .child (lit "traffic-selector"), .child (lit "inner-protocol")],
    .innerProtocol⟩

def spdProtocolNode : SchemaNode :=
  ⟨[.child (lit "ipsec-policy-config"), .child (lit "traffic-selector"), .child (lit "inner-protocol")],
    .innerProtocol⟩

/-- The inner protocol an entry has; the last one, if there are several. -/
def Entry.protocol? : Entry → Option SrData
  | .sad _ settings => valueAt sadProtocolNode settings
  | .spd _ settings => settings.reverse.findSome? fun s => if s.node = spdProtocolNode then some s.data else none

/-- The number of an inner protocol: 256 for `any`, else its own. -/
def protocolOf (d : SrData) : BitVec 32 := if d.text = some (lit "any") then 256 else d.raw.setWidth 32

/-- The entry is accepted, and its node has the inner protocol `d`. -/
def ReadAs (d : SrData) (r : Option (Rc × EntryNode)) : Prop :=
  r.map (fun x => (x.1, x.2.innerProtocol)) = some (.ok (), protocolOf d)

/-- The text `any`, if it is the value, is at an address of which the low 16
bits are no number of a protocol. -/
def WellPlaced (d : SrData) : Prop := d.text = some (lit "any") → 256 ≤ (d.raw.setWidth 16).toNat

/-! ## Runs that differ in addresses -/

/-- A value of the type is the address of a text. -/
def YangType.isText : YangType → SrData → Prop
  | .enumeration _, _ | .string, _ | .hexString, _ => True
  | .innerProtocol, d => d.text = some (lit "any")
  | .inner, _ | .boolean, _ | .uint _, _ => False

/-- The values are the same, but for the address of a text. -/
def SameValue (type : YangType) (d d' : SrData) : Prop :=
  d.text = d'.text ∧ (d.raw = d'.raw ∨ type.isText d)

/-- The entries have the same settings, of which the texts may be elsewhere. -/
inductive Replaced : Entry → Entry → Prop
  | sad (malloc : SadEntryNode) {ss ts : List Setting}
      (h : List.Forall₂ (fun s t => s.node = t.node ∧ s.keys = t.keys ∧ SameValue s.node.type s.data t.data) ss ts) :
      Replaced (.sad malloc ss) (.sad malloc ts)
  | spd (malloc : SpdEntryNode) {ss ts : List SpdSetting}
      (h : List.Forall₂ (fun s t => s.node = t.node ∧ s.keys = t.keys ∧ SameValue s.node.type s.data t.data) ss ts) :
      Replaced (.spd malloc ss) (.spd malloc ts)

/-- The low 16 bits of a value, up to 256. -/
def lowPart (d : SrData) : Nat := min (d.raw.setWidth 16).toNat 256

/-! ## Reqids -/

/-- The leaf of an entry of either database. -/
def reqidNode : SchemaNode := ⟨[.child (lit "reqid")], .uint 64⟩

/-- The `reqid` of a SAD entry; the default is zero. -/
def sadReqid (entry : List Setting) : BitVec 64 := ((valueAt reqidNode entry).map (·.raw)).getD 0

/-- The `reqid` of a SPD entry; the default is zero. -/
def spdReqid (entry : List SpdSetting) : BitVec 64 :=
  ((entry.reverse.findSome? fun s => if s.node = reqidNode then some s.data else none).map (·.raw)).getD 0

/-- The request inside the policy of a message. -/
def request? (msg : Bytes) : Option SadbIpsecrequest :=
  (ext? msg SADB_X_EXT_POLICY).map fun bs => sadbIpsecrequest.get (bs.drop sadbPolicy.size)

/-- The messages of a policy and of an SA have the same `reqid` exactly when
their entries do, and a level for this SA alone comes with a `reqid`. -/
def LinksReqids (policy sa : Bytes) (a b : BitVec 64) : Prop :=
  ∃ req sa2, request? policy = some req ∧ decode sadbSa2 sa SADB_X_EXT_SA2 = some sa2 ∧
    (req.reqid = sa2.reqid ↔ a = b) ∧ (req.level = IPSEC_LEVEL_UNIQUE → req.reqid ≠ 0)

/-- Nothing is lost of the `reqid` of a policy, and of its difference to that of
an SA, with the upper 32 bits. -/
def ReqidsFit (a b : BitVec 64) : Prop :=
  (a.toNat % 2 ^ 32 = b.toNat % 2 ^ 32 → a = b) ∧ (a.toNat % 2 ^ 32 = 0 → a = 0)

end CfgIpsec.Spec
