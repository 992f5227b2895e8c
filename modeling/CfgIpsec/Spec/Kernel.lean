import CfgIpsec.Framework.Tables
import CfgIpsec.Spec.Indexes
import CfgIpsec.Spec.Reaches
import CfgIpsec.Spec.Transactions

/-!
# The databases of the kernel

The kernel keeps a table of policies, by direction and selectors, and one of
SAs, by destination, protocol and SPI. It knows of the daemon's lists only the
messages sent for them, and the daemon does not look at its replies. What each
message asks for is read from its bytes. What the kernel accepts is its own
affair (`Kernel`): of it is assumed only that it carries out what it accepts and
nothing else, and refuses to add what is there (`Kernel.Lawful`).
-/

namespace CfgIpsec.Spec

open Impl Tables

/-! ## Policies -/

/-- What the kernel finds a policy by. -/
structure SpKey where
  dir : BitVec 8
  proto : BitVec 8
  src : BitVec 32
  dst : BitVec 32
  srcLen : BitVec 8
  dstLen : BitVec 8
  sport : BitVec 16
  dport : BitVec 16
deriving DecidableEq

def SpIdent.key (i : SpIdent) : SpKey := ⟨i.dir, i.proto, i.src, i.dst, i.srcLen, i.dstLen, i.sport, i.dport⟩

/-- What the kernel does with the packets of a policy, and the ends of the
tunnel it may send them through. -/
structure SpRule where
  action : BitVec 16
  proto : BitVec 16
  mode : BitVec 8
  level : BitVec 8
  reqid : BitVec 32
  ends : Option (BitVec 32 × BitVec 32)
deriving DecidableEq

/-- The rule in a policy extension. -/
def spRule (policy : Bytes) : SpRule :=
  let req := sadbIpsecrequest.get (policy.drop 16)
  { action := (sadbPolicy.get policy).type
    proto := req.proto
    mode := req.mode
    level := req.level
    reqid := req.reqid
    ends := if req.len = 48 then
        some ((sockaddrIn.get (policy.drop 32)).addr, (sockaddrIn.get (policy.drop 48)).addr)
      else none }

/-- What a message asks of the policies. -/
def spRequest? (msg : Bytes) : Option (Request SpKey SpRule) :=
  if msgType msg = SADB_X_SPDADD then do
    let i ← spIdent? msg
    let policy ← ext? msg SADB_X_EXT_POLICY
    pure (.insert i.key (spRule policy))
  else if msgType msg = SADB_X_SPDDELETE then (spIdent? msg).map fun i => .erase i.key
  else none

/-- The policy of an entry in a direction. -/
def spRow (n : SpdEntryNode) (dir : BitVec 16) : SpKey × SpRule :=
  ((spIn n dir).key,
    { action := n.action
      proto := n.protocolParameters
      mode := n.ipsecMode.setWidth 8
      level := if n.reqId ≠ 0 then IPSEC_LEVEL_UNIQUE else IPSEC_LEVEL_REQUIRE
      reqid := n.reqId.setWidth 32
      ends := if n.ipsecMode = IPSEC_MODE_TUNNEL then some (inetAddr n.tunnelLocal, inetAddr n.tunnelRemote)
        else none })

/-- The policies of an entry: an inbound one is also forwarded. -/
def spRows (n : SpdEntryNode) : List (SpKey × SpRule) :=
  spRow n n.policyDir :: if n.policyDir = IPSEC_DIR_INBOUND then [spRow n IPSEC_DIR_FORWARD] else []

/-! ## SAs -/

/-- What the kernel finds an SA by. -/
structure SaKey where
  satype : BitVec 8
  spi : BitVec 32
  dst : BitVec 32
deriving DecidableEq

def SaIdent.key (i : SaIdent) : SaKey := ⟨i.satype, i.spi, i.dst⟩

/-- The bits and the bytes of the key for a use in a message. -/
def secret? (u : KeyUse) (msg : Bytes) : Option (Nat × Bytes) :=
  (keyExt? u msg).map fun ext =>
    ((sadbKey.get ext).bits.toNat, (ext.drop 8).take ((sadbKey.get ext).bits.toNat / 8))

/-- The SA without what it is found by. -/
structure SaRule where
  src : BitVec 32
  sa : SadbSa
  sa2 : SadbSa2
  hard : SadbLifetime
  soft : SadbLifetime
  encryption : Option (Nat × Bytes)
  integrity : Option (Nat × Bytes)
deriving DecidableEq

/-- The SA a message describes. -/
def saRule? (msg : Bytes) : Option SaRule := do
  let src ← decode sadbAddress msg SADB_EXT_ADDRESS_SRC
  let sa ← decode sadbSa msg SADB_EXT_SA
  let sa2 ← decode sadbSa2 msg SADB_X_EXT_SA2
  let hard ← decode sadbLifetime msg SADB_EXT_LIFETIME_HARD
  let soft ← decode sadbLifetime msg SADB_EXT_LIFETIME_SOFT
  pure ⟨src.sockaddr.addr, sa, sa2, hard, soft, secret? .encryption msg, secret? .integrity msg⟩

/-- What a message asks of the SAs. -/
def saRequest? (msg : Bytes) : Option (Request SaKey SaRule) :=
  if msgType msg = SADB_ADD then do
    let i ← saIdent? msg
    let r ← saRule? msg
    pure (.insert i.key r)
  else if msgType msg = SADB_DELETE then (saIdent? msg).map fun i => .erase i.key
  else none

/-- The key of an entry for a use that it has an algorithm for. -/
def KeyUse.secret (u : KeyUse) (n : SadEntryNode) : Option (Nat × Bytes) :=
  if u.alg n = 0 then none else some (8 * strlen (u.string n), (u.string n).bytes)

/-- The SA of an entry. -/
def saRows (n : SadEntryNode) : List (SaKey × SaRule) :=
  [((saWanted n).key, ⟨(saWanted n).src, saExt n, sa2Ext n, hardExt n, softExt n, KeyUse.encryption.secret n,
    KeyUse.integrity.secret n⟩)]

/-- The bytes of a key that `pf_addsad` declares for an algorithm. -/
def keyLength : KeyUse → BitVec 32 → Nat
  | .encryption, alg => if alg = SADB_EALG_DESCBC then 8 else 24
  | .integrity, _ => 20

/-- The encryption is not AES, and the keys are as long as is declared for their
algorithms. -/
def KeysWhole (n : SadEntryNode) : Prop :=
  n.encryptionAlg ≠ SADB_X_EALG_AESCBC ∧ ∀ u : KeyUse, u.alg n ≠ 0 → strlen (u.string n) = keyLength u (u.alg n)

/-- The far end of an entry is the same in tunnel mode as its remote subnet is. -/
def SameFarEnd (n : SadEntryNode) : Prop :=
  n.ipsecMode = IPSEC_MODE_TUNNEL → inetAddr n.tunnelRemote = subnetIp n.remoteSubnet

instance (n : SadEntryNode) : Decidable (SameFarEnd n) := inferInstanceAs (Decidable (_ → _))

/-! ## The kernel -/

/-- A kernel, which keeps policies and SAs. -/
structure Kernel (σ τ : Type) where
  policies : Keeper σ Bytes SpKey SpRule
  sas : Keeper τ Bytes SaKey SaRule

/-- What is assumed of the kernel. -/
structure Kernel.Lawful {σ τ : Type} (K : Kernel σ τ) : Prop where
  policies : K.policies.Lawful spRequest?
  sas : K.sas.Lawful saRequest?

section Calls

variable {σ : Type}

/-- The kernel has the policies of the SPD list, and no others. -/
def SpdMirrored (K : Keeper σ Bytes SpKey SpRule) (s : Store SpdEntryNode) : Prop :=
  Mirrors spRows (K.tableAfter s.sent) s.entries

/-- The kernel accepts what a call asks for. -/
def SpdOp.Taken (K : Keeper σ Bytes SpKey SpRule) (s : Store SpdEntryNode) (op : SpdOp) : Prop :=
  ∀ s', op.step s = some s' → K.Takes spRequest? (K.after K.start s.sent) (s'.sent.drop s.sent.length)

/-- The kernel has the SAs of the SAD list, and no others. -/
def SadMirrored (K : Keeper σ Bytes SaKey SaRule) (s : Store SadEntryNode) : Prop :=
  Mirrors saRows (K.tableAfter s.sent) s.entries

/-- The keys of an entry that is added are whole, and one that is removed has the
same far end in either mode. -/
def SadOp.Exact (entries : List SadEntryNode) : SadOp → Prop
  | .add e it xpath name => ∀ it' n, readSadEntry it xpath ((createSadNode e.node).setName name) = some (.ok (), it', n) →
    KeysWhole n
  | .remove _ name => ∀ n, getSadNode entries name = some n → SameFarEnd n

/-- The kernel, from a state on, accepts what a call asks for, which is just what
the entry is. -/
structure SadOp.Taken (K : Keeper σ Bytes SaKey SaRule) (st : σ) (s : Store SadEntryNode) (op : SadOp) : Prop where
  about : op.Exact s.entries
  taken : ∀ s', op.step s = some s' → K.Takes saRequest? st (s'.sent.drop s.sent.length)

end Calls

/-! ## Transactions -/

section Items

variable {xpath : CStr → CStr} {α ρ δ : Type}

/-- `C` holds of the items that are applied, where they are. -/
def AlongItems (ops : EntryOps α ρ δ) (C : CallbackEnv ρ δ → Store α → Item xpath → Prop) :
    CallbackEnv ρ δ → Store α → List (Item xpath) → Prop
  | _, _, [] => True
  | e, s, i :: items => ∀ s', i.apply ops e s = some (.ok (), s') → C e s i ∧ AlongItems ops C e.next s' items

/-- The call an item is applied by. -/
def Item.spdOp (e : CallbackEnv AddSpdEnv RemoveSpdEnv) : Item xpath → SpdOp
  | .created b => .add (e.add 0) b.body (xpath b.name) b.name
  | .deleted b => .remove (e.remove 0) b.name

/-- The call an item is applied by. -/
def Item.sadOp (e : CallbackEnv AddSadEnv RemoveSadEnv) : Item xpath → SadOp
  | .created b => .add (e.add 0) b.body (xpath b.name) b.name
  | .deleted b => .remove (e.remove 0) b.name

end Items

section Kernel

variable {σ τ : Type} (K : Kernel σ τ)

/-- The kernel accepts what a transaction asks for, which is just what its
entries are. -/
structure Transaction.Taken (s : System) (t : Transaction) : Prop where
  spd : AlongItems spdOps (fun e s i => (i.spdOp e).Taken K.policies s) t.spdCalls s.spd t.spd
  sad : AlongItems sadOps (fun e s i => (i.sadOp e).Taken K.sas (K.sas.after K.sas.start s.sent) s) t.sadCalls s.sad t.sad

/-- The lists have the committed entries, and the kernel what the lists have. -/
structure KernelFollows (s : System) : Prop where
  lists : InSync s
  policies : SpdMirrored K.policies s.spd
  sas : SadMirrored K.sas s.sad

end Kernel

end CfgIpsec.Spec
