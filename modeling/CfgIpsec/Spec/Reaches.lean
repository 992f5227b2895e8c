import CfgIpsec.Spec.Decode
import CfgIpsec.Spec.Grammar
import CfgIpsec.Spec.Yang

/-!
# What of an entry reaches the kernel

The lifetimes and keys an entry is configured with, what it means that the
message adding its SA carries them, and the conditions on the entry and its
name under which it does. A key extension agrees with itself when it has room
for the bits it declares, and holds its own key and nothing else (`KeyExtOk`).
-/

namespace CfgIpsec.Spec

open Impl
open CStr (lit)

/-! ## Lifetimes -/

inductive Lifetime
  | hard
  | soft
deriving DecidableEq

inductive Limit
  | time
  | bytes
  | packets
  | idle
deriving DecidableEq

def Lifetime.name : Lifetime → CStr
  | .hard => lit "sa-lifetime-hard"
  | .soft => lit "sa-lifetime-soft"

def Limit.name : Limit → CStr
  | .time => lit "time"
  | .bytes => lit "bytes"
  | .packets => lit "packets"
  | .idle => lit "idle"

/-- The extension of a lifetime in a message. -/
def Lifetime.ext : Lifetime → BitVec 16
  | .hard => SADB_EXT_LIFETIME_HARD
  | .soft => SADB_EXT_LIFETIME_SOFT

def Limit.type : Limit → YangType
  | .bytes => .uint 64
  | _ => .uint 32

/-- The leaf of a limit. -/
def lifetimeNode (c : Lifetime) (l : Limit) : SchemaNode :=
  ⟨[.child (lit "ipsec-sa-config"), .child c.name, .child l.name], l.type⟩

/-- The limit an entry has; the default is zero. -/
def limit (c : Lifetime) (l : Limit) (entry : List Setting) : BitVec 64 :=
  ((valueAt (lifetimeNode c l) entry).map (·.raw)).getD 0

/-- The last value of a limit in an entry, hard or soft. -/
def lastLimit (l : Limit) (entry : List Setting) : BitVec 64 :=
  (entry.reverse.findSome? fun s =>
    if s.node = lifetimeNode .hard l ∨ s.node = lifetimeNode .soft l then some s.data.raw else none).getD 0

/-- The lifetimes of the SA a message adds are those of the entry. -/
def CarriesLimits (msg : Bytes) (entry : List Setting) : Prop :=
  ∀ c : Lifetime, ∃ x, decode sadbLifetime msg c.ext = some x ∧
    x.allocations.toNat = (limit c .packets entry).toNat ∧ x.bytes = limit c .bytes entry ∧
    x.addtime = limit c .time entry ∧ x.usetime = limit c .idle entry

/-- A limit that an `int` holds, as far as the message tells. -/
def Limit.Fits : Limit → BitVec 64 → Prop
  | .packets, _ => True
  | .bytes, v => v.toNat < 2 ^ 31 ∨ 2 ^ 64 - 2 ^ 31 ≤ v.toNat
  | .time, v | .idle, v => v.toNat < 2 ^ 31

instance (l : Limit) (v : BitVec 64) : Decidable (l.Fits v) :=
  match l with
  | .packets => inferInstanceAs (Decidable True)
  | .bytes => inferInstanceAs (Decidable (_ ∨ _))
  | .time | .idle => inferInstanceAs (Decidable (_ < _))

/-- The limits of an entry fit, and its name does not turn the hard ones into
soft ones; or it does, but there are no hard ones and the last ones are soft. -/
def LimitsReach (name : CStr) (entry : List Setting) : Prop :=
  if strstr name (lit "/sa-lifetime-soft") then
    ∀ l, limit .hard l entry = 0 ∧ lastLimit l entry = limit .soft l entry ∧ l.Fits (limit .soft l entry)
  else ∀ c (l : Limit), l.Fits (limit c l entry)

/-! ## Names -/

/-- The parts of a path the reader looks for in the whole xpath, and by which
it tells settings of one name apart. -/
def markers : List CStr :=
  [lit "/local-ports", lit "/remote-ports", lit "/encryption", lit "/integrity", lit "/sa-lifetime-soft"]

/-- A node but for its name. -/
def nameless (n : SadEntryNode) : SadEntryNode := n.setName (lit "")

/-- The settings of an entry are read alike under either name. -/
def ReadAlike (x y : CStr) : Prop :=
  ∀ (malloc : SadEntryNode) (entry : List Setting),
    (readSettings malloc x entry).map (fun r => (r.1, r.2.1, nameless r.2.2)) =
      (readSettings malloc y entry).map fun r => (r.1, r.2.1, nameless r.2.2)

/-! ## Keys -/

inductive KeyUse
  | encryption
  | integrity
deriving DecidableEq

def KeyUse.name : KeyUse → CStr
  | .encryption => lit "encryption"
  | .integrity => lit "integrity"

/-- What the reader finds in the xpaths of the keys of a use. -/
def KeyUse.marker : KeyUse → CStr
  | .encryption => lit "/encryption"
  | .integrity => lit "/integrity"

def KeyUse.ext : KeyUse → BitVec 16
  | .encryption => SADB_EXT_KEY_ENCRYPT
  | .integrity => SADB_EXT_KEY_AUTH

def keyNode (u : KeyUse) : SchemaNode :=
  ⟨[.child (lit "ipsec-sa-config"), .child (lit "esp-sa"), .child u.name, .child (lit "key")], .hexString⟩

def algorithmNode : KeyUse → SchemaNode
  | .encryption => ⟨[.child (lit "ipsec-sa-config"), .child (lit "esp-sa"), .child (lit "encryption"),
      .child (lit "encryption-algorithm")], .uint 16⟩
  | .integrity => ⟨[.child (lit "ipsec-sa-config"), .child (lit "esp-sa"), .child (lit "integrity"),
      .child (lit "integrity-algorithm")], .uint 16⟩

/-- The bytes a hex-string value stands for. -/
def keyBytes (d : SrData) : Bytes := (d.text.bind fun s => hexBytes? s.bytes).getD []

/-- The key an entry has for a use. -/
def key? (u : KeyUse) (entry : List Setting) : Option Bytes := (valueAt (keyNode u) entry).map keyBytes

/-- The algorithm an entry has for a use; none is zero. -/
def algorithm (u : KeyUse) (entry : List Setting) : BitVec 64 :=
  ((valueAt (algorithmNode u) entry).map (·.raw)).getD 0

/-- A key of as many bytes as the extension of its algorithm has room for: that
of DES-CBC, of 3DES-CBC, or an integrity key. -/
def FillsArea : KeyUse → List Setting → Bytes → Prop
  | .encryption, entry, kb =>
    algorithm .encryption entry = 2 ∧ kb.length = 8 ∨ algorithm .encryption entry = 3 ∧ kb.length = 24
  | .integrity, entry, kb => algorithm .integrity entry ≠ 0 ∧ kb.length = 20

/-- The key extension of a message carries the key. -/
def CarriesKey (u : KeyUse) (msg kb : Bytes) : Prop :=
  ∃ bs, ext? msg u.ext = some bs ∧ ((bs.take (8 * extFormat.size bs)).drop 8).take kb.length = kb

/-- The string of a use in a node. -/
def KeyUse.string : KeyUse → SadEntryNode → CStr
  | .encryption => (·.encryptionKey)
  | .integrity => (·.integrityKey)

def KeyUse.other : KeyUse → KeyUse
  | .encryption => .integrity
  | .integrity => .encryption

/-- The last key configured for a use: below its container, or below either when
the name of the entry has the marker; up to its first zero byte. -/
def keyString (malloc : SadEntryNode) (name : CStr) (entry : List Setting) (u : KeyUse) : CStr :=
  ((entry.reverse.findSome? fun s =>
    if s.node = keyNode u ∨ s.node = keyNode u.other ∧ strstr name u.marker = true then some (keyBytes s.data)
    else none).map CStr.ofBuf).getD (u.string malloc)

/-- The number the reader makes of an algorithm. -/
def algorithmNumber (u : KeyUse) (entry : List Setting) : BitVec 32 :=
  ((algorithm u entry).setWidth 16).signExtend 32

/-- What the buffer holds where the key of a use goes, before zeros: the end of
an encryption key that is longer than its extension. -/
def leftBefore (malloc : SadEntryNode) (name : CStr) (entry : List Setting) : KeyUse → Bytes
  | .encryption => []
  | .integrity =>
    if algorithmNumber .encryption entry = SADB_EALG_NONE then []
    else (keyString malloc name entry .encryption).bytes.drop
      (8 * (encryptKeyArea (algorithmNumber .encryption entry)).len)

/-- The key is the last one configured for the use, as far as that goes, and from
there on what the buffer holds. -/
structure KeyReaches (malloc : SadEntryNode) (name : CStr) (entry : List Setting) (u : KeyUse) (kb : Bytes) : Prop where
  stored : ∀ i < kb.length, i < strlen (keyString malloc name entry u) →
    kb[i]? = (keyString malloc name entry u).bytes[i]?
  left : ∀ i < kb.length, strlen (keyString malloc name entry u) ≤ i →
    kb[i]? = some ((leftBefore malloc name entry u).getD i 0)

/-- After a zero byte all bytes are zero. -/
def ZerosLast (kb : Bytes) : Prop := ∀ b ∈ kb.dropWhile (· ≠ 0), b = 0

/-! ## Key extensions -/

/-- The key extension of a message, as long as it says. -/
def keyExt? (u : KeyUse) (msg : Bytes) : Option Bytes :=
  (ext? msg u.ext).map fun bs => bs.take (8 * extFormat.size bs)

/-- The algorithm of a use in a node; zero is none. -/
def KeyUse.alg : KeyUse → SadEntryNode → BitVec 32
  | .encryption => (·.encryptionAlg)
  | .integrity => (·.integrityAlg)

/-- The declared bits fit in the extension, and what follows its head is the
whole string of the node and zeros. -/
def KeyExtOk (u : KeyUse) (n : SadEntryNode) (msg : Bytes) : Prop :=
  ∃ ext, keyExt? u msg = some ext ∧
    8 + (sadbKey.get ext).bits.toNat / 8 ≤ 8 * (sadbKey.get ext).len.toNat ∧
    ∃ k, ext.drop 8 = (u.string n).bytes ++ List.replicate k 0

/-- The key extensions of the message agree with themselves. -/
def KeysConsistent (n : SadEntryNode) (msg : Bytes) : Prop := ∀ u : KeyUse, u.alg n ≠ 0 → KeyExtOk u n msg

/-- How many bytes of a key an extension holds. -/
def keyCapacity : KeyUse → BitVec 32 → Nat
  | .encryption, alg => if alg = SADB_EALG_DESCBC then 8 else 24
  | .integrity, _ => 24

/-- The encryption is not AES, and each key that is used fits its extension. -/
def KeysFit (n : SadEntryNode) : Prop :=
  n.encryptionAlg ≠ SADB_X_EALG_AESCBC ∧ ∀ u : KeyUse, u.alg n ≠ 0 → strlen (u.string n) ≤ keyCapacity u (u.alg n)

end CfgIpsec.Spec
