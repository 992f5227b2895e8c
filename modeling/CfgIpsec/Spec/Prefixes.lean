import CfgIpsec.Spec.Ip
import CfgIpsec.Spec.Leaves
import CfgIpsec.Spec.YangSpd

/-!
# Prefixes that are sent

The prefixes of an entry, and that a message has them as its addresses
(`Denotes`). Adding an entry sends its prefixes, or refuses them
(`SentOrRefused`).
-/

namespace CfgIpsec.Spec

open Impl
open CStr (lit)

/-- The prefixes of a SAD entry. -/
structure SadPrefixes (entry : List Setting) (p q : CStr) : Prop where
  localPrefix : (SaLeaf.localPrefix.valueIn entry).bind (·.text) = some p
  remotePrefix : (SaLeaf.remotePrefix.valueIn entry).bind (·.text) = some q

/-- The SA of an entry is not that of a tunnel. -/
def TransportMode (entry : List Setting) : Prop := (SaLeaf.mode.valueIn entry).bind (·.text) ≠ some (lit "tunnel")

/-- A leaf of the traffic selector of a SPD entry. -/
def spdSelectorNode (name : CStr) : SchemaNode :=
  ⟨[.child (lit "ipsec-policy-config"), .child (lit "traffic-selector"), .child name], .string⟩

/-- The prefixes of a SPD entry. -/
structure SpdPrefixes (entry : List SpdSetting) (p q : CStr) : Prop where
  localPrefix : (spdValueAt (spdSelectorNode (lit "local-prefix")) entry).bind (·.text) = some p
  remotePrefix : (spdValueAt (spdSelectorNode (lit "remote-prefix")) entry).bind (·.text) = some q

/-- The extension of a message denotes the prefix. -/
def DenotesAt (msg : Bytes) (t : BitVec 16) (p : CStr) : Prop :=
  ∃ x, prefixOf p = some x ∧ (ext? msg t).bind extPrefix = some x

/-- The addresses of a message denote the prefixes. -/
def Denotes (msg : Bytes) (p q : CStr) : Prop :=
  DenotesAt msg SADB_EXT_ADDRESS_SRC p ∧ DenotesAt msg SADB_EXT_ADDRESS_DST q

/-- Messages of the type are sent, all with the prefixes, or none are and the
call returns an error. -/
def SentOrRefused (type : BitVec 8) (sent sent' : List Bytes) (rc : Rc) (p q : CStr) : Prop :=
  ∃ msgs, sent' = sent ++ msgs ∧
    ((∃ msg ∈ msgs, msgType msg = type) ∧ (∀ msg ∈ msgs, msgType msg = type → Denotes msg p q) ∨
      rc ≠ .ok () ∧ ∀ msg ∈ msgs, msgType msg ≠ type)

end CfgIpsec.Spec
