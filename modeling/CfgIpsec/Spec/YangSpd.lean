import CfgIpsec.Spec.Blocks
import CfgIpsec.Spec.Yang

/-!
# The configuration of a SPD entry (`ietf-i2nsf-ikeless.yang`)

As for a SAD entry: `spdSchema` are the configuration nodes below `spd-entry`,
and `readSpdSettings` is what the reader makes of an entry with such settings.
-/

namespace CfgIpsec.Spec

open Impl
open CStr (lit)

/-- `esp-algorithms` of `ipsec-policy-grouping`. -/
def espAlgorithms : List SchemaNode :=
  leafList "integrity" (.uint 16) ++
    list "encryption" (leaf "id" (.uint 16) ++ leaf "algorithm-type" (.uint 16) ++ leaf "key-length" (.uint 16)) ++
    leaf "tfc-pad" .boolean

/-- `ipsec-policy-grouping` (`ietf-i2nsf-ikec.yang`). -/
def policyGrouping : List SchemaNode :=
  leaf "anti-replay-window-size" (.uint 32) ++ container "traffic-selector" selectorGrouping ++
    container "processing-info"
      (leaf "action" (.enumeration [lit "protect", lit "bypass", lit "discard"]) ++
        container "ipsec-sa-cfg"
          (leaf "pfp-flag" .boolean ++ leaf "ext-seq-num" .boolean ++ leaf "seq-overflow" .boolean ++
            leaf "stateful-frag-check" .boolean ++ leaf "mode" (.enumeration [lit "transport", lit "tunnel"]) ++
            leaf "protocol-parameters" (.enumeration [lit "esp"]) ++ container "esp-algorithms" espAlgorithms ++
            container "tunnel" tunnelGrouping))

/-- The configuration nodes below `spd-entry`. -/
def spdSchema : List SchemaNode :=
  leaf "name" .string ++ leaf "direction" (.enumeration [lit "inbound", lit "outbound"]) ++
    leaf "reqid" (.uint 64) ++ container "ipsec-policy-config" policyGrouping

/-- A node of a SPD entry with its value. -/
structure SpdSetting where
  node : SchemaNode
  keys : List CStr
  data : SrData
  mem : node ∈ spdSchema
  noSlash : ∀ k ∈ keys, (0x2f : Byte) ∉ k.bytes
  admits : node.type.admits data

/-- A prefix of the traffic selector. -/
def spdPrefix (name text : String)
    (h : (⟨[.child (lit "ipsec-policy-config"), .child (lit "traffic-selector"), .child (lit name)], .string⟩ :
      SchemaNode) ∈ spdSchema) : SpdSetting :=
  ⟨_, [], ⟨0x1000, some (lit text)⟩, h, noKeys, rfl⟩

theorem mem_spdSchema_local : (⟨[.child (lit "ipsec-policy-config"), .child (lit "traffic-selector"),
    .child (lit "local-prefix")], .string⟩ : SchemaNode) ∈ spdSchema := by decide +kernel

theorem mem_spdSchema_remote : (⟨[.child (lit "ipsec-policy-config"), .child (lit "traffic-selector"),
    .child (lit "remote-prefix")], .string⟩ : SchemaNode) ∈ spdSchema := by decide +kernel

/-- The prefixes of `add_sad.xml`, of a policy. -/
def spdPrefixes : List SpdSetting :=
  [spdPrefix "local-prefix" "192.168.201.0/24" mem_spdSchema_local,
    spdPrefix "remote-prefix" "192.168.202.0/24" mem_spdSchema_remote]

/-- The settings of `addSpdValues`. -/
def addSpdSettings : List SpdSetting :=
  ⟨⟨[.child (lit "direction")], .enumeration [lit "inbound", lit "outbound"]⟩, [], ⟨0x1000, some (lit "inbound")⟩,
    by decide +kernel, noKeys, by decide +kernel⟩ :: spdPrefixes

def SpdSetting.path (s : SpdSetting) : CStr := pathOf s.node.steps s.keys

/-- The value of a setting, as sysrepo hands it out for the entry `name`. -/
def SpdSetting.value (name : CStr) (s : SpdSetting) : SrVal := ⟨s.data, spdEntryXpath name ++ s.path⟩

theorem addSpdValues_eq (name : CStr) : addSpdValues name = addSpdSettings.map (·.value name) := rfl

/-- The changes that create the settings of the entry `name`. -/
def spdBlock (name : CStr) (entry : List SpdSetting) : SrChangeIter :=
  entry.map fun s => .ok (s.value name).created

/-- What the reader makes of an entry, from what `malloc` left in the node. -/
def readSpdSettings (malloc : SpdEntryNode) (name : CStr) (entry : List SpdSetting) :
    Option (Rc × SrChangeIter × SpdEntryNode) :=
  readSpdEntry (spdBlock name entry) (spdEntryXpath name) ((createSpdNode malloc).setName name)

/-- The value an entry has at a node; the last one, if there are several. -/
def spdValueAt (node : SchemaNode) (entry : List SpdSetting) : Option SrData :=
  entry.reverse.findSome? fun s => if s.node = node then some s.data else none

end CfgIpsec.Spec
