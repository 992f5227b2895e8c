import CfgIpsec.Impl.Expire

/-!
# The configuration of a SAD entry (`ietf-i2nsf-ikeless.yang`)

`sadSchema` are the configuration nodes below `sad-entry`, with what sysrepo
hands out for a value of their types. A `Setting` is a node of an entry with
its value, and `sadBlock` the changes that create the settings of an entry.
-/

namespace CfgIpsec.Spec

open Impl
open CStr (lit)

/-! ## Values -/

/-- The bytes a hex-string stands for: pairs of digits, separated by colons. -/
def hexBytes? : Bytes → Option Bytes
  | [] => some []
  | [a, b] => do pure [BitVec.ofNat 8 (16 * (← digitIn 16 a) + (← digitIn 16 b))]
  | a :: b :: 0x3a :: c :: r => do
    let byte := BitVec.ofNat 8 (16 * (← digitIn 16 a) + (← digitIn 16 b))
    pure (byte :: (← hexBytes? (c :: r)))
  | _ => none

/-- The types of the nodes, as far as their values differ for a reader. -/
inductive YangType
  /-- A container or a list instance. -/
  | inner
  | boolean
  | uint (bits : Nat)
  | enumeration (values : List CStr)
  /-- Strings, addresses and prefixes. -/
  | string
  | hexString
  /-- `uint8`, or the enumeration of `any`. -/
  | innerProtocol
deriving DecidableEq

/-- The values of a type. -/
def YangType.admits : YangType → SrData → Bool
  | .inner, _ => true
  | .boolean, d => d.raw = 0 || d.raw = 1
  | .uint bits, d => d.raw.toNat < 2 ^ bits
  | .enumeration values, d => d.text.any fun s => s ∈ values
  | .string, d => d.text.isSome
  | .hexString, d => d.text.any fun s => (hexBytes? s.bytes).isSome
  | .innerProtocol, d => d.raw.toNat < 2 ^ 8 || d.text = some (lit "any")

/-! ## Nodes -/

/-- A step to a node, from the node above. -/
inductive Step
  | child (name : CStr)
  /-- To an instance of a list or an element of a leaf-list. -/
  | item (name : CStr)
deriving DecidableEq

def Step.name : Step → CStr
  | .child name => name
  | .item name => name

structure SchemaNode where
  steps : List Step
  type : YangType
deriving DecidableEq

/-- A container and what is in it. -/
def container (name : String) (nodes : List SchemaNode) : List SchemaNode :=
  ⟨[.child (lit name)], .inner⟩ :: nodes.map fun n => ⟨.child (lit name) :: n.steps, n.type⟩

/-- A list and what is in its instances. -/
def list (name : String) (nodes : List SchemaNode) : List SchemaNode :=
  ⟨[.item (lit name)], .inner⟩ :: nodes.map fun n => ⟨.item (lit name) :: n.steps, n.type⟩

def leaf (name : String) (type : YangType) : List SchemaNode := [⟨[.child (lit name)], type⟩]

def leafList (name : String) (type : YangType) : List SchemaNode := [⟨[.item (lit name)], type⟩]

/-! ## Groupings (`ietf-i2nsf-ikec.yang`) -/

def portRange : List SchemaNode := leaf "start" (.uint 16) ++ leaf "end" (.uint 16)

def selectorGrouping : List SchemaNode :=
  leaf "local-prefix" .string ++ leaf "remote-prefix" .string ++ leaf "inner-protocol" .innerProtocol ++
    list "local-ports" portRange ++ list "remote-ports" portRange

def lifetimeGrouping : List SchemaNode :=
  leaf "time" (.uint 32) ++ leaf "bytes" (.uint 64) ++ leaf "packets" (.uint 32) ++ leaf "idle" (.uint 32)

def tunnelGrouping : List SchemaNode :=
  leaf "local" .string ++ leaf "remote" .string ++
    leaf "df-bit" (.enumeration [lit "clear", lit "set", lit "copy"]) ++ leaf "bypass-dscp" .boolean ++
    list "dscp-mapping" (leaf "id" (.uint 8) ++ leaf "inner-dscp" (.uint 8) ++ leaf "outer-dscp" (.uint 8))

def encap : List SchemaNode :=
  leaf "espencap" (.enumeration [lit "espintcp", lit "espinudp", lit "none"]) ++ leaf "sport" (.uint 16) ++
    leaf "dport" (.uint 16) ++ leafList "oaddr" .string

/-! ## Entries of the SAD -/

/-- The configuration nodes below `sad-entry`. -/
def sadSchema : List SchemaNode :=
  leaf "name" .string ++ leaf "reqid" (.uint 64) ++
  container "ipsec-sa-config"
    (leaf "spi" (.uint 32) ++ leaf "ext-seq-num" .boolean ++ leaf "seq-overflow" .boolean ++
      leaf "anti-replay-window-size" (.uint 32) ++ container "traffic-selector" selectorGrouping ++
      leaf "protocol-parameters" (.enumeration [lit "esp"]) ++
      leaf "mode" (.enumeration [lit "transport", lit "tunnel"]) ++
      container "esp-sa"
        (container "encryption"
            (leaf "encryption-algorithm" (.uint 16) ++ leaf "key" .hexString ++ leaf "iv" .hexString) ++
          container "integrity" (leaf "integrity-algorithm" (.uint 16) ++ leaf "key" .hexString)) ++
      container "sa-lifetime-hard" lifetimeGrouping ++
      container "sa-lifetime-soft" (lifetimeGrouping ++
        leaf "action" (.enumeration [lit "terminate-clear", lit "terminate-hold", lit "replace"])) ++
      container "tunnel" (tunnelGrouping ++ leafList "dscp-values" (.uint 8)) ++
      container "encapsulation-type" encap)

/-- The path of a node below its entry, with the texts of the keys on it. -/
def pathOf : List Step → List CStr → CStr
  | [], _ => lit ""
  | .child name :: steps, keys => lit "/" ++ name ++ pathOf steps keys
  | .item name :: steps, keys =>
    lit "/" ++ name ++ lit "[" ++ keys.headD (lit "") ++ lit "]" ++ pathOf steps keys.tail

/-- A node of a SAD entry with its value. The keys of lists in an entry are
numbers and addresses. -/
structure Setting where
  node : SchemaNode
  keys : List CStr
  data : SrData
  mem : node ∈ sadSchema
  noSlash : ∀ k ∈ keys, (0x2f : Byte) ∉ k.bytes
  admits : node.type.admits data

theorem noKeys : ∀ k ∈ ([] : List CStr), (0x2f : Byte) ∉ k.bytes := List.forall_mem_nil _

/-- A setting of a node below `ipsec-sa-config` with no keys on its path. -/
def configSetting (steps : List Step) (type : YangType) (data : SrData)
    (h : (⟨.child (lit "ipsec-sa-config") :: steps, type⟩ : SchemaNode) ∈ sadSchema)
    (hd : type.admits data = true) : Setting :=
  ⟨_, [], data, h, by simp, hd⟩

/-- A prefix of the traffic selector. -/
def sadPrefix (name text : String)
    (h : (⟨[.child (lit "ipsec-sa-config"), .child (lit "traffic-selector"), .child (lit name)], .string⟩ :
      SchemaNode) ∈ sadSchema) : Setting :=
  configSetting [.child (lit "traffic-selector"), .child (lit name)] .string ⟨0x1000, some (lit text)⟩ h rfl

theorem mem_sadSchema_local : (⟨[.child (lit "ipsec-sa-config"), .child (lit "traffic-selector"),
    .child (lit "local-prefix")], .string⟩ : SchemaNode) ∈ sadSchema := by decide +kernel

theorem mem_sadSchema_remote : (⟨[.child (lit "ipsec-sa-config"), .child (lit "traffic-selector"),
    .child (lit "remote-prefix")], .string⟩ : SchemaNode) ∈ sadSchema := by decide +kernel

/-- The prefixes of `add_sad.xml`. -/
def addSadPrefixes : List Setting :=
  [configSetting [.child (lit "traffic-selector"), .child (lit "local-prefix")] .string
      ⟨0x1000, some (lit "192.168.201.0/24")⟩ mem_sadSchema_local rfl,
   configSetting [.child (lit "traffic-selector"), .child (lit "remote-prefix")] .string
      ⟨0x1000, some (lit "192.168.202.0/24")⟩ mem_sadSchema_remote rfl]

/-- An encryption key. -/
def encryptionKey (key : String) (h : (hexBytes? (lit key).bytes).isSome = true) : Setting :=
  configSetting [.child (lit "esp-sa"), .child (lit "encryption"), .child (lit "key")] .hexString
    ⟨0x1000, some (lit key)⟩ (by decide +kernel) h

/-- The mode of `add_sad.xml` and the ends of its tunnel. -/
def addSadTunnel : List Setting :=
  [configSetting [.child (lit "mode")] (.enumeration [lit "transport", lit "tunnel"])
      ⟨0x1000, some (lit "tunnel")⟩ (by decide +kernel) (by decide +kernel),
   configSetting [.child (lit "tunnel"), .child (lit "local")] .string
      ⟨0x1000, some (lit "192.168.123.100")⟩ (by decide +kernel) rfl,
   configSetting [.child (lit "tunnel"), .child (lit "remote")] .string
      ⟨0x1000, some (lit "192.168.123.200")⟩ (by decide +kernel) rfl]

def Setting.path (s : Setting) : CStr := pathOf s.node.steps s.keys

/-- The value of a setting, as sysrepo hands it out for the entry `name`. -/
def Setting.value (name : CStr) (s : Setting) : SrVal := ⟨s.data, sadEntryXpath name ++ s.path⟩

/-- The changes that create the settings of the entry `name`. -/
def sadBlock (name : CStr) (entry : List Setting) : SrChangeIter :=
  entry.map fun s => .ok (s.value name).created

/-- What the reader makes of an entry, from what `malloc` left in the node. -/
def readSettings (malloc : SadEntryNode) (name : CStr) (entry : List Setting) :
    Option (Rc × SrChangeIter × SadEntryNode) :=
  readSadEntry (sadBlock name entry) (sadEntryXpath name) ((createSadNode malloc).setName name)

/-- The value an entry has at a node; the last one, if there are several. -/
def valueAt (node : SchemaNode) (entry : List Setting) : Option SrData :=
  entry.reverse.findSome? fun s => if s.node = node then some s.data else none

end CfgIpsec.Spec
