import CfgIpsec.Impl.Buffers
import CfgIpsec.Spec.Ip
import CfgIpsec.Spec.Reaches
import CfgIpsec.Spec.YangSpd

/-!
# Values and the buffers of nodes

What the schema asks of the values that are copied into a node (`Valid`), that a
copy has room (`HasRoom`), and how long a value may be that is not bounded by its
type (`Fits`). The ways to write bytes in hexadecimal, which `hexstr_to_char` is
to undo in place, and what `get_new_xpath` is to do with its block.
-/

namespace CfgIpsec.Spec

open Impl
open CStr (lit)

/-- The string has room in its buffer, with its terminator. -/
def HasRoom (c : StrCopy) : Prop := strlen c.str + 1 ≤ c.buffer.capacity

instance : DecidablePred HasRoom := fun _ => inferInstanceAs (Decidable (_ ≤ _))

namespace SchemaNode

variable (node : SchemaNode)

/-- The name of a node. -/
def name : CStr := (node.steps.getLast?.map Step.name).getD (lit "")

/-- The leaves of type `ip-prefix`. -/
def isPrefix : Bool := node.name = lit "local-prefix" || node.name = lit "remote-prefix"

/-- The leaves of type `ip-address` that are the ends of a tunnel. -/
def isEnd : Bool := node.name = lit "local" || node.name = lit "remote"

/-- A value of the type of the node. -/
structure Valid (d : SrData) : Prop where
  subnet : node.isPrefix = true → ∃ t, d.text = some t ∧ IsIpPrefix t
  tunnel : node.isEnd = true → ∃ t, d.text = some t ∧ IsIpAddress t

/-- A value for which the buffers are large enough: what is not an IPv4 prefix,
or an IPv4 address without a zone, has at most 39 bytes, and a hex-string stands
for less than 1024 bytes before its first zero byte. -/
structure Fits (d : SrData) : Prop where
  subnet : node.isPrefix = true → ∀ t, d.text = some t → ¬IsIpv4Prefix t → strlen t ≤ 39
  tunnel : node.isEnd = true → ∀ t, d.text = some t → ¬IsIpv4NoZone t → strlen t ≤ 39
  hex : node.type = .hexString → strlen (.ofBuf (keyBytes d)) < 1024

end SchemaNode

/-! ## Strings of nodes -/

/-- The string in a buffer of a SAD node. -/
def sadString : NodeBuffer → SadEntryNode → CStr
  | .name => (·.name)
  | .localSubnet => (·.localSubnet)
  | .remoteSubnet => (·.remoteSubnet)
  | .tunnelLocal => (·.tunnelLocal)
  | .tunnelRemote => (·.tunnelRemote)
  | .encryptionKey => (·.encryptionKey)
  | .integrityKey => (·.integrityKey)
  | .encryptionIv => (·.encryptionIv)

/-- The string in a buffer of a SPD node, which has none for keys. -/
def spdString : NodeBuffer → SpdEntryNode → CStr
  | .name => (·.name)
  | .localSubnet => (·.localSubnet)
  | .remoteSubnet => (·.remoteSubnet)
  | .tunnelLocal => (·.tunnelLocal)
  | .tunnelRemote => (·.tunnelRemote)
  | .encryptionKey | .integrityKey | .encryptionIv => fun _ => lit ""

/-- What copies leave in a buffer that had the string `old`. -/
def afterCopies (b : NodeBuffer) (old : CStr) (cs : List StrCopy) : CStr :=
  cs.foldl (fun str c => if c.buffer = b then c.str else str) old

/-! ## Entries -/

/-- All strings have room that `addSAD_entry` copies for the entry. -/
def SadHasRoom (malloc : SadEntryNode) (name : CStr) (entry : List Setting) : Prop :=
  ∃ cs, addSadCopies malloc (sadBlock name entry) (sadEntryXpath name) name = some cs ∧ ∀ c ∈ cs, HasRoom c

/-- All strings have room that `addSPD_entry` copies for the entry. -/
def SpdHasRoom (entries : List SpdEntryNode) (malloc : SpdEntryNode) (name : CStr) (entry : List SpdSetting) : Prop :=
  ∃ cs, addSpdCopies entries malloc (spdBlock name entry) (spdEntryXpath name) name = some cs ∧ ∀ c ∈ cs, HasRoom c

/-- A copy that is made for a value of a created entry. -/
def Copies {xpath : CStr → CStr} (copies : SrVal → Option (List StrCopy)) (b : Block xpath) (c : StrCopy) : Prop :=
  ∃ v ∈ b.values, ∃ cs, copies v = some cs ∧ c ∈ cs

/-- What `addSAD_entry` reads of an entry, from what `malloc` left in the node;
none when a string has no room. -/
def readInRoom (malloc : SadEntryNode) (name : CStr) (entry : List Setting) :
    Option (Rc × SrChangeIter × SadEntryNode) :=
  newSadInRoom malloc (sadBlock name entry) (sadEntryXpath name) name

/-- The strings of the entry fit: that of its name, and those of its values. -/
structure EntryFits (name : CStr) (entry : List Setting) : Prop where
  name : strlen name < 200
  values : ∀ s ∈ entry, s.node.Fits s.data

/-! ## In place -/

/-- The digits of bytes, two for each, in either case. -/
inductive HexDigits : Bytes → Bytes → Prop
  | nil : HexDigits [] []
  | cons {a b : Byte} {x y : Nat} {kb ds : Bytes} (ha : digitIn 16 a = some x) (hb : digitIn 16 b = some y)
      (h : HexDigits kb ds) : HexDigits (BitVec.ofNat 8 (16 * x + y) :: kb) (a :: b :: ds)

/-- A text that is the digits of `kb`, with colons anywhere among them. -/
def HexWriting (kb text : Bytes) : Prop := HexDigits kb (text.filter (· ≠ 0x3a))

/-- `get_new_xpath` returns `p`, whatever lies in and behind its block, and
writes inside the block only. -/
def StaysInside (xpath p : CStr) : Prop :=
  ∃ b, getNewXpathBlock xpath = some b ∧
    (∀ mem : Bytes, b.size < mem.length → CStr.ofBuf (applyWrites b.writes mem) = p) ∧ WritesBelow b.size b.writes

end CfgIpsec.Spec
