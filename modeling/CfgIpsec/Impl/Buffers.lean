import CfgIpsec.Framework.Writes
import CfgIpsec.Impl.Callback
import CfgIpsec.Impl.Expire
import CfgIpsec.Impl.State

/-!
# Buffers and what is written to them

The strings and xpaths of the daemon lie in buffers of a fixed size, or in
blocks of a size of their own. What the functions that fill them write, with
its position or with the size of its buffer.
-/

namespace CfgIpsec.Impl

open CStr (lit)

/-! ## In place -/

/-- The writes of the loop of `remove_all_chars`. -/
def removeWrites (c : Byte) : Nat → Bytes → Nat → Nat → List (Nat × Byte)
  | 0, _, _, _ => []
  | fuel + 1, str, pr, pw =>
    match str[pr]? with
    | none => []
    | some b =>
      if b = 0 then [(pw, 0)]
      else (pw, b) :: removeWrites c fuel (str.set pw b) (pr + 1) (if b ≠ c then pw + 1 else pw)

/-- The writes of `remove_all_chars`. -/
def removeAllWrites (str : Bytes) (c : Byte) : List (Nat × Byte) := removeWrites c (str.length + 1) str 0 0

/-! ## Blocks -/

/-- A block from `malloc` that a function fills: its size, and the writes to it. -/
structure Filled where
  size : Nat
  writes : List (Nat × Byte)

/-- The block of `get_new_xpath`. `len` is an `int`, and `malloc` has none of a
negative size. -/
def getNewXpathBlock (xpath : CStr) : Option Filled :=
  let len := (BitVec.ofNat 64 (strlen xpath) - BitVec.ofNat 64 (strlen (lit "/name"))).setWidth 32
  if len.slt 0 then none
  else some ⟨len.toNat, fillWrites 0 (xpath.bytes.take len.toNat) ++ [(len.toNat, 0)]⟩

/-! ## Paths -/

/-- The path `get_sad_state` puts together for a leaf of an entry. -/
def statePath (xpath name leaf : CStr) : Option CStr := do
  let newXpath ← catPath (xpath ++ lit "[name='" ++ name) (lit "']/ipsec-sa-state/sa-lifetime-current")
  catPath newXpath leaf

/-! ## Ports -/

/-- The capacity of `portstr` of `sock_ntop`. -/
def PORTSTR_SIZE : Nat := 7

/-- What `sock_ntop` prints there. -/
def portText (port : BitVec 16) : CStr := .ofBuf (0x2e :: decimal port.toNat)

/-! ## The strings of a node -/

inductive NodeBuffer
  | name
  | localSubnet
  | remoteSubnet
  | tunnelLocal
  | tunnelRemote
  | encryptionKey
  | integrityKey
  | encryptionIv
deriving DecidableEq

/-- What `create_sad_node` and `create_spd_node` allocate. -/
def NodeBuffer.capacity : NodeBuffer → Nat
  | .name => MAX_PATH
  | .localSubnet | .remoteSubnet | .tunnelLocal | .tunnelRemote => MAX_IP
  | .encryptionKey | .integrityKey | .encryptionIv => MAX_KEY

/-- A `strcpy` to a buffer of a node. -/
structure StrCopy where
  buffer : NodeBuffer
  str : CStr
deriving DecidableEq

/-- The copies of `readSAD_entry` for a leaf with the value `d`. -/
def SadLeaf.copies (has : CStr → Bool) (d : SrData) : SadLeaf → Option (List StrCopy)
  | .localPrefix => do pure [⟨.localSubnet, ← d.stringVal⟩]
  | .remotePrefix => do pure [⟨.remoteSubnet, ← d.stringVal⟩]
  | .localEnd => do pure [⟨.tunnelLocal, ← d.stringVal⟩]
  | .remoteEnd => do pure [⟨.tunnelRemote, ← d.stringVal⟩]
  | .iv => do pure [⟨.encryptionIv, ← copyHex d⟩]
  | .key => do
    let encryption ← if has (lit "/encryption") then do pure [⟨.encryptionKey, ← copyHex d⟩] else pure []
    let integrity ← if has (lit "/integrity") then do pure [⟨.integrityKey, ← copyHex d⟩] else pure []
    pure (encryption ++ integrity)
  | _ => some []

/-- The copies of `readSPD_entry` for a leaf with the value `d`. -/
def SpdLeaf.copies (d : SrData) : SpdLeaf → Option (List StrCopy)
  | .localPrefix => do pure [⟨.localSubnet, ← d.stringVal⟩]
  | .remotePrefix => do pure [⟨.remoteSubnet, ← d.stringVal⟩]
  | .localEnd => do pure [⟨.tunnelLocal, ← d.stringVal⟩]
  | .remoteEnd => do pure [⟨.tunnelRemote, ← d.stringVal⟩]
  | _ => some []

/-- A reader's node, with the copies made so far. -/
abbrev Copied (α : Type) := α × List StrCopy

/-- What a reader does with a value, noting its copies. -/
def noteCopies {α : Type} (copies : SrVal → Option (List StrCopy)) (store : SrVal → α → Option (Stored α)) (v : SrVal)
    (n : Copied α) : Option (Stored (Copied α)) := do
  let cs ← copies v
  match ← store v n.1 with
  | .next m => pure (.next (m, n.2 ++ cs))
  | .reject m => pure (.reject (m, n.2 ++ cs))

def sadValueCopies (v : SrVal) : Option (List StrCopy) := do
  let name ← strrchr v.xpath 0x2f
  match sadLeafOf name with
  | some leaf => leaf.copies (strstr v.xpath) v.toSrData
  | none => pure []

def spdValueCopies (v : SrVal) : Option (List StrCopy) := do
  let name ← strrchr v.xpath 0x2f
  match spdLeafOf name with
  | some leaf => leaf.copies v.toSrData
  | none => pure []

/-- The copies a reader makes after those noted in `n`. -/
def readerCopies {α : Type} (copies : SrVal → Option (List StrCopy)) (store : SrVal → α → Option (Stored α))
    (it : SrChangeIter) (xpath : CStr) (n : Copied α) : Option (List StrCopy) :=
  match srGetChangeNext it with
  | (.error _, _) => some n.2
  | (.ok c, it) => do
    match ← readLoop (noteCopies copies store) xpath c it n with
    | (_, .next n) => pure n.2
    | (_, .reject n) => pure n.2

/-- The copies of `addSAD_entry`. -/
def addSadCopies (malloc : SadEntryNode) (it : SrChangeIter) (xpath name : CStr) : Option (List StrCopy) :=
  readerCopies sadValueCopies readSadValue it xpath ((createSadNode malloc).setName name, [⟨.name, name⟩])

/-- The copies of `addSPD_entry`. -/
def addSpdCopies (entries : List SpdEntryNode) (malloc : SpdEntryNode) (it : SrChangeIter) (xpath name : CStr) :
    Option (List StrCopy) :=
  if (getSpdNode entries name).isSome then some []
  else readerCopies spdValueCopies readSpdValue it xpath ((createSpdNode malloc).setName name, [⟨.name, name⟩])

/-! ## Copies that have room -/

/-- The string has room in its buffer, with its terminator. -/
def StrCopy.hasRoom (c : StrCopy) : Bool := strlen c.str < c.buffer.capacity

/-- What a reader does with a value; none when a string that it copies for it
has no room, as `strcpy` then writes to what lies behind the buffer. -/
def inRoom {α : Type} (copies : SrVal → Option (List StrCopy)) (store : SrVal → α → Option (Stored α)) (v : SrVal)
    (n : α) : Option (Stored α) := do
  let cs ← copies v
  if cs.all StrCopy.hasRoom then store v n else none

/-- `readSAD_entry`, as `readSadEntry` but for the room in the buffers. -/
def readSadInRoom (it : SrChangeIter) (xpath : CStr) (n : SadEntryNode) :
    Option (Rc × SrChangeIter × SadEntryNode) :=
  match srGetChangeNext it with
  | (.error e, it) => some (.error e, it, n)
  | (.ok c, it) => do
    match ← readLoop (inRoom sadValueCopies readSadValue) xpath c it n with
    | (it, .next n) => pure (.ok (), it, n)
    | (it, .reject n) => pure (.ok (), it, n)

/-- The node that `addSAD_entry` has read, from its name on. -/
def newSadInRoom (malloc : SadEntryNode) (it : SrChangeIter) (xpath name : CStr) :
    Option (Rc × SrChangeIter × SadEntryNode) :=
  if StrCopy.hasRoom ⟨.name, name⟩ then readSadInRoom it xpath ((createSadNode malloc).setName name) else none

/-- `readSPD_entry`, as `readSpdEntry` but for the room in the buffers. -/
def readSpdInRoom (it : SrChangeIter) (xpath : CStr) (n : SpdEntryNode) :
    Option (Rc × SrChangeIter × SpdEntryNode) :=
  match srGetChangeNext it with
  | (.error _, it) => some (.error .validationFailed, it, n)
  | (.ok c, it) => do
    match ← readLoop (inRoom spdValueCopies readSpdValue) xpath c it n with
    | (it, .next n) => pure (.ok (), it, n)
    | (it, .reject n) => pure (.error .validationFailed, it, n)

/-- The node that `addSPD_entry` has read, from its name on. -/
def newSpdInRoom (malloc : SpdEntryNode) (it : SrChangeIter) (xpath name : CStr) :
    Option (Rc × SrChangeIter × SpdEntryNode) :=
  if StrCopy.hasRoom ⟨.name, name⟩ then readSpdInRoom it xpath ((createSpdNode malloc).setName name) else none

end CfgIpsec.Impl
