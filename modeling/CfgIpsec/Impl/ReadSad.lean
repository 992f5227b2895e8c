import CfgIpsec.Impl.Node
import CfgIpsec.Impl.Sysrepo
import CfgIpsec.Impl.Utils

/-!
# Reading a SAD entry (`readSAD_entry`)

The reader looks at the last component of a change's xpath to tell which leaf
it is (`sadLeafTests`, in the order of the source; five of its tests are
repeated there, where they are never reached), and for some leaves also
searches the whole xpath for the container they are in (`has`). No `strcpy` here
writes behind its buffer: that a string has room is asked where it matters
(`readSadInRoom`).
-/

namespace CfgIpsec.Impl

open CStr (lit)

/-- The leaves the reader knows, by the last component of their xpath. -/
inductive SadLeaf
  | reqid
  | spi
  | extSeqNum
  | seqNumberCounter
  | seqOverflow
  | antiReplayWindow
  | localPrefix
  | remotePrefix
  | innerProtocol
  | start
  | mode
  | localEnd
  | remoteEnd
  | bypassDscp
  | ecn
  | dfBit
  | protocolParameters
  | encryptionAlgorithm
  | iv
  | key
  | integrityAlgorithm
  | time
  | bytes
  | packets
  | idle
deriving DecidableEq

/-- The tests on the last component, first match first. -/
def sadLeafTests : List (LeafTest × SadLeaf) :=
  [(.eq (lit "/reqid"), .reqid),
   (.eq (lit "/spi"), .spi),
   (.eq (lit "/ext-seq-num"), .extSeqNum),
   (.eq (lit "/seq-number-counter"), .seqNumberCounter),
   (.eq (lit "/seq-overflow"), .seqOverflow),
   (.eq (lit "/anti-replay-window"), .antiReplayWindow),
   (.eq (lit "/local-prefix"), .localPrefix),
   (.eq (lit "/remote-prefix"), .remotePrefix),
   (.eq (lit "/inner-protocol"), .innerProtocol),
   (.starts (lit "/start"), .start),
   (.eq (lit "/mode"), .mode),
   (.eq (lit "/local"), .localEnd),
   (.eq (lit "/remote"), .remoteEnd),
   (.eq (lit "/bypass-dscp"), .bypassDscp),
   (.eq (lit "/ecn"), .ecn),
   (.eq (lit "/df-bit"), .dfBit),
   (.eq (lit "/protocol-parameters"), .protocolParameters),
   (.eq (lit "/encryption-algorithm"), .encryptionAlgorithm),
   (.eq (lit "/iv"), .iv),
   (.starts (lit "/key"), .key),
   (.eq (lit "/integrity-algorithm"), .integrityAlgorithm),
   (.eq (lit "/time"), .time),
   (.eq (lit "/bytes"), .bytes),
   (.eq (lit "/packets"), .packets),
   (.eq (lit "/idle"), .idle)]

def sadLeafOf : CStr → Option SadLeaf := leafOf sadLeafTests

/-- `strcpy(…, hexstr_to_char(value))`. -/
def copyHex (d : SrData) : Option CStr := do
  let chrs ← hexstrToChar (← d.stringVal)
  pure (.ofBuf chrs)

/-- A lifetime leaf: `int32_val`, converted to `unsigned long`, goes to the
soft or else to the hard field. -/
def storeLifetime (has : CStr → Bool) (d : SrData) (soft hard : BitVec 64 → SadEntryNode)
    (n : SadEntryNode) : SadEntryNode :=
  if has (lit "/sa-lifetime-soft") then soft (d.int32Val.signExtend 64)
  else if has (lit "/sa-lifetime-hard") then hard (d.int32Val.signExtend 64)
  else n

/-- What a leaf with the value `d` does to the node, where the strings it copies
have room in their buffers: `inRoom` has the leaf at any string. -/
def SadLeaf.store (has : CStr → Bool) (d : SrData) (n : SadEntryNode) :
    SadLeaf → Option (Stored SadEntryNode)
  | .reqid => some (.next { n with reqId := d.uint64Val })
  | .spi => some (.next { n with spi := d.uint32Val.setWidth 64 })
  | .extSeqNum => some (.next { n with extSeqNum := d.boolVal })
  | .seqNumberCounter => some (.next { n with seqNumberCounter := d.uint64Val })
  | .seqOverflow => some (.next { n with seqOverflow := d.boolVal })
  | .antiReplayWindow => some (.next { n with antiReplayWindow := d.uint64Val })
  | .localPrefix => do
    let s ← d.stringVal
    pure (.next { n with localSubnet := s })
  | .remotePrefix => do
    let s ← d.stringVal
    pure (.next { n with remoteSubnet := s })
  | .innerProtocol =>
    if d.uint16Val ≤ 256 then some (.next { n with innerProtocol := d.uint16Val.setWidth 32 })
    else do
      -- the union is taken for a pointer when its low 16 bits are too large
      let s ← d.stringVal
      if s = lit "any" then pure (.next { n with innerProtocol := 256 })
      else pure (.reject { n with innerProtocol := d.uint16Val.setWidth 32 })
  | .start =>
    let n := if has (lit "/local-ports") then { n with srcport := d.uint16Val.setWidth 32 } else n
    let n := if has (lit "/remote-ports") then { n with dstport := d.uint16Val.setWidth 32 } else n
    some (.next n)
  | .mode => do
    let s ← d.stringVal
    if strcaseEq s (lit "transport") then pure (.next { n with ipsecMode := IPSEC_MODE_TRANSPORT })
    else if strcaseEq s (lit "tunnel") then pure (.next { n with ipsecMode := IPSEC_MODE_TUNNEL })
    else pure (.next n)
  | .localEnd => do
    let s ← d.stringVal
    pure (.next { n with tunnelLocal := s })
  | .remoteEnd => do
    let s ← d.stringVal
    pure (.next { n with tunnelRemote := s })
  | .bypassDscp => some (.next { n with bypassDscp := d.boolVal })
  | .ecn => some (.next { n with ecn := d.boolVal })
  | .dfBit => do
    let s ← d.stringVal
    if s = lit "clear" then pure (.next { n with dfBit := IPSEC_DF_BIT_CLEAR })
    else if s = lit "set" then pure (.next { n with dfBit := IPSEC_DF_BIT_SET })
    else if s = lit "copy" then pure (.next { n with dfBit := IPSEC_DF_BIT_COPY })
    else pure (.next n)
  | .protocolParameters => do
    let s ← d.stringVal
    if s = lit "esp" then pure (.next { n with protocolParameters := IPSEC_PROTO_ESP })
    else pure (.next n)
  | .encryptionAlgorithm =>
    some (.next { n with encryptionAlg := d.int16Val.signExtend 32 })
  | .iv => do
    let iv ← copyHex d
    pure (.next { n with encryptionIv := iv })
  | .key => do
    let n ← if has (lit "/encryption") then do
        let key ← copyHex d
        pure { n with encryptionKey := key }
      else pure n
    let n ← if has (lit "/integrity") then do
        let key ← copyHex d
        pure { n with integrityKey := key }
      else pure n
    pure (.next n)
  | .integrityAlgorithm =>
    some (.next { n with integrityAlg := d.int16Val.signExtend 32 })
  | .time => some (.next (storeLifetime has d
      (fun x => { n with lftTimeSoft := x }) (fun x => { n with lftTimeHard := x }) n))
  | .bytes => some (.next (storeLifetime has d
      (fun x => { n with lftBytesSoft := x }) (fun x => { n with lftBytesHard := x }) n))
  | .packets => some (.next (storeLifetime has d
      (fun x => { n with lftPacketsSoft := x }) (fun x => { n with lftPacketsHard := x }) n))
  | .idle => some (.next (storeLifetime has d
      (fun x => { n with lftIdleSoft := x }) (fun x => { n with lftIdleHard := x }) n))

/-- The body of the reader's loop for a value of the entry. -/
def readSadValue (v : SrVal) (n : SadEntryNode) : Option (Stored SadEntryNode) := do
  let name ← strrchr v.xpath 0x2f
  match sadLeafOf name with
  | some leaf => leaf.store (strstr v.xpath) v.toSrData n
  | none => pure (.next n)

/-- `readSAD_entry`: past the first step it reports `SR_ERR_OK` whatever
happened. -/
def readSadEntry (it : SrChangeIter) (xpath : CStr) (n : SadEntryNode) :
    Option (Rc × SrChangeIter × SadEntryNode) :=
  match srGetChangeNext it with
  | (.error e, it) => some (.error e, it, n)
  | (.ok c, it) => do
    match ← readLoop readSadValue xpath c it n with
    | (it, .next n) => pure (.ok (), it, n)
    | (it, .reject n) => pure (.ok (), it, n)

end CfgIpsec.Impl
