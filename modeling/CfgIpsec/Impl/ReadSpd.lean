import CfgIpsec.Impl.Node
import CfgIpsec.Impl.Sysrepo
import CfgIpsec.Impl.Utils

/-!
# Reading a SPD entry (`readSPD_entry`)

As for a SAD entry: `spdLeafTests` are the tests of the source, in its order,
and `SpdLeaf.store` what each leaf does to the node; that its strings have room
in their buffers is asked in `readSpdInRoom`.
-/

namespace CfgIpsec.Impl

open CStr (lit)

/-- The leaves the reader knows, by the last component of their xpath. -/
inductive SpdLeaf
  | direction
  | reqid
  | antiReplayWindow
  | localPrefix
  | remotePrefix
  | innerProtocol
  | start
  | action
  | extSeqNum
  | seqOverflow
  | pfpFlag
  | statefulFragCheck
  | mode
  | localEnd
  | remoteEnd
  | bypassDscp
  | ecn
  | dfBit
  | protocolParameters
  | integrity
  | encryption
  | tfcPad
deriving DecidableEq

/-- The tests on the last component, first match first. -/
def spdLeafTests : List (LeafTest × SpdLeaf) :=
  [(.eq (lit "/direction"), .direction),
   (.eq (lit "/reqid"), .reqid),
   (.eq (lit "/anti-replay-window"), .antiReplayWindow),
   (.eq (lit "/local-prefix"), .localPrefix),
   (.eq (lit "/remote-prefix"), .remotePrefix),
   (.eq (lit "/inner-protocol"), .innerProtocol),
   (.starts (lit "/start"), .start),
   (.eq (lit "/action"), .action),
   (.eq (lit "/ext-seq-num"), .extSeqNum),
   (.eq (lit "/seq-overflow"), .seqOverflow),
   (.eq (lit "/pfp-flag"), .pfpFlag),
   (.eq (lit "/stateful-frag-check"), .statefulFragCheck),
   (.eq (lit "/mode"), .mode),
   (.eq (lit "/local"), .localEnd),
   (.eq (lit "/remote"), .remoteEnd),
   (.eq (lit "/bypass-dscp"), .bypassDscp),
   (.eq (lit "/ecn"), .ecn),
   (.eq (lit "/df-bit"), .dfBit),
   (.eq (lit "/protocol-parameters"), .protocolParameters),
   (.contains (lit "/integrity"), .integrity),
   (.contains (lit "/encryption"), .encryption),
   (.eq (lit "/tfc-pad"), .tfcPad)]

def spdLeafOf : CStr → Option SpdLeaf := leafOf spdLeafTests

/-- What a leaf with the value `d` does to the node, where the strings it copies
have room in their buffers. -/
def SpdLeaf.store (has : CStr → Bool) (d : SrData) (n : SpdEntryNode) :
    SpdLeaf → Option (Stored SpdEntryNode)
  | .direction => do
    let s ← d.stringVal
    if s = lit "outbound" then pure (.next { n with policyDir := IPSEC_DIR_OUTBOUND })
    else if s = lit "inbound" then pure (.next { n with policyDir := IPSEC_DIR_INBOUND })
    else pure (.reject n)
  | .reqid => some (.next { n with reqId := d.uint64Val })
  | .antiReplayWindow => some (.next { n with antiReplayWindow := d.uint64Val })
  | .localPrefix => do
    let s ← d.stringVal
    pure (.next { n with localSubnet := s })
  | .remotePrefix => do
    let s ← d.stringVal
    pure (.next { n with remoteSubnet := s })
  | .innerProtocol =>
    if d.uint16Val ≤ 256 then some (.next { n with innerProtocol := d.uint16Val.setWidth 32 })
    else do
      -- as in the reader of SAD entries, the union may hold a pointer
      let s ← d.stringVal
      if s = lit "any" then pure (.next { n with innerProtocol := 256 })
      else pure (.reject { n with innerProtocol := d.uint16Val.setWidth 32 })
  | .start =>
    let n := if has (lit "/local-ports") then { n with srcport := d.uint16Val.setWidth 32 } else n
    let n := if has (lit "/remote-ports") then { n with dstport := d.uint16Val.setWidth 32 } else n
    some (.next n)
  | .action => do
    let s ← d.stringVal
    if s = lit "protect" then pure (.next { n with action := IPSEC_POLICY_PROTECT })
    else if s = lit "bypass" then pure (.next { n with action := IPSEC_POLICY_BYPASS })
    else if s = lit "discard" then pure (.next { n with action := IPSEC_POLICY_DISCARD })
    else pure (.reject n)
  | .extSeqNum => some (.next { n with extSeqNum := d.boolVal })
  | .seqOverflow => some (.next { n with seqOverflow := d.boolVal })
  | .pfpFlag => some (.next { n with pfpFlag := d.boolVal })
  | .statefulFragCheck => some (.next { n with statefulFragCheck := d.boolVal })
  | .mode => do
    let s ← d.stringVal
    if s = lit "transport" then pure (.next { n with ipsecMode := IPSEC_MODE_TRANSPORT })
    else if s = lit "tunnel" then pure (.next { n with ipsecMode := IPSEC_MODE_TUNNEL })
    else pure (.next n)
  | .localEnd => do
    let s ← d.stringVal
    pure (.next { n with tunnelLocal := s })
  | .remoteEnd => do
    let s ← d.stringVal
    pure (.next { n with tunnelRemote := s })
  | .bypassDscp => some (.next { n with bypassDscp := d.boolVal })
  | .ecn => some (.next { n with ecn := d.boolVal })
  | .dfBit => do
    let s ← d.stringVal
    if s = lit "clear" then pure (.next { n with dfBit := IPSEC_DF_BIT_CLEAR })
    else if s = lit "set" then pure (.next { n with dfBit := IPSEC_DF_BIT_SET })
    else if s = lit "copy" then pure (.next { n with dfBit := IPSEC_DF_BIT_COPY })
    else pure (.next n)
  | .protocolParameters => do
    let s ← d.stringVal
    if s = lit "esp" then pure (.next { n with protocolParameters := IPSEC_PROTO_ESP })
    else pure (.next n)
  | .integrity => some (.next { n with integrityAlg := d.int16Val.signExtend 32 })
  | .encryption => some (.next { n with encryptionAlg := d.int16Val.signExtend 32 })
  | .tfcPad => some (.next { n with tfcPad := d.boolVal })

/-- The body of the reader's loop for a value of the entry. -/
def readSpdValue (v : SrVal) (n : SpdEntryNode) : Option (Stored SpdEntryNode) := do
  let name ← strrchr v.xpath 0x2f
  match spdLeafOf name with
  | some leaf => leaf.store (strstr v.xpath) v.toSrData n
  | none => pure (.next n)

/-- `readSPD_entry`: a value it rejects, and a first step that fails, give
`SR_ERR_VALIDATION_FAILED`. -/
def readSpdEntry (it : SrChangeIter) (xpath : CStr) (n : SpdEntryNode) :
    Option (Rc × SrChangeIter × SpdEntryNode) :=
  match srGetChangeNext it with
  | (.error _, it) => some (.error .validationFailed, it, n)
  | (.ok c, it) => do
    match ← readLoop readSpdValue xpath c it n with
    | (it, .next n) => pure (.ok (), it, n)
    | (it, .reject n) => pure (.error .validationFailed, it, n)

end CfgIpsec.Impl
