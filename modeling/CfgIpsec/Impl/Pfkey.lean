import CfgIpsec.Impl.Node
import CfgIpsec.Impl.Utils
import CfgIpsec.Impl.Wire

/-!
# The requests sent to the kernel (`pfkeyv2_entry.c`)

Each builder fills a zeroed buffer from its start; the fields it does not
assign stay zero. What `malloc` left in the last bytes of each
`struct sockaddr_in` is part of the environment of a call (`MsgEnv`,
`PolicyEnv`). `none` is an access the code must not make: a `NULL` string, or
bytes past the buffer.
-/

namespace CfgIpsec.Impl

/-- The process and the unset bytes of the two socket addresses of a request. -/
structure MsgEnv where
  pid : BitVec 32
  src : BitVec 64
  dst : BitVec 64

/-- A message with the extensions `exts`: `msg->sadb_msg_len = len / 8`. -/
def message (msg : SadbMsg) (exts : Bytes) : Bytes :=
  sadbMsg.put { msg with len := BitVec.ofNat 16 ((sadbMsg.size + exts.length) / 8) } ++ exts

/-- `sadb_msg_satype`, which only ESP sets. -/
def satypeOf (protocolParameters : BitVec 16) : BitVec 8 :=
  if protocolParameters = IPPROTO_ESP then SADB_SATYPE_ESP else SADB_SATYPE_UNSPEC

/-- `pf_setsadbaddr`: the extension it writes, with the unset bytes `zero` of
its socket address. -/
def pfSetsadbaddr (zero : BitVec 64) (exttype : BitVec 16) (protocol prefixlen port : BitVec 32)
    (ip : CStr) : SadbAddress where
  len := 3
  exttype := exttype
  proto := protocol.setWidth 8
  prefixlen := prefixlen.setWidth 8
  sockaddr := { family := AF_INET, port := port.setWidth 16, addr := inetAddr ip, zero := zero }

/-- The address extension of a subnet. -/
def subnetAddr (zero : BitVec 64) (exttype : BitVec 16) (protocol port : BitVec 32) (subnet : CStr) :
    Option SadbAddress := do
  let mask ← getMask subnet
  let ip ← getIp subnet
  pure (pfSetsadbaddr zero exttype protocol mask port ip)

/-! ## Keys

A key is copied with the length of its string, whatever room its extension
has: what lies past the extension stays in the buffer for the next one. -/

/-- The buffer of `pf_addsad`: what lies before `p` and what lies from `p` on. -/
structure Buf where
  done : Bytes
  rest : Bytes

/-- The buffer after `done` was written to it, past the header of the message. -/
def Buf.start (done : Bytes) : Buf :=
  ⟨done, List.replicate (PFKEY_BUFFER_SIZE - sadbMsg.size - done.length) 0⟩

/-- A key extension of `len` units at `p`, and `p` moved past it. -/
def Buf.key (b : Buf) (exttype : BitVec 16) (len bits : Nat) (key : CStr) : Option Buf :=
  let ext := sadbKey.put ⟨BitVec.ofNat 16 len, exttype, BitVec.ofNat 16 bits, 0⟩ ++ key.bytes
  if ext.length ≤ b.rest.length ∧ 8 * len ≤ b.rest.length then
    let rest := ext ++ b.rest.drop ext.length
    some ⟨b.done ++ rest.take (8 * len), rest.drop (8 * len)⟩
  else none

/-- `sadb_key_len` for a key of `bits`. -/
def keyLen (bits : Nat) : Nat := (sadbKey.size + bits / 8 + 7) / 8

/-- A key extension: `sadb_key_len` and `sadb_key_bits`. -/
structure KeyArea where
  len : Nat
  bits : Nat

/-- The extension `KEY_ENCRYPT` of an algorithm. -/
def encryptKeyArea (alg : BitVec 32) : KeyArea :=
  if alg = SADB_EALG_DESCBC then ⟨keyLen EALG_DESCBC_KEY_BITS, EALG_DESCBC_KEY_BITS⟩
  else if alg = SADB_X_EALG_AESCBC then ⟨keyLen EALG_3DESCBC_KEY_BITS, EAL_AES_KEY_BITS⟩
  else ⟨keyLen EALG_3DESCBC_KEY_BITS, EALG_3DESCBC_KEY_BITS⟩

/-- The extension `KEY_AUTH` of an algorithm, which is compared with a number
of bits. -/
def authKeyArea (alg : BitVec 32) : KeyArea :=
  if alg = BitVec.ofNat 32 AALG_MD5HMAC_KEY_BITS then
    ⟨keyLen AALG_MD5HMAC_KEY_BITS, AALG_MD5HMAC_KEY_BITS⟩
  else ⟨keyLen AALG_SHA1HMAC_KEY_BITS, AALG_SHA1HMAC_KEY_BITS⟩

def encryptKey (n : SadEntryNode) (b : Buf) : Option Buf :=
  let area := encryptKeyArea n.encryptionAlg
  if n.encryptionAlg ≠ SADB_EALG_NONE then
    b.key SADB_EXT_KEY_ENCRYPT area.len area.bits n.encryptionKey
  else some b

def authKey (n : SadEntryNode) (b : Buf) : Option Buf :=
  let area := authKeyArea n.integrityAlg
  if n.integrityAlg ≠ SADB_AALG_NONE then
    b.key SADB_EXT_KEY_AUTH area.len area.bits n.integrityKey
  else some b

/-! ## Security associations -/

/-- The source and the destination of `pf_addsad`. -/
def sadAddrs (e : MsgEnv) (n : SadEntryNode) : Option (SadbAddress × SadbAddress) :=
  if n.ipsecMode = IPSEC_MODE_TUNNEL then
    some (pfSetsadbaddr e.src SADB_EXT_ADDRESS_SRC n.innerProtocol 32 n.srcport n.tunnelLocal,
      pfSetsadbaddr e.dst SADB_EXT_ADDRESS_DST n.innerProtocol 32 n.dstport n.tunnelRemote)
  else do
    let src ← subnetAddr e.src SADB_EXT_ADDRESS_SRC n.innerProtocol n.srcport n.localSubnet
    let dst ← subnetAddr e.dst SADB_EXT_ADDRESS_DST n.innerProtocol n.dstport n.remoteSubnet
    pure (src, dst)

def saExt (n : SadEntryNode) : SadbSa where
  len := 2
  exttype := SADB_EXT_SA
  spi := n.spi.setWidth 32
  replay := n.antiReplayWindow.setWidth 8
  state := SADB_SASTATE_MATURE
  auth := n.integrityAlg.setWidth 8
  encrypt := n.encryptionAlg.setWidth 8
  flags := 0

def sa2Ext (n : SadEntryNode) : SadbSa2 where
  len := 2
  exttype := SADB_X_EXT_SA2
  mode := n.ipsecMode.setWidth 8
  reqid := n.reqId.setWidth 32

def hardExt (n : SadEntryNode) : SadbLifetime where
  len := 4
  exttype := SADB_EXT_LIFETIME_HARD
  allocations := n.lftPacketsHard.setWidth 32
  bytes := n.lftBytesHard
  addtime := n.lftTimeHard
  usetime := n.lftIdleHard

def softExt (n : SadEntryNode) : SadbLifetime where
  len := 4
  exttype := SADB_EXT_LIFETIME_SOFT
  allocations := n.lftPacketsSoft.setWidth 32
  bytes := n.lftBytesSoft
  addtime := n.lftTimeSoft
  usetime := n.lftIdleSoft

/-- `pf_addsad`: the message it sends. -/
def pfAddsad (e : MsgEnv) (n : SadEntryNode) : Option Bytes := do
  let (src, dst) ← sadAddrs e n
  let exts := [sadbSa.put (saExt n), sadbSa2.put (sa2Ext n), sadbLifetime.put (hardExt n),
    sadbLifetime.put (softExt n), sadbAddress.put src, sadbAddress.put dst]
  let b ← encryptKey n (.start exts.flatten)
  let b ← authKey n b
  pure (message
    { version := PF_KEY_V2, type := SADB_ADD, satype := satypeOf n.protocolParameters, pid := e.pid }
    b.done)

/-- The message of `pf_delsad` and of `pf_getsad`. -/
def sadRequest (type : BitVec 8) (e : MsgEnv) (n : SadEntryNode) : Option Bytes := do
  let src ← subnetAddr e.src SADB_EXT_ADDRESS_SRC n.innerProtocol n.srcport n.localSubnet
  let dst ← subnetAddr e.dst SADB_EXT_ADDRESS_DST n.innerProtocol n.dstport n.remoteSubnet
  let sa : SadbSa := { len := 2, exttype := SADB_EXT_SA, spi := n.spi.setWidth 32 }
  let exts := [sadbSa.put sa, sadbAddress.put src, sadbAddress.put dst]
  pure (message
    { version := PF_KEY_V2, type := type, satype := satypeOf n.protocolParameters, pid := e.pid }
    exts.flatten)

/-- `pf_delsad`. -/
def pfDelsad (e : MsgEnv) (n : SadEntryNode) : Option Bytes := sadRequest SADB_DELETE e n

/-- `pf_getsad`. -/
def pfGetsad (e : MsgEnv) (n : SadEntryNode) : Option Bytes := sadRequest SADB_GET e n

/-! ## Policies -/

/-- The process and the unset bytes of the four socket addresses of
`pf_addpolicy`. -/
structure PolicyEnv extends MsgEnv where
  tunnelSrc : BitVec 64
  tunnelDst : BitVec 64

/-- The socket addresses that follow the request in tunnel mode. -/
def tunnelAddrs (e : PolicyEnv) (n : SpdEntryNode) : Bytes :=
  if n.ipsecMode = IPSEC_MODE_TUNNEL then
    sockaddrIn.put ⟨AF_INET, 0, inetAddr n.tunnelLocal, e.tunnelSrc⟩ ++
      sockaddrIn.put ⟨AF_INET, 0, inetAddr n.tunnelRemote, e.tunnelDst⟩
  else []

/-- The policy extension of `pf_addpolicy` with the request inside it. -/
def policyExt (e : PolicyEnv) (n : SpdEntryNode) : Bytes :=
  let socks := tunnelAddrs e n
  let reqLen := sadbIpsecrequest.size + socks.length
  sadbPolicy.put {
    len := BitVec.ofNat 16 (sadbPolicy.size / 8 + reqLen / 8)
    exttype := SADB_X_EXT_POLICY
    type := n.action
    dir := n.policyDir.setWidth 8
    id := n.index
    priority := 0 } ++
  sadbIpsecrequest.put {
    len := BitVec.ofNat 16 reqLen
    proto := n.protocolParameters
    mode := n.ipsecMode.setWidth 8
    level := if n.reqId ≠ 0 then IPSEC_LEVEL_UNIQUE else IPSEC_LEVEL_REQUIRE
    reqid := n.reqId.setWidth 32 } ++
  socks

/-- The message `pf_addpolicy` adds a policy with. -/
def addpolicyMessage (e : PolicyEnv) (n : SpdEntryNode) : Option Bytes := do
  let src ← subnetAddr e.src SADB_EXT_ADDRESS_SRC n.innerProtocol n.srcport n.localSubnet
  let dst ← subnetAddr e.dst SADB_EXT_ADDRESS_DST n.innerProtocol n.dstport n.remoteSubnet
  pure (message
    { version := PF_KEY_V2, type := SADB_X_SPDADD, satype := satypeOf n.protocolParameters,
      pid := e.pid }
    [policyExt e n, sadbAddress.put src, sadbAddress.put dst].flatten)

/-- `pf_delpolicy`. -/
def pfDelpolicy (e : MsgEnv) (n : SpdEntryNode) : Option Bytes := do
  let src ← subnetAddr e.src SADB_EXT_ADDRESS_SRC n.innerProtocol n.srcport n.localSubnet
  let dst ← subnetAddr e.dst SADB_EXT_ADDRESS_DST n.innerProtocol n.dstport n.remoteSubnet
  let policy : SadbPolicy := {
    len := 2
    exttype := SADB_X_EXT_POLICY
    type := n.action
    dir := n.policyDir.setWidth 8 }
  pure (message
    { version := PF_KEY_V2, type := SADB_X_SPDDELETE, satype := satypeOf n.protocolParameters }
    [sadbPolicy.put policy, sadbAddress.put src, sadbAddress.put dst].flatten)

/-- The request `pf_addpolicy` asks the kernel for its policies with. -/
def spddumpMessage (pid : BitVec 32) (n : SpdEntryNode) : Bytes :=
  message { version := PF_KEY_V2, type := SADB_X_SPDDUMP, satype := satypeOf n.protocolParameters,
            pid := pid } []

end CfgIpsec.Impl
