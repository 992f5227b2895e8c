import CfgIpsec.Framework.Bytes

/-!
# Constants

Those of `constants.h` and of the system headers that the modelled functions
use, at the width of the field or comparison they stand in.
-/

namespace CfgIpsec.Impl

def PF_KEY_V2 : Byte := 2
def AF_INET : BitVec 16 := 2
def IPPROTO_ESP : BitVec 16 := 50

/-- The size of the buffers messages are built in and read into. -/
def PFKEY_BUFFER_SIZE : Nat := 4096

/-- The capacity of names, and of the buffers paths are put together in. -/
def MAX_PATH : Nat := 200

/-- The capacity of the buffers of addresses and prefixes. -/
def MAX_IP : Nat := 40

/-- The capacity of the key buffers of a node. -/
def MAX_KEY : Nat := 1024

/-! ## Messages -/

def SADB_ADD : Byte := 3
def SADB_DELETE : Byte := 4
def SADB_GET : Byte := 5
def SADB_ACQUIRE : Byte := 6
def SADB_REGISTER : Byte := 7
def SADB_EXPIRE : Byte := 8
def SADB_DUMP : Byte := 10
def SADB_X_SPDADD : Byte := 14
def SADB_X_SPDDELETE : Byte := 15
def SADB_X_SPDDUMP : Byte := 18

def SADB_SATYPE_UNSPEC : Byte := 0
def SADB_SATYPE_ESP : Byte := 3
def SADB_SASTATE_MATURE : Byte := 1

/-! ## Extensions -/

def SADB_EXT_SA : BitVec 16 := 1
def SADB_EXT_LIFETIME_CURRENT : BitVec 16 := 2
def SADB_EXT_LIFETIME_HARD : BitVec 16 := 3
def SADB_EXT_LIFETIME_SOFT : BitVec 16 := 4
def SADB_EXT_ADDRESS_SRC : BitVec 16 := 5
def SADB_EXT_ADDRESS_DST : BitVec 16 := 6
def SADB_EXT_ADDRESS_PROXY : BitVec 16 := 7
def SADB_EXT_KEY_AUTH : BitVec 16 := 8
def SADB_EXT_KEY_ENCRYPT : BitVec 16 := 9
def SADB_EXT_SUPPORTED_AUTH : BitVec 16 := 14
def SADB_EXT_SUPPORTED_ENCRYPT : BitVec 16 := 15
def SADB_X_EXT_POLICY : BitVec 16 := 18
def SADB_X_EXT_SA2 : BitVec 16 := 19
def SADB_EXT_MAX : BitVec 16 := 26

/-! ## Algorithms -/

def SADB_EALG_NONE : BitVec 32 := 0
def SADB_EALG_DESCBC : BitVec 32 := 2
def SADB_X_EALG_AESCBC : BitVec 32 := 12
def SADB_AALG_NONE : BitVec 32 := 0

def EALG_DESCBC_KEY_BITS : Nat := 64
def EALG_3DESCBC_KEY_BITS : Nat := 192
def EAL_AES_KEY_BITS : Nat := 256
def AALG_MD5HMAC_KEY_BITS : Nat := 160
def AALG_SHA1HMAC_KEY_BITS : Nat := 160

/-! ## Policies and modes -/

def IPSEC_MODE_TRANSPORT : BitVec 16 := 1
def IPSEC_MODE_TUNNEL : BitVec 16 := 2
def IPSEC_PROTO_ESP : BitVec 16 := 50

def IPSEC_DF_BIT_CLEAR : BitVec 16 := 0
def IPSEC_DF_BIT_SET : BitVec 16 := 1
def IPSEC_DF_BIT_COPY : BitVec 16 := 2

def IPSEC_DIR_INBOUND : BitVec 16 := 1
def IPSEC_DIR_OUTBOUND : BitVec 16 := 2
def IPSEC_DIR_FORWARD : BitVec 16 := 3

def IPSEC_LEVEL_REQUIRE : Byte := 2
def IPSEC_LEVEL_UNIQUE : Byte := 3

def IPSEC_POLICY_DISCARD : BitVec 16 := 0
def IPSEC_POLICY_PROTECT : BitVec 16 := 2
def IPSEC_POLICY_BYPASS : BitVec 16 := 4

end CfgIpsec.Impl
