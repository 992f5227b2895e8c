import CfgIpsec.Framework.Codec
import CfgIpsec.Impl.Constants

/-!
# The structures of PF_KEY messages

Those of `linux/pfkeyv2.h` (and `struct sockaddr_in`) as they lie in memory:
packed, with the words least significant byte first except where the protocol
has network order. Lengths are in units of 8 bytes, that of an `ipsecrequest`
in bytes.
-/

namespace CfgIpsec.Impl

def u8 : Codec (BitVec 8) := .le 8 rfl
def u16 : Codec (BitVec 16) := .le 16 rfl
def u32 : Codec (BitVec 32) := .le 32 rfl
def u64 : Codec (BitVec 64) := .le 64 rfl
def be16 : Codec (BitVec 16) := .be 16 rfl
def be32 : Codec (BitVec 32) := .be 32 rfl

/-- `struct sadb_msg`. -/
structure SadbMsg where
  version : BitVec 8
  type : BitVec 8
  errno : BitVec 8 := 0
  satype : BitVec 8
  len : BitVec 16 := 0
  reserved : BitVec 16 := 0
  seq : BitVec 32 := 0
  pid : BitVec 32 := 0
deriving DecidableEq

def sadbMsg : Codec SadbMsg :=
  (u8.prod (u8.prod (u8.prod (u8.prod (u16.prod (u16.prod (u32.prod u32))))))).iso
    (fun (a, b, c, d, e, f, g, h) => ⟨a, b, c, d, e, f, g, h⟩)
    (fun m => (m.version, m.type, m.errno, m.satype, m.len, m.reserved, m.seq, m.pid))
    (fun _ => rfl)

/-! ## Extensions

Each starts with its length and its type (`struct sadb_ext`). -/

/-- An extension: its length, its type and the fields `c`. -/
def sadbExt {α : Type} (c : Codec α) : Codec (BitVec 16 × BitVec 16 × α) := u16.prod (u16.prod c)

/-- `struct sadb_sa`. -/
structure SadbSa where
  len : BitVec 16
  exttype : BitVec 16
  spi : BitVec 32
  replay : BitVec 8 := 0
  state : BitVec 8 := 0
  auth : BitVec 8 := 0
  encrypt : BitVec 8 := 0
  flags : BitVec 32 := 0
deriving DecidableEq

def sadbSa : Codec SadbSa :=
  (sadbExt (be32.prod (u8.prod (u8.prod (u8.prod (u8.prod u32)))))).iso
    (fun (a, b, c, d, e, f, g, h) => ⟨a, b, c, d, e, f, g, h⟩)
    (fun s => (s.len, s.exttype, s.spi, s.replay, s.state, s.auth, s.encrypt, s.flags))
    (fun _ => rfl)

/-- `struct sadb_x_sa2`. -/
structure SadbSa2 where
  len : BitVec 16
  exttype : BitVec 16
  mode : BitVec 8
  reserved1 : BitVec 8 := 0
  reserved2 : BitVec 16 := 0
  sequence : BitVec 32 := 0
  reqid : BitVec 32
deriving DecidableEq

def sadbSa2 : Codec SadbSa2 :=
  (sadbExt (u8.prod (u8.prod (u16.prod (u32.prod u32))))).iso
    (fun (a, b, c, d, e, f, g) => ⟨a, b, c, d, e, f, g⟩)
    (fun s => (s.len, s.exttype, s.mode, s.reserved1, s.reserved2, s.sequence, s.reqid))
    (fun _ => rfl)

/-- `struct sadb_lifetime`. -/
structure SadbLifetime where
  len : BitVec 16
  exttype : BitVec 16
  allocations : BitVec 32
  bytes : BitVec 64
  addtime : BitVec 64
  usetime : BitVec 64
deriving DecidableEq

def sadbLifetime : Codec SadbLifetime :=
  (sadbExt (u32.prod (u64.prod (u64.prod u64)))).iso
    (fun (a, b, c, d, e, f) => ⟨a, b, c, d, e, f⟩)
    (fun s => (s.len, s.exttype, s.allocations, s.bytes, s.addtime, s.usetime))
    (fun _ => rfl)

/-- `struct sockaddr_in`. -/
structure SockaddrIn where
  family : BitVec 16
  port : BitVec 16
  addr : BitVec 32
  zero : BitVec 64
deriving DecidableEq

def sockaddrIn : Codec SockaddrIn :=
  (u16.prod (be16.prod (u32.prod u64))).iso
    (fun (a, b, c, d) => ⟨a, b, c, d⟩)
    (fun s => (s.family, s.port, s.addr, s.zero))
    (fun _ => rfl)

/-- `struct sadb_address` with the socket address that follows it. -/
structure SadbAddress where
  len : BitVec 16
  exttype : BitVec 16
  proto : BitVec 8
  prefixlen : BitVec 8
  reserved : BitVec 16 := 0
  sockaddr : SockaddrIn
deriving DecidableEq

def sadbAddress : Codec SadbAddress :=
  (sadbExt (u8.prod (u8.prod (u16.prod sockaddrIn)))).iso
    (fun (a, b, c, d, e, f) => ⟨a, b, c, d, e, f⟩)
    (fun s => (s.len, s.exttype, s.proto, s.prefixlen, s.reserved, s.sockaddr))
    (fun _ => rfl)

/-- `struct sadb_key`, the head of a key extension. -/
structure SadbKey where
  len : BitVec 16
  exttype : BitVec 16
  bits : BitVec 16
  reserved : BitVec 16
deriving DecidableEq

def sadbKey : Codec SadbKey :=
  (sadbExt (u16.prod u16)).iso
    (fun (a, b, c, d) => ⟨a, b, c, d⟩)
    (fun s => (s.len, s.exttype, s.bits, s.reserved))
    (fun _ => rfl)

/-- `struct sadb_x_policy`. -/
structure SadbPolicy where
  len : BitVec 16
  exttype : BitVec 16
  type : BitVec 16
  dir : BitVec 8
  reserved : BitVec 8 := 0
  id : BitVec 32 := 0
  priority : BitVec 32 := 0
deriving DecidableEq

def sadbPolicy : Codec SadbPolicy :=
  (sadbExt (u16.prod (u8.prod (u8.prod (u32.prod u32))))).iso
    (fun (a, b, c, d, e, f, g) => ⟨a, b, c, d, e, f, g⟩)
    (fun s => (s.len, s.exttype, s.type, s.dir, s.reserved, s.id, s.priority))
    (fun _ => rfl)

/-- `struct sadb_x_ipsecrequest`, which stands inside a policy. -/
structure SadbIpsecrequest where
  len : BitVec 16
  proto : BitVec 16
  mode : BitVec 8
  level : BitVec 8
  reserved1 : BitVec 16 := 0
  reqid : BitVec 32
  reserved2 : BitVec 32 := 0
deriving DecidableEq

def sadbIpsecrequest : Codec SadbIpsecrequest :=
  (u16.prod (u16.prod (u8.prod (u8.prod (u16.prod (u32.prod u32)))))).iso
    (fun (a, b, c, d, e, f, g) => ⟨a, b, c, d, e, f, g⟩)
    (fun s => (s.len, s.proto, s.mode, s.level, s.reserved1, s.reqid, s.reserved2))
    (fun _ => rfl)

/-! ## Received messages

The loops over a received message look at fields of the bytes in their buffer. -/

/-- `((struct sadb_ext *) p)->sadb_ext_len`. -/
def extLen (buf : Bytes) (p : Nat) : Option (BitVec 16) := getLE? buf p 16

/-- `((struct sadb_ext *) p)->sadb_ext_type`. -/
def extType (buf : Bytes) (p : Nat) : Option (BitVec 16) := getLE? buf (p + 2) 16

end CfgIpsec.Impl
