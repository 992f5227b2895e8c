import CfgIpsec.Framework.Patterns
import CfgIpsec.Impl.Walk

/-!
# Addresses and prefixes in text (`ietf-inet-types.yang`)

The patterns of the schema, over the bytes of a text, and the prefix that a text
or an address extension denotes. A byte outside ASCII is taken for part of a
letter.
-/

namespace CfgIpsec.Spec

open Impl Pattern
open CStr (lit)

/-! ## Patterns -/

abbrev Pat := RegularExpression Byte

/-- The bytes from `a` to `b`. -/
def bytesFrom (a b : Byte) : List Byte := (List.range (b.toNat - a.toNat + 1)).map fun i => a + BitVec.ofNat 8 i

/-- `[0-9]` -/
def digit : Pat := oneOf (bytesFrom 0x30 0x39)

/-- `[0-9a-fA-F]` -/
def hexDigitPat : Pat := oneOf (bytesFrom 0x30 0x39 ++ bytesFrom 0x61 0x66 ++ bytesFrom 0x41 0x46)

/-- The text itself. -/
def str (s : String) : Pat := text (lit s).bytes

/-- `[0-9]|[1-9][0-9]|1[0-9][0-9]|2[0-4][0-9]|25[0-5]` -/
def octet : Pat :=
  digit + oneOf (bytesFrom 0x31 0x39) * digit + str "1" * digit * digit +
    str "2" * oneOf (bytesFrom 0x30 0x34) * digit + str "25" * oneOf (bytesFrom 0x30 0x35)

/-- `(octet\.){3}octet` -/
def quadPat : Pat := octet * str "." * (octet * str ".") * (octet * str ".") * octet

/-- `[\p{N}\p{L}]` -/
def zoneByte : Pat :=
  oneOf (bytesFrom 0x30 0x39 ++ bytesFrom 0x41 0x5a ++ bytesFrom 0x61 0x7a ++ bytesFrom 0x80 0xff)

/-- `(%[\p{N}\p{L}]+)?` -/
def zone : Pat := opt (str "%" * more zoneByte)

/-- `([0-9])|([1-2][0-9])|(3[0-2])` -/
def ipv4LenPat : Pat :=
  digit + oneOf (bytesFrom 0x31 0x32) * digit + str "3" * oneOf (bytesFrom 0x30 0x32)

def ipv4Address : Pat := quadPat * zone

def ipv4Prefix : Pat := quadPat * str "/" * ipv4LenPat

/-- `[0-9a-fA-F]{0,4}` -/
def group : Pat := upTo hexDigitPat 4

/-- `25[0-5]|2[0-4][0-9]|[01]?[0-9]?[0-9]` -/
def looseOctet : Pat :=
  str "25" * oneOf (bytesFrom 0x30 0x35) + str "2" * oneOf (bytesFrom 0x30 0x34) * digit +
    opt (oneOf (bytesFrom 0x30 0x31)) * opt digit * digit

def looseQuad : Pat := looseOctet * str "." * (looseOctet * str ".") * (looseOctet * str ".") * looseOctet

/-- The first pattern of IPv6, up to what follows the address. -/
def ipv6Groups : Pat :=
  (str ":" + group) * str ":" * upTo (group * str ":") 5 *
    (opt (group * str ":") * (str ":" + group) + looseQuad)

/-- `[^:]+` -/
def part : Pat := more (oneOf (bytesFrom 0x01 0x39 ++ bytesFrom 0x3b 0xff))

/-- `.` -/
def anyByte : Pat := oneOf (bytesFrom 0x01 0x09 ++ bytesFrom 0x0b 0x0c ++ bytesFrom 0x0e 0xff)

/-- `([^:]+:){6}(([^:]+:[^:]+)|(.*\..*))` -/
def ipv6Full : Pat :=
  (part * str ":") * (part * str ":") * (part * str ":") * (part * str ":") * (part * str ":") * (part * str ":") *
    (part * str ":" * part + anyByte.star * str "." * anyByte.star)

/-- `(([^:]+:)*[^:]+)?` -/
def parts : Pat := opt ((part * str ":").star * part)

/-- `([0-9])|([0-9]{2})|(1[0-1][0-9])|(12[0-8])` -/
def ipv6LenPat : Pat :=
  digit + digit * digit + str "1" * oneOf (bytesFrom 0x30 0x31) * digit + str "12" * oneOf (bytesFrom 0x30 0x38)

/-- The text matches both patterns of `ipv6-address`. -/
def IsIpv6Address (s : CStr) : Prop :=
  s.bytes ∈ (ipv6Groups * zone).matches' ∧
    s.bytes ∈ (ipv6Full + parts * str "::" * parts * opt (str "%" * more anyByte)).matches'

/-- The text matches both patterns of `ipv6-prefix`. -/
def IsIpv6Prefix (s : CStr) : Prop :=
  s.bytes ∈ (ipv6Groups * (str "/" * ipv6LenPat)).matches' ∧
    s.bytes ∈ (ipv6Full + parts * str "::" * parts * (str "/" * more anyByte)).matches'

def IsIpv4Prefix (s : CStr) : Prop := s.bytes ∈ ipv4Prefix.matches'

/-- `ip-prefix`. -/
def IsIpPrefix (s : CStr) : Prop := IsIpv4Prefix s ∨ IsIpv6Prefix s

/-- An IPv4 address without a zone. -/
def IsIpv4NoZone (s : CStr) : Prop := s.bytes ∈ quadPat.matches'

/-- `ip-address`. -/
def IsIpAddress (s : CStr) : Prop := s.bytes ∈ ipv4Address.matches' ∨ IsIpv6Address s

/-! ## Prefixes -/

/-- The dotted notation of an address. -/
def dotted (w x y z : Nat) : Bytes := decimal w ++ 0x2e :: (decimal x ++ 0x2e :: (decimal y ++ 0x2e :: decimal z))

inductive IpPrefix
  | v4 (addr : BitVec 32) (len : Nat)
  /-- The address by its groups of 16 bits. -/
  | v6 (groups : List (BitVec 16)) (len : Nat)
deriving DecidableEq

/-- The address of four numbers. -/
def quad? (bs : Bytes) : Option (BitVec 32) :=
  match (bs.splitOn 0x2e).mapM (numeral 10) with
  | some [w, x, y, z] => some (quad w x y z)
  | _ => none

/-- The groups of a part between colons: a dotted quad is two. -/
def groupOf (bs : Bytes) : Option (List (BitVec 16)) :=
  match (bs.splitOn 0x2e).mapM (numeral 10) with
  | some [w, x, y, z] => some [BitVec.ofNat 16 (256 * w + x), BitVec.ofNat 16 (256 * y + z)]
  | _ => (numeral 16 bs).map fun n => [BitVec.ofNat 16 n]

def groupsOf (bs : Bytes) : Option (List (BitVec 16)) :=
  if bs = [] then some [] else ((bs.splitOn 0x3a).mapM groupOf).map List.flatten

/-- What stands before and after the first `::`. -/
def splitDouble : Bytes → Option (Bytes × Bytes)
  | 0x3a :: 0x3a :: bs => some ([], bs)
  | b :: bs => (splitDouble bs).map fun p => (b :: p.1, p.2)
  | [] => none

/-- The eight groups of an IPv6 address; `::` stands for those that are missing. -/
def ipv6? (bs : Bytes) : Option (List (BitVec 16)) := do
  match splitDouble bs with
  | none =>
    let gs ← groupsOf bs
    if gs.length = 8 then pure gs else none
  | some (l, r) =>
    let gs ← groupsOf l
    let hs ← groupsOf r
    if gs.length + hs.length ≤ 8 then pure (gs ++ List.replicate (8 - (gs.length + hs.length)) 0 ++ hs) else none

/-- The prefix that a text denotes. -/
def prefixOf (s : CStr) : Option IpPrefix := do
  let addr := s.bytes.takeWhile (· ≠ 0x2f)
  let len ← numeral 10 ((s.bytes.dropWhile (· ≠ 0x2f)).drop 1)
  if 0x3a ∈ addr then (ipv6? addr).map (.v6 · len) else (quad? addr).map (.v4 · len)

def AF_INET6 : BitVec 16 := 10

/-- The prefix that an address extension denotes. -/
def extPrefix (bs : Bytes) : Option IpPrefix :=
  let len := (getLE bs 5 8 : Byte).toNat
  if getLE bs 8 16 = AF_INET then some (.v4 (getLE bs 12 32) len)
  else if getLE bs 8 16 = AF_INET6 then some (.v6 ((List.range 8).map fun i => getBE bs (16 + 2 * i) 16) len)
  else none

example : prefixOf (lit "192.168.201.0/24") = some (.v4 (quad 192 168 201 0) 24) := by decide +kernel
example : prefixOf (lit "2001:db8::/32") = some (.v6 [0x2001, 0xdb8, 0, 0, 0, 0, 0, 0] 32) := by decide +kernel
example : prefixOf (lit "::ffff:10.0.0.1/128") = some (.v6 [0, 0, 0, 0, 0, 0xffff, 0xa00, 1] 128) := by decide +kernel

end CfgIpsec.Spec
