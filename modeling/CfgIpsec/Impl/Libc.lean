import Mathlib.Data.List.TakeWhile
import Mathlib.Data.Nat.Digits.Defs
import CfgIpsec.Framework.Bytes
import CfgIpsec.Framework.Substring

/-!
# C strings and the library functions the daemon calls on them

A `CStr` is what a `char *` denotes: the bytes before the terminating NUL. A
buffer read as a string ends at its first NUL (`CStr.ofBuf`), which is also
what `strcpy` copies. `strcmp(a, b) == 0` is equality of `CStr`s.
-/

namespace CfgIpsec.Impl

/-- A C string: the bytes before the terminating NUL. -/
@[ext] structure CStr where
  bytes : Bytes
  noNul : (0 : Byte) ∉ bytes
deriving DecidableEq

instance : Inhabited CStr := ⟨[], by simp⟩

/-- The string that starts at the beginning of a buffer. -/
def CStr.ofBuf (bs : Bytes) : CStr :=
  ⟨bs.takeWhile (· ≠ 0), fun h => by simpa using List.mem_takeWhile_imp h⟩

/-- A string literal. -/
def CStr.lit (s : String) : CStr := .ofBuf (s.toByteArray.data.toList.map UInt8.toBitVec)

instance : Append CStr where
  append a b := ⟨a.bytes ++ b.bytes, fun h => (List.mem_append.mp h).elim a.noNul b.noNul⟩

@[simp] theorem CStr.bytes_append (a b : CStr) : (a ++ b).bytes = a.bytes ++ b.bytes := rfl

theorem CStr.ofBuf_of_noNul {bs : Bytes} (h : (0 : Byte) ∉ bs) : (CStr.ofBuf bs).bytes = bs := by
  rw [CStr.ofBuf, List.takeWhile_eq_self_iff]
  intro b hb
  simpa using fun e : b = 0 => h (e ▸ hb)

@[simp] theorem CStr.ofBuf_bytes (s : CStr) : CStr.ofBuf s.bytes = s :=
  CStr.ext (CStr.ofBuf_of_noNul s.noNul)

open CStr (lit)

/-- `strlen`. -/
def strlen (s : CStr) : Nat := s.bytes.length

theorem strlen_append (s t : CStr) : strlen (s ++ t) = strlen s + strlen t := by
  simp [strlen]

/-- `strncmp(s, p, strlen(p)) == 0`. -/
def startsWith (s p : CStr) : Bool := p.bytes.isPrefixOf s.bytes

/-- `strstr(s, m) != NULL`. -/
def strstr (s m : CStr) : Bool := hasInfix m.bytes s.bytes

/-- `strrchr(s, c)`, the string from the last `c` on. -/
def strrchr (s : CStr) (c : Byte) : Option CStr := (fromLast c s.bytes).map .ofBuf

def toLower (c : Byte) : Byte := if 0x41 ≤ c ∧ c ≤ 0x5a then c + 0x20 else c

/-- `strcasecmp(a, b) == 0`. -/
def strcaseEq (a b : CStr) : Bool := a.bytes.map toLower == b.bytes.map toLower

/-- `strtok` with the one delimiter `d`: the next token and what `strtok` goes
on with, or `none` for `NULL`. -/
def strtok (s : CStr) (d : Byte) : Option (CStr × CStr) :=
  match s.bytes.dropWhile (· = d) with
  | [] => none
  | bs => some (.ofBuf (bs.takeWhile (· ≠ d)), .ofBuf ((bs.dropWhile (· ≠ d)).drop 1))

/-! ## Numbers -/

def isSpace (c : Byte) : Bool := c = 0x20 || (0x09 ≤ c && c ≤ 0x0d)

def isDigit (c : Byte) : Bool := 0x30 ≤ c && c ≤ 0x39

/-- The value of a string of decimal digits. -/
def decVal (bs : Bytes) : Nat := bs.foldl (fun v c => 10 * v + (c.toNat - 0x30)) 0

/-- `atoi`, which is `(int) strtol(s, NULL, 10)`: the range of `long` is kept by
clamping, that of `int` by truncation. -/
def atoi (s : CStr) : BitVec 32 :=
  let bs := s.bytes.dropWhile isSpace
  let (neg, bs) := match bs with
    | 0x2d :: r => (true, r)
    | 0x2b :: r => (false, r)
    | r => (false, r)
  let v := decVal (bs.takeWhile isDigit)
  if neg then BitVec.ofInt 32 (-(min v (2 ^ 63) : Nat)) else BitVec.ofNat 32 (min v (2 ^ 63 - 1))

/-- A number in decimal, as `%d` prints it. -/
def decimal (n : Nat) : Bytes :=
  if n = 0 then [0x30] else (Nat.digits 10 n).reverse.map fun d => BitVec.ofNat 8 (0x30 + d)

/-! ## Internet addresses

An `in_addr` is kept in network order: the first component of the dotted
notation is the byte at the lowest address. -/

def quad (a b c d : Nat) : BitVec 32 := BitVec.ofNat 32 (a + 256 * (b + 256 * (c + 256 * d)))

def INADDR_NONE : BitVec 32 := 0xffffffff

/-- A digit in a base up to 16. -/
def digitIn (base : Nat) (c : Byte) : Option Nat :=
  let v := if isDigit c then c.toNat - 0x30
    else if 0x61 ≤ c ∧ c ≤ 0x66 then c.toNat - 0x57
    else if 0x41 ≤ c ∧ c ≤ 0x46 then c.toNat - 0x37
    else 16
  if v < base then some v else none

def numeral (base : Nat) (bs : Bytes) : Option Nat :=
  if bs = [] then none
  else bs.foldl (fun v c => do pure (base * (← v) + (← digitIn base c))) (some 0)

/-- One component of the numbers-and-dots notation: hexadecimal after `0x`,
octal after `0`, else decimal. -/
def inetPart : Bytes → Option Nat
  | 0x30 :: x :: bs => if x = 0x78 ∨ x = 0x58 then numeral 16 bs else numeral 8 (x :: bs)
  | bs => numeral 10 bs

/-- `inet_addr`: with fewer than four components the last one fills the bytes
that are left. -/
def inetAddr (s : CStr) : BitVec 32 :=
  match (s.bytes.splitOn 0x2e).mapM inetPart with
  | some [a, b, c, d] => if a < 256 ∧ b < 256 ∧ c < 256 ∧ d < 256 then quad a b c d else INADDR_NONE
  | some [a, b, c] =>
    if a < 256 ∧ b < 256 ∧ c < 2 ^ 16 then quad a b (c / 256) (c % 256) else INADDR_NONE
  | some [a, b] =>
    if a < 256 ∧ b < 2 ^ 24 then quad a (b / 2 ^ 16) (b / 256 % 256) (b % 256) else INADDR_NONE
  | some [a] =>
    if a < 2 ^ 32 then quad (a / 2 ^ 24) (a / 2 ^ 16 % 256) (a / 256 % 256) (a % 256) else INADDR_NONE
  | _ => INADDR_NONE

/-- `inet_ntop(AF_INET, …)`. -/
def inetNtop (a : BitVec 32) : CStr :=
  .ofBuf (decimal (a.toNat % 256) ++ 0x2e :: (decimal (a.toNat / 256 % 256) ++ 0x2e ::
    (decimal (a.toNat / 2 ^ 16 % 256) ++ 0x2e :: decimal (a.toNat / 2 ^ 24))))

/-! ## Times -/

/-- `localtime`: the seconds of the local time, `offset` from that of Greenwich,
or `none` for `NULL`, when an `int` does not hold the year. -/
def localtime (offset : Int → Int) (t : BitVec 64) : Option Int :=
  let seconds := t.toInt + offset t.toInt
  if -67768040609740800 ≤ seconds ∧ seconds ≤ 67768036191676799 then some seconds else none

example : inetAddr (lit "192.168.123.100") = quad 192 168 123 100 := by decide +kernel
example : inetAddr (lit "2001:db8::1") = INADDR_NONE := by decide +kernel
example : inetNtop (quad 10 0 0 200) = lit "10.0.0.200" := by decide +kernel

end CfgIpsec.Impl
