import CfgIpsec.Impl.Libc

/-!
# Text utilities (`utils.c`)

`none` is a `NULL` result, or an access the C code must not make.
-/

namespace CfgIpsec.Impl

/-- `get_ip`: what stands before the slash of `address/prefix`. -/
def getIp (ipMask : CStr) : Option CStr := (strtok ipMask 0x2f).map (·.1)

/-- `get_mask`: the number after the slash; without a second token the code
calls `atoi(NULL)`. -/
def getMask (ipMask : CStr) : Option (BitVec 32) := do
  let (_, rest) ← strtok ipMask 0x2f
  let (mask, _) ← strtok rest 0x2f
  pure (atoi mask)

/-- The loop of `remove_all_chars`, with `pr` and `pw` as indices of the
buffer. -/
def removeLoop (c : Byte) : Nat → Bytes → Nat → Nat → Option Bytes
  | 0, _, _, _ => none
  | fuel + 1, str, pr, pw =>
    match str[pr]? with
    | none => none
    | some b =>
      if b = 0 then some (str.set pw 0)
      else removeLoop c fuel (str.set pw b) (pr + 1) (if b ≠ c then pw + 1 else pw)

/-- `remove_all_chars`, on the whole buffer that holds the string. -/
def removeAllChars (str : Bytes) (c : Byte) : Option Bytes :=
  removeLoop c (str.length + 1) str 0 0

/-- `(c % 32 + 9) % 25` for a `char`, which is signed. -/
def hexDigit (c : Byte) : Int := ((c.toInt.tmod 32) + 9).tmod 25

/-- The loop of `hexstr_to_char`: two characters give one byte. -/
def hexPairs : Bytes → Bytes
  | a :: b :: r => BitVec.ofInt 8 (hexDigit a * 16 + hexDigit b) :: hexPairs r
  | _ => []

/-- `hexstr_to_char`: the buffer it returns, or `none` for `NULL`. -/
def hexstrToChar (hexstr : CStr) : Option Bytes := do
  let buf ← removeAllChars (hexstr.bytes ++ [0]) 0x3a
  let hexstr := CStr.ofBuf buf
  if strlen hexstr % 2 ≠ 0 then none else some (hexPairs hexstr.bytes ++ [0])

example : hexstrToChar (.lit "01:23:aB:cD") = some [0x01, 0x23, 0xab, 0xcd, 0] := by decide +kernel
example : getIp (.lit "192.168.201.0/24") = some (.lit "192.168.201.0") := by decide +kernel
example : getMask (.lit "192.168.201.0/24") = some 24 := by decide +kernel

end CfgIpsec.Impl
