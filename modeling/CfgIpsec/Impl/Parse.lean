import CfgIpsec.Impl.Wire

/-!
# Parsing a message (`parse_pfkey_message`)

The parser notes where each extension starts. `len` counts the units left and
`ext` is a position in the buffer of the message; a field past the buffer is
an access the code must not make (`none`).
-/

namespace CfgIpsec.Impl

/-- The extensions of a `pfkey_msg_t`: where the one of each type starts, or
`none` for `NULL`. -/
abbrev PfkeyMsg := BitVec 16 → Option Nat

/-- The parser's loop. Each of its exits leaves the units not consumed. -/
def parseLoop (buf : Bytes) : Nat → Nat → Nat → PfkeyMsg → Option (Nat × PfkeyMsg)
  | 0, _, _, _ => none
  | fuel + 1, len, ext, out =>
    if 1 ≤ len then do
      let extlen ← extLen buf ext
      if extlen.toNat < 1 ∨ len < extlen.toNat then pure (len, out)
      else do
        let type ← extType buf ext
        if type > SADB_EXT_MAX ∨ type = 0 then pure (len, out)
        else if (out type).isSome then pure (len, out)
        else
          parseLoop buf fuel (len - extlen.toNat) (ext + 8 * extlen.toNat)
            (Function.update out type (some ext))
    else some (len, out)

/-- `parse_pfkey_message`: its result and `out`. `len` is a `size_t`. Every
turn of the loop moves on in the buffer, so it makes no more turns than that
has bytes. -/
def parsePfkeyMessage (buf : Bytes) : Option (Nat × PfkeyMsg) := do
  let msglen ← getLE? buf 4 16
  let len := (msglen.setWidth 64 - BitVec.ofNat 64 (sadbMsg.size / 8)).toNat
  let (len, out) ← parseLoop buf (buf.length + 1) len sadbMsg.size fun _ => none
  pure (if len ≠ 0 then 1 else 0, out)

end CfgIpsec.Impl
