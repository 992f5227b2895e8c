import CfgIpsec.Impl.Walk

/-!
# Printing a message (`print_sadb_msg`)

Of the texts nothing is kept: what is left is which bytes are read, and that
the times of a current lifetime are printed as local times, which not all of
them have.
-/

namespace CfgIpsec.Impl

/-- The fields of an extension are read, in `n` bytes. -/
def readFields (buf : Bytes) (ext n : Nat) : Option Unit := if ext + n ≤ buf.length then some () else none

/-- `lifetime_print`. `strftime` is not defined on the `NULL` that `localtime`
has for a time without a local one. -/
def lifetimePrint (zone : Int → Int) (buf : Bytes) (type : BitVec 16) (ext : Nat) : Option Unit := do
  readFields buf ext sadbLifetime.size
  if type = SADB_EXT_LIFETIME_CURRENT then
    let addtime ← getLE? buf (ext + 16) 64
    let usetime ← getLE? buf (ext + 24) 64
    let _ ← localtime zone addtime
    if usetime = 0 then pure ()
    else
      let _ ← localtime zone usetime
      pure ()
  else pure ()

/-- The loop of `supported_print`, with `len` bytes left of the algorithms, from
that at `alg` on. -/
def supportedLoop (buf : Bytes) : Nat → Int → Nat → Option Unit
  | 0, len, _ => if len > 0 then none else some ()
  | fuel + 1, len, alg =>
    if len > 0 then do
      readFields buf alg 8
      supportedLoop buf fuel (len - 8) (alg + 8)
    else some ()

/-- `supported_print`. -/
def supportedPrint (buf : Bytes) (ext : Nat) : Option Unit := do
  let supLen ← getLE? buf ext 16
  let len : Int := 8 * supLen.toNat - 8
  if len = 0 then pure () else supportedLoop buf len.toNat len (ext + 8)

/-- What the loop does at each extension: `sa_print`, `lifetime_print`,
`address_print`, `key_print` or `supported_print`. -/
def printVisit (zone : Int → Int) (buf : Bytes) (type : BitVec 16) (ext : Nat) (_ : Unit) : Option Unit :=
  if type = SADB_EXT_SA then readFields buf ext sadbSa.size
  else if type = SADB_EXT_LIFETIME_CURRENT ∨ type = SADB_EXT_LIFETIME_HARD ∨ type = SADB_EXT_LIFETIME_SOFT then
    lifetimePrint zone buf type ext
  else if type = SADB_EXT_ADDRESS_SRC ∨ type = SADB_EXT_ADDRESS_DST ∨ type = SADB_EXT_ADDRESS_PROXY then
    readFields buf ext 8
  else if type = SADB_EXT_KEY_AUTH ∨ type = SADB_EXT_KEY_ENCRYPT then readFields buf ext sadbKey.size
  else if type = SADB_EXT_SUPPORTED_AUTH ∨ type = SADB_EXT_SUPPORTED_ENCRYPT then supportedPrint buf ext
  else some ()

/-- `print_sadb_msg`, with at most `fuel` turns. -/
def printSadbMsg (zone : Int → Int) (buf : Bytes) (fuel : Nat) (msglen : Int) : Option Unit :=
  let msg := sadbMsg.get buf
  if msglen ≠ 8 * msg.len.toNat then some ()
  else if msg.version ≠ PF_KEY_V2 then some ()
  else if msglen = sadbMsg.size then some ()
  else walkExts (printVisit zone buf) buf fuel (msglen - sadbMsg.size) sadbMsg.size ()

end CfgIpsec.Impl
