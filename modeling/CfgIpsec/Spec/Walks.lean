import CfgIpsec.Framework.Cursor
import CfgIpsec.Impl.Addpolicy
import CfgIpsec.Impl.Lifetime
import CfgIpsec.Impl.Parse
import CfgIpsec.Spec.Expiry

/-!
# Walks over received messages

What a walk sees of the memory it is in (`Frame`), which extensions it visits
(`traced`), and when it ends: `NoEmptyExt` and `NoEmptyRequest` say that going
on by the lengths told never comes to a place that tells none, and
`LifetimesPrint` that it comes to no current lifetime which cannot be printed.
-/

namespace CfgIpsec.Spec

open Impl Cursor

/-- The memory a walk is in: its buffer, and what lies behind, further than any
length of 16 bits reaches. -/
structure Frame where
  buf : Buffer
  behind : Bytes
  room : 2 ^ 20 ≤ behind.length

/-- What lies behind is zero. -/
def Frame.zeros : Frame := ⟨.zeros, List.replicate (2 ^ 20) 0, (List.length_replicate ..).ge⟩

/-- The memory after a datagram was read. -/
def Frame.read (f : Frame) (d : Bytes) : Bytes := (readInto f.buf (some d)).1.bytes ++ f.behind

/-- How many bytes of a datagram are read. -/
def received (d : Bytes) : Nat := (d.take PFKEY_BUFFER_SIZE).length

/-! ## Visits -/

/-- A walk that also notes where the extensions start. -/
def traced {σ : Type} (visit : BitVec 16 → Nat → σ → Option σ) (type : BitVec 16) (ext : Nat) (st : σ × List Nat) :
    Option (σ × List Nat) :=
  (visit type ext st.1).map (·, st.2 ++ [ext])

/-- The walk over `n` bytes, with at most so many turns. -/
def walk {σ : Type} (visit : BitVec 16 → Nat → σ → Option σ) (mem : Bytes) (n fuel : Nat) (st : σ) : Option σ :=
  walkExts visit mem fuel (n - sadbMsg.size) sadbMsg.size st

/-- The extensions in `exts`, in the order of the message. -/
structure InOrder (exts : PfkeyMsg) (offs : List Nat) : Prop where
  sorted : offs.Pairwise (· < ·)
  mem_iff : ∀ p, p ∈ offs ↔ ∃ t, exts t = some p

/-! ## Ends -/

/-- The walk over `n` bytes ends. -/
def WalkEnds {σ : Type} (visit : BitVec 16 → Nat → σ → Option σ) (mem : Bytes) (n : Nat) (st : σ) : Prop :=
  ∃ fuel, (walk visit mem n fuel st).isSome

/-- What the loop of `pf_addpolicy` does at each extension, when what
`sock_ntop` gives for the socket address at `p` points to the string `ntop p`. -/
def dumpVisitWith (ntop : Nat → CStr) (mem : Bytes) (type : BitVec 16) (ext : Nat) (t : Dump) : Option Dump :=
  if type = SADB_EXT_ADDRESS_SRC then some { t with localSubnet := ntop (ext + 8) }
  else if type = SADB_EXT_ADDRESS_DST then some { t with remoteSubnet := ntop (ext + 8) }
  else dumpVisit mem type ext t

/-- How far a walk goes on from the extension at `p`. -/
def extHop (mem : Bytes) (p : Nat) : Nat := 8 * (getLE mem p 16).toNat

/-- No extension that starts before the end of the message has no length. -/
def NoEmptyExt (mem : Bytes) (n : Nat) : Prop :=
  ∀ p, Cursor.Reached (extHop mem) n sadbMsg.size p → p < n → extHop mem p ≠ 0

/-- Every current lifetime that starts before the end of the message can be
printed. -/
def LifetimesPrint (zone : Int → Int) (mem : Bytes) (n : Nat) : Prop :=
  ∀ p, Cursor.Reached (extHop mem) n sadbMsg.size p → p < n → getLE mem (p + 2) 16 = SADB_EXT_LIFETIME_CURRENT →
    HasLocalTimes zone (getLE mem (p + 16) 64) (getLE mem (p + 24) 64)

/-- What a datagram left in memory passes the checks of `print_sadb_msg`. -/
structure PassesChecks (mem : Bytes) (n : Nat) : Prop where
  len : n = 8 * (sadbMsg.get mem).len.toNat
  version : (sadbMsg.get mem).version = PF_KEY_V2

end CfgIpsec.Spec
