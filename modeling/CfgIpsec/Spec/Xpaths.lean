import CfgIpsec.Impl.Buffers

/-!
# XPaths that name an entry

The predicates of a location path (`pathTests`), as far as they compare a key
with a literal. A literal has no escapes: it ends at the first quote of its
kind.
-/

namespace CfgIpsec.Spec

open Impl
open CStr (lit)

/-! ## Predicates -/

/-- The bytes before the first `c`, and those after it. -/
def cutAt (c : Byte) : Bytes → Option (Bytes × Bytes)
  | [] => none
  | b :: bs => if b = c then some ([], bs) else (cutAt c bs).map fun r => (b :: r.1, r.2)

/-- A predicate `[key='literal']` or `[key="literal"]`. -/
structure KeyTest where
  key : Bytes
  literal : Bytes
deriving DecidableEq

/-- A predicate after its bracket, and what follows it. -/
def keyTest? (bs : Bytes) : Option (KeyTest × Bytes) := do
  let (key, bs) ← cutAt 0x3d bs
  let quote ← bs.head?
  if quote = 0x27 ∨ quote = 0x22 then
    match ← cutAt quote bs.tail with
    | (literal, 0x5d :: bs) => pure (⟨key, literal⟩, bs)
    | _ => none
  else none

/-- The predicates of a path. -/
def pathTests : Nat → Bytes → Option (List KeyTest)
  | 0, _ => none
  | _ + 1, [] => some []
  | fuel + 1, b :: bs =>
    if b = 0x2f then pathTests fuel (bs.dropWhile fun b => b ≠ 0x2f ∧ b ≠ 0x5b)
    else if b = 0x5b then do
      let (t, bs) ← keyTest? bs
      let ts ← pathTests fuel bs
      pure (t :: ts)
    else none

/-- The path has one predicate, which the entry `name` meets, and no other. -/
def Addresses (path name : CStr) : Prop :=
  ∃ t, pathTests (path.bytes.length + 1) path.bytes = some [t] ∧
    ∀ other : CStr, t = ⟨(lit "name").bytes, other.bytes⟩ ↔ other = name

/-! ## Entries -/

/-- The leaves of an entry that `get_sad_state` makes paths for. -/
def stateLeaves : List CStr := [lit "/bytes", lit "/packets", lit "/idle", lit "/time"]

/-- The paths built for the entry `name` fit their buffers and address it. -/
structure AddressesEntry (name : CStr) : Prop where
  delete : ∃ path, deleteXpath name = some path ∧ Addresses path name
  state : ∀ leaf ∈ stateLeaves, ∃ path, statePath stateXpath name leaf = some path ∧ Addresses path name

end CfgIpsec.Spec
