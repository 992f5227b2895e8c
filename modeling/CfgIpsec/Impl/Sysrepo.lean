import CfgIpsec.Impl.Libc

/-!
# What the daemon gets from sysrepo

A changed value has the xpath of its node and a union of which the members
share their storage: `raw` is its eight bytes, and `text` what its pointer
members point to, when they hold a pointer. Every integer member is the low
bits of `raw`. An iterator is the list of what its steps give; after the last
one each step reports that nothing is left.
-/

namespace CfgIpsec.Impl

/-- The results of sysrepo calls other than `SR_ERR_OK`. -/
inductive SrError
  | notFound
  | validationFailed
  | operationFailed
  | other (code : Nat)
deriving DecidableEq

/-- A result code; `SR_ERR_OK` is `.ok ()`. -/
abbrev Rc := Except SrError Unit

/-- The union of a `sr_val_t`. -/
structure SrData where
  raw : BitVec 64
  text : Option CStr
deriving DecidableEq

namespace SrData

variable (d : SrData)

def uint64Val : BitVec 64 := d.raw
def uint32Val : BitVec 32 := d.raw.setWidth 32
def uint16Val : BitVec 16 := d.raw.setWidth 16
def int32Val : BitVec 32 := d.raw.setWidth 32
def int16Val : BitVec 16 := d.raw.setWidth 16
def boolVal : Bool := d.raw.setWidth 8 ≠ 0

/-- `string_val`; following it when it holds no pointer is not defined. -/
def stringVal : Option CStr := d.text

end SrData

structure SrVal extends SrData where
  xpath : CStr
deriving DecidableEq

inductive SrChangeOper
  | created
  | modified
  | deleted
  | moved
deriving DecidableEq

/-- A change, with the values sysrepo hands out with it. -/
structure SrChange where
  oper : SrChangeOper
  oldValue : Option SrVal
  newValue : Option SrVal
deriving DecidableEq

/-- The change that creates a value. -/
def SrVal.created (v : SrVal) : SrChange := ⟨.created, none, some v⟩

/-- The change that deletes a value. -/
def SrVal.deleted (v : SrVal) : SrChange := ⟨.deleted, some v, none⟩

/-- The value the readers look at. -/
def SrChange.value (c : SrChange) : Option SrVal :=
  if c.oper = .created then c.newValue else c.oldValue

/-- `sr_change_iter_t`. -/
abbrev SrChangeIter := List (Except SrError SrChange)

/-- `sr_get_change_next`. -/
def srGetChangeNext : SrChangeIter → Except SrError SrChange × SrChangeIter
  | [] => (.error .notFound, [])
  | r :: it => (r, it)

/-! ## Reading the values of an entry -/

/-- A test on `name`, the last component of an xpath. -/
inductive LeafTest
  /-- `strcmp(s, name) == 0`. -/
  | eq (s : CStr)
  /-- `strncmp(s, name, strlen(s)) == 0`. -/
  | starts (s : CStr)
  /-- `strstr(name, s) != NULL`. -/
  | contains (s : CStr)

def LeafTest.holds (name : CStr) : LeafTest → Bool
  | .eq s => name = s
  | .starts s => startsWith name s
  | .contains s => strstr name s

/-- The leaf of the first test that holds. -/
def leafOf {L : Type} (tests : List (LeafTest × L)) (name : CStr) : Option L :=
  (tests.find? (·.1.holds name)).map (·.2)

/-- What a reader does with one value: it goes on with the node, or gives up
with it. -/
inductive Stored (α : Type)
  | next (node : α)
  | reject (node : α)
deriving DecidableEq

/-- The loop of the readers, from the change `c` on, with the body `store`. A
change that is not under `xpath` ends it and is lost. -/
def readLoop {α : Type} (store : SrVal → α → Option (Stored α)) (xpath : CStr) :
    SrChange → SrChangeIter → α → Option (SrChangeIter × Stored α)
  | c, it, n => do
    let value ← c.value
    if startsWith value.xpath xpath then
      match ← store value n with
      | .reject n => pure (it, .reject n)
      | .next n =>
        match it with
        | .ok c :: it => readLoop store xpath c it n
        | .error _ :: it => pure (it, .next n)
        | [] => pure ([], .next n)
    else pure (it, .next n)

end CfgIpsec.Impl
