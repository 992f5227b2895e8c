import CfgIpsec.Impl.Entries

/-!
# The change callbacks (`sysrepo_utils.c`)

`sad_entry_change_cb` and `spd_entry_change_cb` are one loop (`changeLoop`)
over different lists. A call meets the iterator sysrepo gives for all changes
of the module, and an environment for each entry it adds or removes, in order.
-/

namespace CfgIpsec.Impl

open CStr (lit)

/-- `get_new_xpath`: the xpath without its last five characters. The
terminator is written one past what it allocates, which the string does not
show. -/
def getNewXpath (xpath : CStr) : Option CStr :=
  if 5 ≤ strlen xpath then
    some (.ofBuf (xpath.bytes.take (strlen xpath - 5)))
  else none

/-- Whether an xpath ends in `name`; the comparison starts four characters
before its end. -/
def endsInName (xpath : CStr) : Option Bool :=
  if 4 ≤ strlen xpath then some (xpath.bytes.drop (strlen xpath - 4) == (lit "name").bytes)
  else none

/-- `new_entry`. -/
def newEntry (c : SrChange) : Option Bool :=
  match c.oper with
  | .created => do endsInName (← c.newValue).xpath
  | .deleted => do endsInName (← c.oldValue).xpath
  | _ => some true

/-- The functions of a list that its callback calls. -/
structure EntryOps (α ρ δ : Type) where
  add : ρ → Store α → SrChangeIter → CStr → CStr → Option (Rc × SrChangeIter × Store α)
  remove : δ → Store α → CStr → Option (Rc × Store α)

section Loop

variable {α ρ δ : Type} (ops : EntryOps α ρ δ)

/-- What the callback meets: the environments of the calls it makes. -/
structure CallbackEnv (ρ δ : Type) where
  add : Nat → ρ
  remove : Nat → δ

/-- The environments of the calls after the first. -/
def CallbackEnv.next (e : CallbackEnv ρ δ) : CallbackEnv ρ δ :=
  ⟨fun k => e.add (k + 1), fun k => e.remove (k + 1)⟩

/-- The change of an entry's name leaf, in the switch of the callbacks: the
result of adding or removing the entry, or `none` for another change. -/
def applyChange (e : CallbackEnv ρ δ) (s : Store α) (it : SrChangeIter) (c : SrChange) :
    Option (Option Rc × SrChangeIter × Store α) :=
  match c.oper with
  | .created => do
    if ← newEntry c then
      let v ← c.newValue
      let name ← v.stringVal
      let xpath ← getNewXpath v.xpath
      let (rc, it, s) ← ops.add (e.add 0) s it xpath name
      pure (some rc, it, s)
    else pure (none, it, s)
  | .deleted => do
    if ← newEntry c then
      let v ← c.oldValue
      let name ← v.stringVal
      let _ ← getNewXpath v.xpath
      let (rc, s) ← ops.remove (e.remove 0) s name
      pure (some rc, it, s)
    else pure (none, it, s)
  | .modified | .moved => some (none, it, s)

/-- The loop of the callbacks. A step of the iterator that fails ends it like
the end of the changes; each turn takes at least one step. -/
def changeLoop : Nat → CallbackEnv ρ δ → Store α → SrChangeIter → Option (Rc × Store α)
  | 0, _, _, _ => none
  | fuel + 1, e, s, it =>
    match srGetChangeNext it with
    | (.error _, _) => some (.ok (), s)
    | (.ok c, it) => do
      match ← applyChange ops e s it c with
      | (none, it, s) => changeLoop fuel e s it
      | (some (.ok _), it, s) => changeLoop fuel e.next s it
      | (some (.error _), _, s) => pure (.error .operationFailed, s)

/-- `sr_event_t`. -/
inductive SrEvent
  | update
  | change
  | done
  | abort
  | enabled
  | rpc
deriving DecidableEq

/-- A change callback, with what `sr_get_changes_iter` gives it. An iterator
that cannot be had is not an error of its result. -/
def entryChangeCb (event : SrEvent) (iter : Except SrError SrChangeIter) (e : CallbackEnv ρ δ)
    (s : Store α) : Option (Rc × Store α) :=
  if event = .change then
    match iter with
    | .error _ => some (.ok (), s)
    | .ok it => changeLoop ops (it.length + 1) e s it
  else some (.ok (), s)

end Loop

def sadOps : EntryOps SadEntryNode AddSadEnv RemoveSadEnv := ⟨addSadEntry, removeSadEntry⟩

def spdOps : EntryOps SpdEntryNode AddSpdEnv RemoveSpdEnv := ⟨addSpdEntry, removeSpdEntry⟩

/-- `sad_entry_change_cb`. -/
def sadEntryChangeCb : SrEvent → Except SrError SrChangeIter → CallbackEnv AddSadEnv RemoveSadEnv →
    Store SadEntryNode → Option (Rc × Store SadEntryNode) :=
  entryChangeCb sadOps

/-- `spd_entry_change_cb`. -/
def spdEntryChangeCb : SrEvent → Except SrError SrChangeIter → CallbackEnv AddSpdEnv RemoveSpdEnv →
    Store SpdEntryNode → Option (Rc × Store SpdEntryNode) :=
  entryChangeCb spdOps

end CfgIpsec.Impl
