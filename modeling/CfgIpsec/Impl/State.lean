import CfgIpsec.Impl.Lifetime

/-!
# State data (`get_sad_state`)

The callback for state data looks up the current lifetimes of every entry of
the SAD list and makes a path in the data tree for each of its four counters.
The nodes of the list keep what the searches leave in them.
-/

namespace CfgIpsec.Impl

open CStr (lit)

/-- `strcat` into a buffer that a path is put together in. -/
def catPath (s t : CStr) : Option CStr := if strlen (s ++ t) < MAX_PATH then some (s ++ t) else none

/-- What `sprintf` prints of a `uint64_t` for `%u`, which takes 32 bits of it. -/
def printU (x : BitVec 64) : CStr := .ofBuf (decimal (x.setWidth 32).toNat)

/-- What a call meets: each of its searches, and whether libyang makes a path. -/
structure StateEnv where
  lookups : List LifetimeEnv
  newPath : CStr → CStr → Bool

/-- What a call makes: whether `*parent` is a tree, and the paths with their
texts. -/
structure StateData where
  parent : Bool
  made : List (CStr × CStr)
deriving DecidableEq

/-- `*parent = lyd_new_path(NULL, ctx, path, text, 0, 0)`. -/
def StateData.newTree (e : StateEnv) (o : StateData) (path text : CStr) : StateData :=
  if e.newPath path text then ⟨true, o.made ++ [(path, text)]⟩ else ⟨false, o.made⟩

/-- `lyd_new_path(*parent, NULL, path, text, 0, 0)`, which makes nothing without
a tree. -/
def StateData.newPath (e : StateEnv) (o : StateData) (path text : CStr) : StateData :=
  if o.parent ∧ e.newPath path text then { o with made := o.made ++ [(path, text)] } else o

/-- The loop over the list. Only at the first entry is there no tree yet. -/
def stateLoop (e : StateEnv) (xpath : CStr) :
    Bool → List LifetimeEnv → List SadEntryNode → StateData → Option (Rc × List SadEntryNode × StateData)
  | _, _, [], o => some (.ok (), [], o)
  | _, [], _ :: _, _ => none
  | first, l :: lookups, node :: nodes, o => do
    let newXpath ← catPath (xpath ++ lit "[name='" ++ node.name) (lit "']/ipsec-sa-state/sa-lifetime-current")
    let (_, rc, node) ← pfGetSadLifetimeCurrentBySpi l node
    match rc with
    | .error err => pure (.error err, node :: nodes, o)
    | .ok _ =>
      let bytes ← catPath newXpath (lit "/bytes")
      let packets ← catPath newXpath (lit "/packets")
      let idle ← catPath newXpath (lit "/idle")
      let time ← catPath newXpath (lit "/time")
      let o := if first then o.newTree e bytes (printU node.lftBytesCurrent)
        else o.newPath e bytes (printU node.lftBytesCurrent)
      let o := o.newPath e packets (printU node.lftPacketsCurrent)
      let o := o.newPath e idle (printU node.lftIdleCurrent)
      let o := o.newPath e time (printU node.lftTimeCurrent)
      let (rc, nodes, o) ← stateLoop e xpath false lookups nodes o
      pure (rc, node :: nodes, o)

/-- `get_sad_state`: its result, the list, and what it makes. -/
def getSadState (e : StateEnv) (moduleName xpath : CStr) (nodes : List SadEntryNode) (parent : Bool) :
    Option (Rc × List SadEntryNode × StateData) :=
  if moduleName = lit "ietf-ipsec-ikeless" ∧ xpath = lit "/ietf-i2nsf-ikeless:ipsec-ikeless/sad/sad-entry" then
    stateLoop e xpath true e.lookups nodes ⟨parent, []⟩
  else some (.ok (), nodes, ⟨parent, []⟩)

/-- `sad_state_cb`. -/
def sadStateCb (e : StateEnv) (moduleName xpath : CStr) (nodes : List SadEntryNode) (parent : Bool) :
    Option (Rc × List SadEntryNode × StateData) :=
  getSadState e moduleName xpath nodes parent

/-- The name of the module and the path that `main` registers the callback for. -/
def stateModule : CStr := lit "ietf-i2nsf-ikeless"

def stateXpath : CStr := lit "/ietf-i2nsf-ikeless:ipsec-ikeless/sad/sad-entry"

end CfgIpsec.Impl
