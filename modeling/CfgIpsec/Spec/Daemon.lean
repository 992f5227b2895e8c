import CfgIpsec.Framework.Run
import CfgIpsec.Impl.Daemon
import CfgIpsec.Spec.Current
import CfgIpsec.Spec.Decode
import CfgIpsec.Spec.Grammar

/-!
# Events of the daemon

Which events concern which part of the daemon, and when two SAD lists differ in
nothing but what the kernel told of their SAs (`SameButCurrent`). What the
daemon has sent to the kernel is logged in its lists and its registration; each
of these sends requests of its own types (`SentWell`).
-/

namespace CfgIpsec.Spec

open Impl

/-- A node but for its current counters. -/
def settings (n : SadEntryNode) : SadEntryNode := withCounters n ⟨0, 0, 0, 0⟩

/-- The lists have the same entries but for the current counters, and the same
messages were sent for them. -/
structure SameButCurrent (s t : Store SadEntryNode) : Prop where
  entries : s.entries.map settings = t.entries.map settings
  sent : s.sent = t.sent

theorem SameButCurrent.trans {s t u : Store SadEntryNode} (h : SameButCurrent s t) (h' : SameButCurrent t u) :
    SameButCurrent s u :=
  ⟨h.entries.trans h'.entries, h.sent.trans h'.sent⟩

/-- What the threads go by is the same, and so is what they have come to. -/
structure SameForThread (s t : Daemon) : Prop where
  sad : SameButCurrent s.sad t.sad
  registration : s.registration = t.registration
  actions : s.actions = t.actions

/-- An event of the SPD. -/
def isSpdChange : Event → Bool
  | .spdChange .. => true
  | _ => false

/-- An event of the SAD. -/
def isSadChange : Event → Bool
  | .sadChange .. => true
  | _ => false

/-- An event that the thread may notice. -/
def reachesThread : Event → Bool
  | .sadChange .. | .register .. | .datagram .. => true
  | _ => false

/-- The registration an event asks for. -/
def registration? : Event → Option RegisterEnv
  | .register e => some e
  | _ => none

/-- After the calls of `sadb_register`: the first took the lock and asked the
kernel, and no other has had an effect, whether its thread runs or not. -/
def Registered (calls : List RegisterEnv) (r : Registration) : Prop :=
  match calls with
  | [] => r = .start
  | e :: _ =>
    r.locked = true ∧ r.sent = [registerMessage e.pid SADB_SATYPE_ESP] ∧ r.threads.length = if e.create then 1 else 0

/-- The name that a change creates, when it is the name leaf of an entry. -/
def createdName? (c : SrChange) : Option CStr := do
  let v ← c.newValue
  let name ← v.stringVal
  if c.oper = .created ∧ endsInName v.xpath = some true then pure name else none

/-- The names that an iterator creates entries of. -/
def createdNames (it : SrChangeIter) : List CStr := it.filterMap fun r => r.toOption.bind createdName?

/-- The names that an event creates SAD entries of. -/
def sadNames : Event → List CStr
  | .sadChange .change (.ok it) _ => createdNames it
  | _ => []

/-- What the thread asks for is about the entry `x`, or is to carry out what it
asked for before. -/
def IsAbout (x : CStr) : Action → Prop
  | .notify name _ => name = x
  | .deleteItem xpath => xpath = sadEntryXpath x
  | .applyChanges => True

/-! ## Messages -/

/-- A message of one of the types, as long as it says, that the parser accepts. -/
structure WellFormed (types : List (BitVec 8)) (msg : Bytes) : Prop where
  type : msgType msg ∈ types
  length : msg.length = 8 * msgUnits msg
  accepted : Accepted msg

/-- The requests about policies. -/
def policyTypes : List (BitVec 8) := [SADB_X_SPDADD, SADB_X_SPDDUMP, SADB_X_SPDDELETE]

/-- The requests about SAs. -/
def saTypes : List (BitVec 8) := [SADB_ADD, SADB_GET, SADB_DELETE]

/-- Everything that was sent is well formed. -/
structure SentWell (s : Daemon) : Prop where
  spd : ∀ msg ∈ s.spd.sent, WellFormed policyTypes msg
  sad : ∀ msg ∈ s.sad.sent, WellFormed saTypes msg
  registration : ∀ msg ∈ s.registration.sent, WellFormed [SADB_REGISTER] msg

end CfgIpsec.Spec
