import CfgIpsec.Impl.Callback
import CfgIpsec.Impl.Register
import CfgIpsec.Impl.State

/-!
# The daemon (`test_not_trusted.c`)

What runs after `main` has subscribed: the callbacks for changes and for state
data, which sysrepo calls, and the thread that reads what the kernel tells.
They share the lists (`Daemon`). An event is a call of a callback or a turn of
the thread, from its beginning to its end, in any order; that two of them work
on a list at the same time is left out.
-/

namespace CfgIpsec.Impl

/-- The lists, the registration, and what the thread has asked sysrepo for. -/
structure Daemon where
  spd : Store SpdEntryNode
  sad : Store SadEntryNode
  registration : Registration
  actions : List Action

/-- The daemon as it starts. -/
def Daemon.start : Daemon := ⟨emptyStore, emptyStore, .start, []⟩

/-- What happens to the daemon. -/
inductive Event
  /-- `spd_entry_change_cb` is called. -/
  | spdChange (event : SrEvent) (iter : Except SrError SrChangeIter) (e : CallbackEnv AddSpdEnv RemoveSpdEnv)
  /-- `sad_entry_change_cb` is called. -/
  | sadChange (event : SrEvent) (iter : Except SrError SrChangeIter) (e : CallbackEnv AddSadEnv RemoveSadEnv)
  /-- `sad_state_cb` is called. -/
  | stateRequest (e : StateEnv) (moduleName xpath : CStr) (parent : Bool)
  /-- `sadb_register` is called. -/
  | register (e : RegisterEnv)
  /-- `read` returns in a thread. -/
  | datagram (thread : Nat) (d : Option Bytes) (notify : NotifyEnv) (delete : DeleteEnv) (zone : Int → Int)

/-- What an event makes of the daemon. -/
def Daemon.step (s : Daemon) : Event → Option Daemon
  | .spdChange event iter e => do
    let (_, spd) ← spdEntryChangeCb event iter e s.spd
    pure { s with spd := spd }
  | .sadChange event iter e => do
    let (_, sad) ← sadEntryChangeCb event iter e s.sad
    pure { s with sad := sad }
  | .stateRequest e moduleName xpath parent => do
    let (_, nodes, _) ← sadStateCb e moduleName xpath s.sad.entries parent
    pure { s with sad := { s.sad with entries := nodes } }
  | .register e => some { s with registration := (sadbRegister e s.registration).2 }
  | .datagram thread d notify delete zone => do
    let t ← s.registration.threads[thread]?
    let (t, acts) ← t.step ⟨d, s.sad.entries, notify, delete, zone⟩
    let threads := s.registration.threads.set thread t
    pure { s with registration := { s.registration with threads := threads }, actions := s.actions ++ acts }

end CfgIpsec.Impl
