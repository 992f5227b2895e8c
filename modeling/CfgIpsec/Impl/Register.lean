import CfgIpsec.Impl.Expire
import CfgIpsec.Impl.Pfkey

/-!
# Registration (`pf_exec_register`, `sadb_register`)

A call takes the lock of the thread, asks the kernel to register, reads one
datagram, and starts the thread. Of the datagram only a line of the log
depends, so it is left out. The thread releases the lock behind its loop, which
has no end.
-/

namespace CfgIpsec.Impl

/-- `SR_ERR_INTERNAL`. -/
def SR_ERR_INTERNAL : Nat := 7

/-- What a call of `pf_exec_register` meets: its process, whether
`pthread_create` succeeds, and what lies on the stack of the thread. -/
structure RegisterEnv where
  pid : BitVec 32
  create : Bool
  stack : Buffer

/-- The lock `pf_sadb_esp_register_run_lock`, the messages sent, and the threads
that run. -/
structure Registration where
  locked : Bool
  sent : List Bytes
  threads : List Thread
deriving DecidableEq

/-- Nothing is registered. -/
def Registration.start : Registration := ⟨false, [], []⟩

/-- The request to register. -/
def registerMessage (pid : BitVec 32) (satype : Byte) : Bytes :=
  message { version := PF_KEY_V2, type := SADB_REGISTER, satype := satype, pid := pid } []

/-- `pf_exec_register`. The lock stays taken when there is no thread to release
it. -/
def pfExecRegister (e : RegisterEnv) (satype : Byte) (s : Registration) : Rc × Registration :=
  if satype = SADB_SATYPE_ESP then
    if s.locked then (.error .operationFailed, s)
    else
      let s := { s with locked := true, sent := s.sent ++ [registerMessage e.pid satype] }
      if e.create then (.ok (), { s with threads := s.threads ++ [.start e.stack] })
      else (.error .operationFailed, s)
  else (.error .operationFailed, s)

/-- `sadb_register`. -/
def sadbRegister (e : RegisterEnv) (s : Registration) : Rc × Registration :=
  match pfExecRegister e SADB_SATYPE_ESP s with
  | (.ok _, s) => (.ok (), s)
  | (.error _, s) => (.error (.other SR_ERR_INTERNAL), s)

end CfgIpsec.Impl
