import CfgIpsec.Impl.Entries
import CfgIpsec.Impl.Print

/-!
# Expired SAs (`pf_sadb_esp_register_run`)

The thread reads messages from the kernel into one buffer and keeps the result
of the last notification (`Thread`). A turn of its loop meets a datagram, the
SAD list and the time zone at that moment and what the calls into sysrepo and
libyang give (`Turn`), and calls for the actions `Action`. It prints an acquire
or an expiry before it walks over it.
-/

namespace CfgIpsec.Impl

open CStr (lit)

/-- What the calls of `send_sa_expire_notification` give: whether each
`lyd_new_path` succeeds, and the result of sending. -/
structure NotifyEnv where
  path : Bool
  namePath : Bool
  softPath : Bool
  send : Rc

/-- What the calls of `send_delete_SAD_request` give. -/
structure DeleteEnv where
  connect : Rc
  start : Rc
  deleteItem : Rc

/-- What the thread asks sysrepo for. -/
inductive Action
  /-- `sr_event_notif_send_tree` of an expiry of the entry. -/
  | notify (name : CStr) (soft : Bool)
  /-- `sr_delete_item` of the xpath. -/
  | deleteItem (xpath : CStr)
  /-- `sr_apply_changes`. -/
  | applyChanges
deriving DecidableEq

/-- `rc ? EXIT_FAILURE : EXIT_SUCCESS`, of which the thread compares the first
with `SR_ERR_OK`. -/
def exitCode : Rc → Rc
  | .ok _ => .ok ()
  | .error _ => .error (.other 1)

/-- `send_sa_expire_notification`. A path that cannot be made is not an error
of its result. -/
def sendSaExpireNotification (e : NotifyEnv) (sad : List SadEntryNode) (spi : BitVec 64) (soft : Bool) :
    Rc × List Action :=
  if !e.path then (.ok (), [])
  else match getSadNodeBySpi sad spi with
    | none => (.error .notFound, [])
    | some node =>
      if !e.namePath ∨ !e.softPath then (.ok (), [])
      else match e.send with
        | .ok _ => (.ok (), [.notify node.name soft])
        | .error rc => (exitCode (.error rc), [.notify node.name soft])

/-- The xpath `send_delete_SAD_request` prints for an entry. -/
def sadEntryXpath (name : CStr) : CStr :=
  lit "/ietf-i2nsf-ikeless:ipsec-ikeless/sad/sad-entry[name='" ++ name ++ lit "']"

/-- `sprintf` into `xpath` of `send_delete_SAD_request`. -/
def deleteXpath (name : CStr) : Option CStr :=
  if strlen (sadEntryXpath name) < MAX_PATH then some (sadEntryXpath name) else none

/-- `send_delete_SAD_request`, which takes the entry for granted. Its result is
only logged. -/
def sendDeleteSadRequest (e : DeleteEnv) (sad : List SadEntryNode) (spi : BitVec 64) :
    Option (List Action) :=
  match e.connect, e.start with
  | .ok _, .ok _ => do
    let node ← getSadNodeBySpi sad spi
    let xpath ← deleteXpath node.name
    match e.deleteItem with
    | .ok _ => pure [.deleteItem xpath, .applyChanges]
    | .error _ => pure [.deleteItem xpath]
  | _, _ => some []

/-- What the thread's walk over an expiry looks for. -/
structure Expiry where
  spi : BitVec 32 := 0
  hard : Bool := false
deriving DecidableEq

/-- What the walk does at each extension. -/
def expiryVisit (buf : Bytes) (type : BitVec 16) (ext : Nat) (x : Expiry) : Option Expiry :=
  if type = SADB_EXT_SA then do
    let spi ← getBE? buf (ext + 4) 32
    pure { x with spi := spi }
  else if type = SADB_EXT_LIFETIME_HARD then some { x with hard := true }
  else some x

/-- What the walk over an acquire looks for: `policy_index`. -/
def acquireVisit (buf : Bytes) (type : BitVec 16) (ext : Nat) (index : BitVec 32) : Option (BitVec 32) :=
  if type = SADB_X_EXT_POLICY then getLE? buf (ext + 8) 32 else some index

/-- What the thread keeps from one message to the next. -/
structure Thread where
  rc : Rc
  buf : Buffer
deriving DecidableEq

/-- What a turn of the loop meets. -/
structure Turn where
  datagram : Option Bytes
  sad : List SadEntryNode
  notify : NotifyEnv
  delete : DeleteEnv
  zone : Int → Int

/-- What follows on an expiry. `int spi` is converted to `unsigned long`. -/
def handleExpiry (t : Turn) (rc : Rc) (x : Expiry) : Option (Rc × List Action) :=
  let spi := x.spi.signExtend 64
  if x.hard then
    if rc = .ok () then do
      let (rc, acts) := sendSaExpireNotification t.notify t.sad spi false
      let acts' ← sendDeleteSadRequest t.delete t.sad spi
      pure (rc, acts ++ acts')
    else some (rc, [])
  else some (sendSaExpireNotification t.notify t.sad spi true)

/-- A turn of the loop of `pf_sadb_esp_register_run`. -/
def Thread.step (t : Turn) (s : Thread) : Option (Thread × List Action) := do
  let (buf, msglen) := readInto s.buf t.datagram
  if msgType buf.bytes = SADB_ACQUIRE then
    printSadbMsg t.zone buf.bytes PFKEY_BUFFER_SIZE msglen
    let _ ← walkExts (acquireVisit buf.bytes) buf.bytes PFKEY_BUFFER_SIZE
      (msglen - sadbMsg.size) sadbMsg.size 0
    pure ({ s with buf := buf }, [])
  else if msgType buf.bytes = SADB_EXPIRE then
    printSadbMsg t.zone buf.bytes PFKEY_BUFFER_SIZE msglen
    let x ← walkExts (expiryVisit buf.bytes) buf.bytes PFKEY_BUFFER_SIZE
      (msglen - sadbMsg.size) sadbMsg.size {}
    let (rc, acts) ← handleExpiry t s.rc x
    pure (⟨rc, buf⟩, acts)
  else pure ({ s with buf := buf }, [])

/-- The thread as it starts, on what is on its stack. -/
def Thread.start (stack : Buffer) : Thread := ⟨.ok (), stack⟩

/-- The turns of the loop: what each calls for. -/
def Thread.run : List Turn → Thread → Option (Thread × List (List Action))
  | [], s => some (s, [])
  | t :: ts, s => do
    let (s, acts) ← s.step t
    let (s, actss) ← s.run ts
    pure (s, acts :: actss)

end CfgIpsec.Impl
