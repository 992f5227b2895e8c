import CfgIpsec.Impl.Socket

/-!
# The answer to a request

What a request is to hand out of what its socket delivers (`answer`): the first
message of its own process and type, unless a malformed message or an error
comes before it.
-/

namespace CfgIpsec.Spec

open Impl

/-- What a buffer takes of a datagram. -/
def receivedBytes (d : Bytes) : Bytes := d.take PFKEY_BUFFER_SIZE

/-- A message with a header, and with the units its header tells. -/
def WholeMessage (msg : Bytes) : Prop :=
  sadbMsg.size ≤ msg.length ∧ sadbMsg.size / 8 ≤ (sadbMsg.get msg).len.toNat ∧
    8 * (sadbMsg.get msg).len.toNat ≤ msg.length

instance : DecidablePred WholeMessage := fun _ => inferInstanceAs (Decidable (_ ∧ _ ∧ _))

/-- What does not concern the process of a request: an interrupted call, and a
whole message of another process. -/
def Foreign (req : SadbMsg) : Recv → Prop
  | .interrupted => True
  | .failed => False
  | .datagram d => WholeMessage (receivedBytes d) ∧ (sadbMsg.get (receivedBytes d)).pid ≠ req.pid

/-- What does not concern a request: also a whole message of another type. -/
def Ignored (req : SadbMsg) : Recv → Prop
  | .interrupted => True
  | .failed => False
  | .datagram d => WholeMessage (receivedBytes d) ∧
    ((sadbMsg.get (receivedBytes d)).pid ≠ req.pid ∨ (sadbMsg.get (receivedBytes d)).type ≠ req.type)

instance (req : SadbMsg) : DecidablePred (Foreign req)
  | .interrupted => inferInstanceAs (Decidable True)
  | .failed => inferInstanceAs (Decidable False)
  | .datagram _ => inferInstanceAs (Decidable (_ ∧ _))

instance (req : SadbMsg) : DecidablePred (Ignored req)
  | .interrupted => inferInstanceAs (Decidable True)
  | .failed => inferInstanceAs (Decidable False)
  | .datagram _ => inferInstanceAs (Decidable (_ ∧ _))

/-- The result of a request that ends with `r`, and the message it hands out. -/
def outcome : Recv → Nat × Option Bytes
  | .datagram d => if WholeMessage (receivedBytes d) then (0, some (receivedBytes d)) else (1, none)
  | _ => (1, none)

/-- The result of a request, and the message it hands out. -/
def answer (req : SadbMsg) (rs : List Recv) : Option (Nat × Option Bytes) :=
  (rs.find? fun r => ¬Ignored req r).map outcome

/-- A call of `pfkey_send_socket` has the answer to its own request. -/
def AnswersOwn (e : SocketEnv) (req : SadbMsg) : Prop :=
  pfkeySendSocket e req = answer { req with pid := e.pid } e.replies

/-- If the first that concerns the process is a whole message, it is of the type
of the request. -/
def OwnTypeFirst (req : SadbMsg) (rs : List Recv) : Prop :=
  ∀ d, rs.find? (fun r => ¬Foreign req r) = some (.datagram d) → WholeMessage (receivedBytes d) →
    (sadbMsg.get (receivedBytes d)).type = req.type

end CfgIpsec.Spec
