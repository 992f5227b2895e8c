import CfgIpsec.Impl.Walk

/-!
# Requests and their replies (`pfkey_send_socket`)

What the calls of `recv` and `send` give is part of the environment of a call
(`SocketEnv`). `none` is a call that does not return: where it waits for more,
nothing is left.
-/

namespace CfgIpsec.Impl

/-- What a call of `recv` gives: a datagram, or an error, which may be `EINTR`. -/
inductive Recv
  | datagram (d : Bytes)
  | interrupted
  | failed
deriving DecidableEq

/-- What a call of `send` gives; one that does not send all is an error. -/
inductive Send
  | sent
  | interrupted
  | failed
deriving DecidableEq

/-- What a call of `pfkey_send_socket` meets: its process and its buffer, what
was waiting in the socket, the calls of `send`, and the replies. -/
structure SocketEnv where
  pid : BitVec 32
  stack : Buffer
  waiting : List Recv
  sends : List Send
  replies : List Recv

/-- The loop that clears the socket. -/
def drainLoop : List Recv → Buffer → Option Buffer
  | [], _ => none
  | .datagram d :: rs, buf => drainLoop rs (readInto buf (some d)).1
  | .interrupted :: rs, buf => drainLoop rs buf
  | .failed :: _, buf => some buf

/-- The loop that sends the request: whether it was sent. -/
def sendLoop : List Send → Option Bool
  | [] => none
  | .sent :: _ => some true
  | .interrupted :: ss => sendLoop ss
  | .failed :: _ => some false

/-- The loop that waits for the reply: the result of `pfkey_send_socket`, and
the message it hands out. -/
def recvLoop (req : SadbMsg) : List Recv → Buffer → Option (Nat × Option Bytes)
  | [], _ => none
  | .interrupted :: rs, buf => recvLoop req rs buf
  | .failed :: _, _ => some (1, none)
  | .datagram d :: rs, buf =>
    let (buf, len) := readInto buf (some d)
    let msg := sadbMsg.get buf.bytes
    if len < sadbMsg.size ∨ msg.len.toNat < sadbMsg.size / 8 then some (1, none)
    else if (msg.len.toNat : Int) > len / 8 then some (1, none)
    else if msg.pid ≠ req.pid then recvLoop req rs buf
    -- a message of another type is reported, and handed out all the same
    else some (0, some (buf.bytes.take len.toNat))

/-- `pfkey_send_socket`: its result and `*out`, of which the length is
`*out_len`. -/
def pfkeySendSocket (e : SocketEnv) (req : SadbMsg) : Option (Nat × Option Bytes) := do
  let buf ← drainLoop e.waiting e.stack
  let req := { req with pid := e.pid }
  if ← sendLoop e.sends then recvLoop req e.replies buf else pure (1, none)

end CfgIpsec.Impl
