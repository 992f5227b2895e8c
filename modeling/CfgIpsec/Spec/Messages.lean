import CfgIpsec.Impl.Messages

/-!
# Nodes and messages in JSON

The fields of a node with their keys (`sadFields`), what JSON can carry of them
(`JsonExact`), and what it means that an object has them (`FoundIn`). From that:
what a `NEW_CONFIG` message has to be (`IsNewConfig`), what it tells (`Decoded`),
what it means that the decoder copes with whatever it is given (`Copes`), and when
it makes no access that is not defined (`StaysInBounds`).
-/

namespace CfgIpsec.Spec

open Impl Rounding

/-! ## Fields -/

/-- A field of a node, with its key; a string with the size of its buffer. -/
inductive Field
  | string (key : String) (size : Nat) (s : CStr)
  | number (key : String) {w : Nat} (x : BitVec w)
  | boolean (key : String) (b : Bool)

def Field.key : Field → String
  | string key _ _ => key
  | number key _ => key
  | boolean key _ => key

def sadFields (n : SadEntryNode) : List Field :=
  [.string "name" MAX_PATH n.name, .number "req_id" n.reqId, .number "spi" n.spi, .boolean "ext_seq_num" n.extSeqNum,
   .boolean "seq_overflow" n.seqOverflow, .number "seq_number_counter" n.seqNumberCounter,
   .number "anti_replay_window" n.antiReplayWindow, .string "local_subnet" MAX_IP n.localSubnet,
   .string "remote_subnet" MAX_IP n.remoteSubnet, .string "tunnel_local" MAX_IP n.tunnelLocal,
   .string "tunnel_remote" MAX_IP n.tunnelRemote, .number "inner_protocol" n.innerProtocol,
   .number "srcport" n.srcport, .number "dstport" n.dstport, .number "ipsec_mode" n.ipsecMode,
   .number "protocol_parameters" n.protocolParameters, .number "integrity_alg" n.integrityAlg,
   .number "encryption_alg" n.encryptionAlg, .number "encryption_key_length" n.encryptionKeyLength,
   .string "encryption_key" MAX_KEY n.encryptionKey, .string "integrity_key" MAX_KEY n.integrityKey,
   .string "encryption_iv" MAX_KEY n.encryptionIv, .boolean "bypass_dscp" n.bypassDscp, .boolean "ecn" n.ecn,
   .boolean "tfc_pad" n.tfcPad, .number "df_bit" n.dfBit, .number "lft_bytes_hard" n.lftBytesHard,
   .number "lft_bytes_soft" n.lftBytesSoft, .number "lft_bytes_current" n.lftBytesCurrent,
   .number "lft_packets_hard" n.lftPacketsHard, .number "lft_packets_soft" n.lftPacketsSoft,
   .number "lft_packets_current" n.lftPacketsCurrent, .number "lft_time_hard" n.lftTimeHard,
   .number "lft_time_soft" n.lftTimeSoft, .number "lft_time_current" n.lftTimeCurrent,
   .number "lft_idle_hard" n.lftIdleHard, .number "lft_idle_soft" n.lftIdleSoft,
   .number "lft_idle_current" n.lftIdleCurrent]

/-! ## What JSON can carry of a node -/

def sadStrings (n : SadEntryNode) : List CStr :=
  [n.name, n.localSubnet, n.remoteSubnet, n.tunnelLocal, n.tunnelRemote, n.encryptionKey, n.integrityKey,
    n.encryptionIv]

/-- The integers of a node that are as wide as a `double`. -/
def sadLongs (n : SadEntryNode) : List (BitVec 64) :=
  [n.reqId, n.spi, n.seqNumberCounter, n.antiReplayWindow, n.lftBytesHard, n.lftBytesSoft, n.lftBytesCurrent,
    n.lftPacketsHard, n.lftPacketsSoft, n.lftPacketsCurrent, n.lftTimeHard, n.lftTimeSoft, n.lftTimeCurrent,
    n.lftIdleHard, n.lftIdleSoft, n.lftIdleCurrent]

/-- JSON has the strings of a node, and its integers exactly. -/
structure JsonExact (n : SadEntryNode) : Prop where
  strings : ∀ s ∈ sadStrings n, validUtf8 s = true
  longs : ∀ x ∈ sadLongs n, HasBits 53 x.toNat

/-! ## Messages with a new configuration -/

section Messages

variable (p : Parson)

/-- The object has the field: a string that fits its buffer, a number that is the
field's but for what is behind its point, or the boolean. -/
def FoundIn (o : p.Object) : Field → Prop
  | .string key size s => p.getValue o key = some (.string s) ∧ strlen s < size
  | .number key (w := w) x => ∃ r : Rat, p.getValue o key = some (.number r) ∧
      (-1 < r ∧ r < 2 ^ w) ∧ x = BitVec.ofNat w r.floor.toNat
  | .boolean key b => p.getValue o key = some (.boolean b)

/-- The object has a value for the field, whichever it is. -/
def Gives (o : p.Object) : Field → Prop
  | .string key size _ => ∃ s, p.getValue o key = some (.string s) ∧ strlen s < size
  | .number key (w := w) _ => ∃ r : Rat, p.getValue o key = some (.number r) ∧ -1 < r ∧ r < 2 ^ w
  | .boolean key _ => ∃ b, p.getValue o key = some (.boolean b)

/-- An object with a value for each field of a node. -/
def IsSadObject (o : p.Object) : Prop := ∀ f ∈ sadFields default, Gives p o f

/-- The data of a `NEW_CONFIG` message: an integer, and at most two nodes. -/
structure IsNewConfig (o : p.Object) : Prop where
  entriesId : ∃ r : Rat, p.getValue o "entries_id" = some (.number r) ∧ -2 ^ 31 - 1 < r ∧ r < 2 ^ 31
  entries : ∃ items, p.getValue o "sad_entries" = some (.array items) ∧ p.getCount (some items) ≤ 2 ∧
    ∀ i < p.getCount (some items), ∃ a, p.getObject (some items) i = some a ∧ IsSadObject p a

/-- What the object tells is in the message: its integer, and its nodes in the first
slots; the other slots are as they were. -/
structure Decoded (o : p.Object) (msg msg' : NewConfigMsg) : Prop where
  entriesId : ∃ r : Rat, p.getValue o "entries_id" = some (.number r) ∧ (-2 ^ 31 - 1 < r ∧ r < 2 ^ 31) ∧
    msg'.entriesId = BitVec.ofInt 32 (r.num.tdiv r.den)
  entries : ∃ items, p.getValue o "sad_entries" = some (.array items) ∧ p.getCount (some items) ≤ 2 ∧
    ∀ i (hi : i < 2), if i < p.getCount (some items)
      then ∃ a n, p.getObject (some items) i = some a ∧ msg'.sadEntries[i] = some n ∧ ∀ f ∈ sadFields n, FoundIn p a f
      else msg'.sadEntries[i] = msg.sadEntries[i]

/-- The decoder makes only defined accesses, and unless it reports an error has made
of the object what it tells. -/
def Copes (e : DecodeEnv) (o : p.Object) (msg : NewConfigMsg) : Prop :=
  ∃ rc msg', p.decodeNewConfigMsg e (some o) msg = .ok (rc, msg') ∧ (rc = 0 → Decoded p o msg msg')

/-- The keys of the strings of a node. -/
def sadStringKeys : List String :=
  ["name", "local_subnet", "remote_subnet", "tunnel_local", "tunnel_remote", "encryption_key", "integrity_key",
    "encryption_iv"]

/-- All strings of a node are there. -/
def HasStrings (o : Option p.Object) : Prop := ∀ key ∈ sadStringKeys, (p.getString o key).isSome

/-- The count of the array, as an `int`, is at most two, and so many of its
elements are objects with all strings. -/
def StaysInBounds (o : p.Object) : Prop :=
  let entries := p.getArray (some o) "sad_entries"
  let n := (BitVec.ofNat 32 (p.getCount entries)).toInt.toNat
  n ≤ 2 ∧ ∀ i < n, HasStrings p (p.getObject entries i)

end Messages

end CfgIpsec.Spec
