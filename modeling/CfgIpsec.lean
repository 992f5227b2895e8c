import CfgIpsec.Framework.Bytes
import CfgIpsec.Framework.Codec
import CfgIpsec.Framework.Tlv
import CfgIpsec.Framework.Substring
import CfgIpsec.Framework.Ledger
import CfgIpsec.Impl.Libc
import CfgIpsec.Impl.Constants
import CfgIpsec.Impl.Utils
import CfgIpsec.Impl.Node
import CfgIpsec.Impl.Sysrepo
import CfgIpsec.Impl.ReadSad
import CfgIpsec.Impl.ReadSpd
import CfgIpsec.Impl.Wire
import CfgIpsec.Impl.Pfkey
import CfgIpsec.Impl.Parse
import CfgIpsec.Impl.Walk
import CfgIpsec.Impl.Addpolicy
import CfgIpsec.Impl.Entries
import CfgIpsec.Impl.Expire
import CfgIpsec.Impl.Callback
import CfgIpsec.Spec.Grammar
import CfgIpsec.Proof.Parse
import CfgIpsec.Proof.Text
import CfgIpsec.Spec.Decode
import CfgIpsec.Spec.Expiry
import CfgIpsec.Proof.Message
import CfgIpsec.Proof.SadMessages
import CfgIpsec.Framework.Run
import CfgIpsec.Spec.Identity
import CfgIpsec.Proof.Entries
import CfgIpsec.Proof.SadLedger
import CfgIpsec.Proof.Reader
import CfgIpsec.Proof.SpdLedger
import CfgIpsec.Spec.Yang
import CfgIpsec.Spec.Reaches
import CfgIpsec.Proof.Hex
import CfgIpsec.Proof.Settings
import CfgIpsec.Proof.Names
import CfgIpsec.Proof.Lifetimes
import CfgIpsec.Proof.Keys
import CfgIpsec.Spec.Blocks
import CfgIpsec.Proof.Boundary
import CfgIpsec.Proof.Blocks
import CfgIpsec.Proof.Batches
import CfgIpsec.Proof.Visits
import CfgIpsec.Proof.Expire
import CfgIpsec.Spec.Lookup
import CfgIpsec.Proof.Lookup
import CfgIpsec.Spec.Policies
import CfgIpsec.Proof.Policies
import CfgIpsec.Spec.Databases
import CfgIpsec.Proof.Databases
import CfgIpsec.Spec.Transactions
import CfgIpsec.Proof.Transactions
import CfgIpsec.Framework.Linked
import CfgIpsec.Impl.Memory
import CfgIpsec.Spec.Memory
import CfgIpsec.Proof.Memory
import CfgIpsec.Framework.Rounding
import CfgIpsec.Impl.Json
import CfgIpsec.Proof.Json
import CfgIpsec.Spec.Indexes
import CfgIpsec.Proof.Indexes
import CfgIpsec.Impl.Socket
import CfgIpsec.Proof.Socket
import CfgIpsec.Framework.Cursor
import CfgIpsec.Impl.Print
import CfgIpsec.Impl.Lifetime
import CfgIpsec.Spec.Walks
import CfgIpsec.Proof.Endless
import CfgIpsec.Proof.Walks
import CfgIpsec.Spec.Replies
import CfgIpsec.Spec.Current
import CfgIpsec.Proof.Current
import CfgIpsec.Impl.State
import CfgIpsec.Spec.State
import CfgIpsec.Proof.State
import CfgIpsec.Spec.Selectors
import CfgIpsec.Proof.Selectors
import CfgIpsec.Proof.KeyExts
import CfgIpsec.Spec.Leaves
import CfgIpsec.Proof.Leaves
import CfgIpsec.Spec.YangSpd
import CfgIpsec.Spec.Protocols
import CfgIpsec.Proof.SpdSettings
import CfgIpsec.Proof.Protocols
import CfgIpsec.Impl.Messages
import CfgIpsec.Spec.Messages
import CfgIpsec.Proof.Messages
import CfgIpsec.Framework.Writes
import CfgIpsec.Impl.Buffers
import CfgIpsec.Proof.InPlace
import CfgIpsec.Framework.Patterns
import CfgIpsec.Spec.Ip
import CfgIpsec.Proof.Addresses
import CfgIpsec.Proof.Answers
import CfgIpsec.Proof.Reqids
import CfgIpsec.Spec.Xpaths
import CfgIpsec.Proof.Xpaths
import CfgIpsec.Framework.Parts
import CfgIpsec.Spec.Order
import CfgIpsec.Proof.Order
import CfgIpsec.Spec.Capacity
import CfgIpsec.Proof.Capacity
import CfgIpsec.Spec.Prefixes
import CfgIpsec.Proof.Prefixes
import CfgIpsec.Proof.Installs
import CfgIpsec.Proof.Restart
import CfgIpsec.Framework.Tables
import CfgIpsec.Spec.Kernel
import CfgIpsec.Proof.Kernel
import CfgIpsec.Impl.Register
import CfgIpsec.Impl.Daemon
import CfgIpsec.Spec.Daemon
import CfgIpsec.Proof.Daemon
import CfgIpsec.Spec.Thread
import CfgIpsec.Proof.Thread
import CfgIpsec.Spec.Host
import CfgIpsec.Proof.Host
import CfgIpsec.Framework.Footprint
import CfgIpsec.Spec.Commute
import CfgIpsec.Proof.Commute
import CfgIpsec.Spec.Contents
import CfgIpsec.Proof.Contents
import CfgIpsec.Spec.Loop
import CfgIpsec.Proof.Loop
import CfgIpsec.Proof.Progress
import CfgIpsec.Spec.Edits
import CfgIpsec.Proof.Edits
import CfgIpsec.Proof.Sent
import CfgIpsec.Proof.Leftovers
import CfgIpsec.Proof.Leaks
