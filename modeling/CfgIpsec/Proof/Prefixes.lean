import CfgIpsec.Proof.Addresses
import CfgIpsec.Proof.Leaves
import CfgIpsec.Proof.SpdLedger
import CfgIpsec.Proof.SpdSettings
import CfgIpsec.Spec.Prefixes

/-!
# What is sent of a prefix

The text of a prefix of IPv4 denotes what its extension does (`prefixOf_ipv4`). A
text with a colon denotes one of IPv6 (`prefixOf_colon`), and the extension is of
IPv4 always (`denotesAt_iff`). No reader refuses a prefix, so that it is sent as
it is exactly when it is of IPv4 (`prefixes_sent_iff`).
-/

namespace CfgIpsec.Proof

open Impl Spec Pattern
open CStr (lit)

/-! ## Texts -/

/-- What stands before and after the first slash. -/
theorem slash_split {a b : Bytes} (h : (0x2f : Byte) ∉ a) :
    (a ++ 0x2f :: b).takeWhile (· ≠ 0x2f) = a ∧ ((a ++ 0x2f :: b).dropWhile (· ≠ 0x2f)).drop 1 = b := by
  have hne : ∀ c ∈ a, decide (c ≠ 0x2f) = true := fun c hc => by simpa using fun e : c = 0x2f => h (e ▸ hc)
  constructor
  · rw [List.takeWhile_append_of_pos hne]
    simp
  · rw [List.dropWhile_append_of_pos hne]
    simp

theorem prefixOf_ipv4 {s : CStr} {w x y z len : Nat} (hw : w < 256) (hx : x < 256) (hy : y < 256) (hz : z < 256)
    (hlen : len ≤ 32) (hs : s.bytes = dotted w x y z ++ 0x2f :: decimal len) :
    prefixOf s = some (.v4 (quad w x y z) len) := by
  have hdot : IsDotted (dotted w x y z) := ⟨w, x, y, z, hw, hx, hy, hz, rfl⟩
  obtain ⟨htake, hdrop⟩ := slash_split (b := decimal len) (not_mem_dotted rfl (by decide) hdot)
  have hcolon : (0x3a : Byte) ∉ dotted w x y z := not_mem_dotted rfl (by decide) hdot
  have hnum : numeral 10 (decimal len) = some len := (numeral_decimal (by omega)).1
  simp only [prefixOf, hs, htake, hdrop, hnum, Option.bind_eq_bind, Option.bind_some, if_neg hcolon,
    quad?_dotted hw hx hy hz, Option.map_some]

/-- A colon before the slash is for IPv6. -/
theorem prefixOf_colon {s : CStr} {a b : Bytes} (hs : s.bytes = a ++ 0x3a :: b) (ha : (0x2f : Byte) ∉ a) {x : IpPrefix}
    (h : prefixOf s = some x) : ∃ groups len, x = .v6 groups len := by
  have hne : ∀ c ∈ a, decide (c ≠ 0x2f) = true := fun c hc => by simpa using fun e : c = 0x2f => ha (e ▸ hc)
  have hmem : (0x3a : Byte) ∈ s.bytes.takeWhile (· ≠ 0x2f) := by
    rw [hs, List.takeWhile_append_of_pos hne, List.takeWhile_cons_of_pos (by decide)]
    exact List.mem_append_right _ List.mem_cons_self
  obtain ⟨len, -, h⟩ := Option.bind_eq_some_iff.mp h
  rw [if_pos hmem] at h
  obtain ⟨groups, -, rfl⟩ := Option.map_eq_some_iff.mp h
  exact ⟨groups, len, rfl⟩

/-- A prefix of IPv6 starts with a colon or with digits and a colon. -/
theorem ipv6Prefix_colon {s : CStr} (h : IsIpv6Prefix s) : ∃ a b, s.bytes = a ++ 0x3a :: b ∧ (0x2f : Byte) ∉ a := by
  have hbytes : (lit ":").bytes = [0x3a] := rfl
  have hslash : (0x2f : Byte) ∉ bytesFrom 0x30 0x39 ++ bytesFrom 0x61 0x66 ++ bytesFrom 0x41 0x46 := by decide +kernel
  obtain ⟨t, ht, l, -, hs⟩ := Language.mem_mul.mp h.1
  obtain ⟨u, hu, r, -, rfl⟩ := Language.mem_mul.mp ht
  obtain ⟨v, hv, m, -, rfl⟩ := Language.mem_mul.mp hu
  obtain ⟨x, hx, c, hc, rfl⟩ := Language.mem_mul.mp hv
  rw [mem_text.mp hc, hbytes] at hs
  rcases (Language.mem_add _ _ x).mp hx with hx | hx
  · rw [mem_text.mp hx, hbytes] at hs
    exact ⟨[], _, hs.symm, List.not_mem_nil⟩
  · refine ⟨x, m ++ r ++ l, ?_, fun h0 => hslash (mem_of_mem_upTo hx h0)⟩
    rw [← hs]
    simp

/-! ## Extensions -/

theorem extPrefix_ipv4 {bs : Bytes} (h : (sadbAddress.get bs).sockaddr.family = AF_INET) :
    extPrefix bs = some (.v4 (sadbAddress.get bs).sockaddr.addr (sadbAddress.get bs).prefixlen.toNat) := by
  rw [sadbAddress_get] at h ⊢
  rw [extPrefix, if_pos h]

/-- The extension of a subnet is of IPv4, whatever the subnet. -/
theorem family_subnetAddr {zero : BitVec 64} {t : BitVec 16} {proto port : BitVec 32} {subnet : CStr} {a : SadbAddress}
    (h : subnetAddr zero t proto port subnet = some a) : a.sockaddr.family = AF_INET := by
  rw [subnetAddr] at h
  obtain ⟨mask, -, h⟩ := Option.bind_eq_some_iff.mp h
  obtain ⟨ip, -, h⟩ := Option.bind_eq_some_iff.mp h
  cases h
  rfl

/-- The extension of a prefix denotes it exactly when it is of IPv4. -/
theorem denotesAt_iff {msg : Bytes} {zero : BitVec 64} {t : BitVec 16} {proto port : BitVec 32} {p : CStr}
    {a : SadbAddress} (hp : IsIpPrefix p) (ha : subnetAddr zero t proto port p = some a)
    (hmsg : decode sadbAddress msg t = some a) : DenotesAt msg t p ↔ IsIpv4Prefix p := by
  obtain ⟨bs, hbs, hget⟩ := Option.map_eq_some_iff.mp hmsg
  have hext : (ext? msg t).bind extPrefix = some (.v4 a.sockaddr.addr a.prefixlen.toNat) := by
    have hfamily := family_subnetAddr ha
    rw [← hget] at hfamily ⊢
    rw [hbs, Option.bind_some, extPrefix_ipv4 hfamily]
  rw [DenotesAt, hext]
  constructor
  · rintro ⟨x, hx, heq⟩
    refine hp.resolve_right fun h6 => ?_
    obtain ⟨b, c, hs, hb⟩ := ipv6Prefix_colon h6
    obtain ⟨groups, len, rfl⟩ := prefixOf_colon hs hb hx
    cases heq
  · intro h4
    obtain ⟨ip, w, x, y, z, len, hw, hx, hy, hz, hlen, hip, htext⟩ := ipv4Prefix_isPrefixText h4
    rw [subnetAddr_prefixText htext] at ha
    cases ha
    have haddr : inetAddr ip = quad w x y z := inetAddr_dotted hip hw hx hy hz
    have hmod : len % 2 ^ 8 = len := Nat.mod_eq_of_lt (by omega)
    refine ⟨_, prefixOf_ipv4 hw hx hy hz hlen (hip ▸ htext.text), ?_⟩
    simp only [address, haddr, BitVec.toNat_ofNat, hmod]

/-- Two prefixes in a message. -/
theorem denotes_iff {msg : Bytes} {zs zd : BitVec 64} {proto sport dport : BitVec 32} {p q : CStr} {src dst : SadbAddress}
    (hp : IsIpPrefix p) (hq : IsIpPrefix q) (hsrc : subnetAddr zs SADB_EXT_ADDRESS_SRC proto sport p = some src)
    (hdst : subnetAddr zd SADB_EXT_ADDRESS_DST proto dport q = some dst)
    (hs : decode sadbAddress msg SADB_EXT_ADDRESS_SRC = some src)
    (hd : decode sadbAddress msg SADB_EXT_ADDRESS_DST = some dst) :
    Denotes msg p q ↔ IsIpv4Prefix p ∧ IsIpv4Prefix q :=
  and_congr (denotesAt_iff hp hsrc hs) (denotesAt_iff hq hdst hd)

/-! ## Messages -/

/-- A call that sends messages of the type sends what they denote. -/
theorem sentOrRefused_iff {type : BitVec 8} {sent msgs : List Bytes} {p q : CStr} {C : Prop}
    (hsome : ∃ msg ∈ msgs, msgType msg = type) (hall : ∀ msg ∈ msgs, msgType msg = type → (Denotes msg p q ↔ C)) :
    SentOrRefused type sent (sent ++ msgs) (.ok ()) p q ↔ C := by
  constructor
  · rintro ⟨msgs', heq, ⟨-, hdenotes⟩ | ⟨hrc, -⟩⟩
    · obtain rfl := List.append_cancel_left heq
      obtain ⟨msg, hmem, htype⟩ := hsome
      exact (hall msg hmem htype).mp (hdenotes msg hmem htype)
    · exact absurd rfl hrc
  · intro hC
    exact ⟨msgs, rfl, .inl ⟨hsome, fun msg hmem htype => (hall msg hmem htype).mpr hC⟩⟩

/-- A call that sends nothing and returns no error does neither. -/
theorem not_sentOrRefused {type : BitVec 8} {sent : List Bytes} {p q : CStr} :
    ¬SentOrRefused type sent sent (.ok ()) p q := by
  rintro ⟨msgs, heq, ⟨⟨msg, hmem, -⟩, -⟩ | ⟨hrc, -⟩⟩
  · rw [List.self_eq_append_right.mp heq] at hmem
    cases hmem
  · exact hrc rfl

theorem addpolicyMessage_denotes {e : PolicyEnv} {n : SpdEntryNode} {msg : Bytes} (hl : IsIpPrefix n.localSubnet)
    (hr : IsIpPrefix n.remoteSubnet) (h : addpolicyMessage e n = some msg) :
    Denotes msg n.localSubnet n.remoteSubnet ↔ IsIpv4Prefix n.localSubnet ∧ IsIpv4Prefix n.remoteSubnet := by
  obtain ⟨src, dst, hsrc, hdst, -, htold⟩ := addpolicyMessage_says h
  exact denotes_iff hl hr hsrc hdst htold.src htold.dst

/-- The requests for an entry of the SPD, one or two, have its prefixes. -/
theorem addPolicies_denotes {e : AddSpdEnv} {n n' : SpdEntryNode} {msgs : List Bytes} (hl : IsIpPrefix n.localSubnet)
    (hr : IsIpPrefix n.remoteSubnet) (h : addPolicies e n = some (msgs, n')) :
    (∃ msg ∈ msgs, msgType msg = SADB_X_SPDADD) ∧ ∀ msg ∈ msgs, msgType msg = SADB_X_SPDADD →
      (Denotes msg n.localSubnet n.remoteSubnet ↔ IsIpv4Prefix n.localSubnet ∧ IsIpv4Prefix n.remoteSubnet) := by
  have hne : SADB_X_SPDDUMP ≠ SADB_X_SPDADD := by decide
  rw [addPolicies] at h
  obtain ⟨⟨msgs₁, n₁⟩, h₁, h⟩ := Option.bind_eq_some_iff.mp h
  obtain ⟨msg, dump, index, rfl, rfl, hmsg, htype, hdump⟩ := pfAddpolicy_messages h₁
  have hdenotes := addpolicyMessage_denotes hl hr hmsg
  dsimp only at h
  split at h
  · obtain ⟨⟨msgs₂, n₂⟩, h₂, h⟩ := Option.bind_eq_some_iff.mp h
    obtain ⟨msg', dump', index', rfl, rfl, hmsg', htype', hdump'⟩ := pfAddpolicy_messages h₂
    have hdenotes' := addpolicyMessage_denotes (n := { n with index := index, policyDir := IPSEC_DIR_FORWARD }) hl hr hmsg'
    cases h
    refine ⟨⟨msg, by simp, htype⟩, fun m hm ht => ?_⟩
    simp only [List.mem_append, List.mem_cons, List.not_mem_nil, or_false] at hm
    rcases hm with (rfl | rfl) | rfl | rfl
    · exact hdenotes
    · exact absurd (hdump.symm.trans ht) hne
    · exact hdenotes'
    · exact absurd (hdump'.symm.trans ht) hne
  · cases h
    refine ⟨⟨msg, by simp, htype⟩, fun m hm ht => ?_⟩
    simp only [List.mem_cons, List.not_mem_nil, or_false] at hm
    rcases hm with rfl | rfl
    · exact hdenotes
    · exact absurd (hdump.symm.trans ht) hne

/-! ## Entries -/

theorem spdSchema_selector :
    spdSchema.all (fun node =>
      match node.steps.getLast? with
      | some (.child name) =>
        decide (spdLeafOf (lit "/" ++ name) = some .localPrefix ↔ node = spdSelectorNode (lit "local-prefix"))
      | _ => decide (node ≠ spdSelectorNode (lit "local-prefix"))) = true ∧
    spdSchema.all (fun node =>
      match node.steps.getLast? with
      | some (.child name) =>
        decide (spdLeafOf (lit "/" ++ name) = some .remotePrefix ↔ node = spdSelectorNode (lit "remote-prefix"))
      | _ => decide (node ≠ spdSelectorNode (lit "remote-prefix"))) = true := by
  constructor <;> decide +kernel

theorem spdWrites_subnets {leaf : SpdLeaf} {n m : SpdEntryNode} (h : SpdWrites n m leaf) :
    (leaf ≠ .localPrefix → m.localSubnet = n.localSubnet) ∧ (leaf ≠ .remotePrefix → m.remoteSubnet = n.remoteSubnet) := by
  cases leaf
  case start =>
    obtain ⟨x, y, rfl⟩ := h
    exact ⟨fun _ => rfl, fun _ => rfl⟩
  case localPrefix =>
    obtain ⟨x, rfl⟩ := h
    exact ⟨fun hl => absurd rfl hl, fun _ => rfl⟩
  case remotePrefix =>
    obtain ⟨x, rfl⟩ := h
    exact ⟨fun _ => rfl, fun hl => absurd rfl hl⟩
  all_goals
    obtain ⟨x, rfl⟩ := h
    exact ⟨fun _ => rfl, fun _ => rfl⟩

/-- The node of a SPD entry has its prefixes. -/
theorem readSpdSettings_subnets {malloc n : SpdEntryNode} {name p q : CStr} {entry : List SpdSetting} {rc : Rc}
    {it : SrChangeIter} (hpq : SpdPrefixes entry p q) (h : readSpdSettings malloc name entry = some (rc, it, n)) :
    n.localSubnet = p ∧ n.remoteSubnet = q := by
  obtain ⟨d, hd, hp⟩ := Option.bind_eq_some_iff.mp hpq.localPrefix
  obtain ⟨d', hd', hq⟩ := Option.bind_eq_some_iff.mp hpq.remotePrefix
  have hstore : ∀ {d : SrData} {x}, d.stringVal = some x → x = d.text.getD (lit "") := fun {d x} hx => by
    rw [show d.text = some x from hx, Option.getD_some]
  have hl := readSpdSettings_valueAt (·.localSubnet) (fun d => d.text.getD (lit ""))
    (fun name s => spdLeafAt_eq_iff rfl spdSchema_selector.1 name s) (fun hne hw => (spdWrites_subnets hw).1 hne)
    (fun hs => by
      obtain ⟨x, hx, hs⟩ := Option.bind_eq_some_iff.mp hs
      cases hs
      exact hstore hx) h
  have hr := readSpdSettings_valueAt (·.remoteSubnet) (fun d => d.text.getD (lit ""))
    (fun name s => spdLeafAt_eq_iff rfl spdSchema_selector.2 name s) (fun hne hw => (spdWrites_subnets hw).2 hne)
    (fun hs => by
      obtain ⟨x, hx, hs⟩ := Option.bind_eq_some_iff.mp hs
      cases hs
      exact hstore hx) h
  rw [hd, Option.map_some, Option.getD_some, hp] at hl
  rw [hd', Option.map_some, Option.getD_some, hq] at hr
  exact ⟨hl, hr⟩

/-- The node of a SAD entry has its prefixes. -/
theorem readSettings_subnets {malloc n : SadEntryNode} {name p q : CStr} {entry : List Setting} {rc : Rc}
    {it : SrChangeIter} (hpq : SadPrefixes entry p q) (h : readSettings malloc name entry = some (rc, it, n)) :
    n.localSubnet = p ∧ n.remoteSubnet = q := by
  obtain ⟨d, hd, hp⟩ := Option.bind_eq_some_iff.mp hpq.localPrefix
  obtain ⟨d', hd', hq⟩ := Option.bind_eq_some_iff.mp hpq.remotePrefix
  have hn := storeAll_of_readSettings h
  have hl : Datum.text n.localSubnet = .text (d.text.getD (lit "")) := (field_eq_value_iff hn hd).mpr trivial
  have hr : Datum.text n.remoteSubnet = .text (d'.text.getD (lit "")) := (field_eq_value_iff hn hd').mpr trivial
  rw [hp, Option.getD_some] at hl
  rw [hq, Option.getD_some] at hr
  exact ⟨Datum.text.inj hl, Datum.text.inj hr⟩

/-- Without a mode it is zero. -/
theorem readSettings_transport {malloc n : SadEntryNode} {name : CStr} {entry : List Setting} {rc : Rc}
    {it : SrChangeIter} (hmode : TransportMode entry) (h : readSettings malloc name entry = some (rc, it, n)) :
    n.ipsecMode ≠ IPSEC_MODE_TUNNEL := by
  have hn := storeAll_of_readSettings h
  intro htunnel
  rw [TransportMode] at hmode
  cases hd : SaLeaf.mode.valueIn entry with
  | none =>
    have hnone : (entry.reverse.findSome? fun s =>
        if SaLeaf.mode ≠ .antiReplayWindowSize ∧ SaLeaf.mode.At s.node then some s.data else none) = none := by
      simpa [SaLeaf.valueIn] using hd
    have hfield := field_of_leaf hn .mode
    rw [hnone, SaLeaf.field, htunnel, Option.map_none, Option.getD_none] at hfield
    have hzero : Datum.number IPSEC_MODE_TUNNEL.toNat = .number 0 := hfield
    exact absurd hzero (by decide)
  | some d =>
    obtain ⟨s, hs, hmem⟩ := lookup_codes (l := .mode) (valueIn_admits hd)
    have hfield : SaLeaf.mode.field n = SaLeaf.mode.value d := (field_eq_value_iff hn hd).mpr trivial
    rw [hd, Option.bind_some, hs] at hmode
    rw [SaLeaf.value, value_of_text hs] at hfield
    have hcode : List.lookup (lit "transport") SaLeaf.mode.codes = some IPSEC_MODE_TRANSPORT := rfl
    rcases (by simpa [SaLeaf.codes] using hmem : s = lit "transport" ∨ s = lit "tunnel") with rfl | rfl
    · rw [hcode, SaLeaf.field, htunnel] at hfield
      exact absurd hfield (by decide)
    · exact hmode rfl

theorem addSpdEntry_sent_iff {p q : CStr} (hp : IsIpPrefix p) (hq : IsIpPrefix q) {e : AddSpdEnv}
    {s s' : Store SpdEntryNode} {entry : List SpdSetting} {name : CStr} {rc : Rc} {it : SrChangeIter}
    (hpq : SpdPrefixes entry p q)
    (hrun : addSpdEntry e s (spdBlock name entry) (spdEntryXpath name) name = some (rc, it, s')) :
    SentOrRefused SADB_X_SPDADD s.sent s'.sent rc p q ↔
      getSpdNode s.entries name = none ∧ IsIpv4Prefix p ∧ IsIpv4Prefix q := by
  obtain ⟨⟨n, hn⟩, rfl, -, rfl⟩ | ⟨-, err, n, hread, -⟩ | ⟨hn, n, msgs, n', hread, hadd, rfl, rfl⟩ :=
    addSpdEntry_cases hrun
  · refine iff_of_false not_sentOrRefused fun h => ?_
    rw [hn] at h
    cases h.1
  · have hne : entry ≠ [] := fun h => by
      have hl := hpq.localPrefix
      rw [h] at hl
      cases hl
    cases (readSpdSettings_ok hne hread).1
  · obtain ⟨rfl, rfl⟩ := readSpdSettings_subnets hpq hread
    obtain ⟨hsome, hall⟩ := addPolicies_denotes hp hq hadd
    rw [sentOrRefused_iff hsome hall]
    exact (and_iff_right hn).symm

theorem addSadEntry_sent_iff {p q : CStr} (hp : IsIpPrefix p) (hq : IsIpPrefix q) {e : AddSadEnv}
    {s s' : Store SadEntryNode} {entry : List Setting} {name : CStr} {rc : Rc} {it : SrChangeIter}
    (hpq : SadPrefixes entry p q) (hmode : TransportMode entry)
    (hrun : addSadEntry e s (sadBlock name entry) (sadEntryXpath name) name = some (rc, it, s')) :
    SentOrRefused SADB_ADD s.sent s'.sent rc p q ↔ IsIpv4Prefix p ∧ IsIpv4Prefix q := by
  obtain ⟨err, n, hread, -⟩ | ⟨n, add, get, hread, hadd, hget, rfl, rfl⟩ := addSadEntry_cases hrun
  · have hne : entry ≠ [] := fun h => by
      have hl := hpq.localPrefix
      rw [h] at hl
      cases hl
    obtain ⟨n', -, hread'⟩ := readSettings_eq e.node name hne
    rw [readSettings, hread] at hread'
    cases hread'
  · obtain ⟨rfl, rfl⟩ := readSettings_subnets hpq hread
    obtain ⟨addrs, haddrs, htold⟩ := pfAddsad_says hadd
    obtain ⟨-, -, -, -, -, hgettype, -⟩ := sadRequest_says hget
    rw [sadAddrs, if_neg (readSettings_transport hmode hread)] at haddrs
    obtain ⟨src, hsrc, haddrs⟩ := Option.bind_eq_some_iff.mp haddrs
    obtain ⟨dst, hdst, haddrs⟩ := Option.bind_eq_some_iff.mp haddrs
    cases haddrs
    have hdenotes := denotes_iff hp hq hsrc hdst htold.src htold.dst
    have hne : SADB_GET ≠ SADB_ADD := by decide
    refine sentOrRefused_iff ⟨add, by simp, htold.type⟩ fun m hm ht => ?_
    simp only [List.mem_cons, List.not_mem_nil, or_false] at hm
    rcases hm with rfl | rfl
    · exact hdenotes
    · exact absurd (hgettype.symm.trans ht) hne

/-- The prefixes of an entry that is added are sent as they are, or refused,
exactly when both are of IPv4, and for a SPD entry its name is not yet listed. -/
theorem prefixes_sent_iff {p q : CStr} (hp : IsIpPrefix p) (hq : IsIpPrefix q) :
    (∀ {e : AddSpdEnv} {s s' : Store SpdEntryNode} {entry : List SpdSetting} {name : CStr} {rc : Rc} {it : SrChangeIter},
      SpdPrefixes entry p q → addSpdEntry e s (spdBlock name entry) (spdEntryXpath name) name = some (rc, it, s') →
      (SentOrRefused SADB_X_SPDADD s.sent s'.sent rc p q ↔
        getSpdNode s.entries name = none ∧ IsIpv4Prefix p ∧ IsIpv4Prefix q)) ∧
    ∀ {e : AddSadEnv} {s s' : Store SadEntryNode} {entry : List Setting} {name : CStr} {rc : Rc} {it : SrChangeIter},
      SadPrefixes entry p q → TransportMode entry →
      addSadEntry e s (sadBlock name entry) (sadEntryXpath name) name = some (rc, it, s') →
      (SentOrRefused SADB_ADD s.sent s'.sent rc p q ↔ IsIpv4Prefix p ∧ IsIpv4Prefix q) :=
  ⟨fun hpq hrun => addSpdEntry_sent_iff hp hq hpq hrun, fun hpq hmode hrun => addSadEntry_sent_iff hp hq hpq hmode hrun⟩

/-- The additions of an entry to either database. -/
def addToSpd (entry : List SpdSetting) : Option (Rc × SrChangeIter × Store SpdEntryNode) :=
  addSpdEntry ⟨default, noPolicies, noPolicies⟩ emptyStore (spdBlock (lit "gw") entry) (spdEntryXpath (lit "gw")) (lit "gw")

def addToSad (entry : List Setting) : Option (Rc × SrChangeIter × Store SadEntryNode) :=
  addSadEntry ⟨default, ⟨1, 0, 0⟩, ⟨1, 0, 0⟩⟩ emptyStore (sadBlock (lit "gw") entry) (sadEntryXpath (lit "gw")) (lit "gw")

theorem prefixes_sent_gw :
    ∃ s s', addToSpd spdPrefixes = some (.ok (), [], s) ∧
      SentOrRefused SADB_X_SPDADD [] s.sent (.ok ()) (lit "192.168.201.0/24") (lit "192.168.202.0/24") ∧
      addToSad addSadPrefixes = some (.ok (), [], s') ∧
      SentOrRefused SADB_ADD [] s'.sent (.ok ()) (lit "192.168.201.0/24") (lit "192.168.202.0/24") := by
  have hlocal : IsIpv4Prefix (lit "192.168.201.0/24") := isIpv4Prefix_lit 192 168 201 0 24 (by decide +kernel)
  have hremote : IsIpv4Prefix (lit "192.168.202.0/24") := isIpv4Prefix_lit 192 168 202 0 24 (by decide +kernel)
  have hspd : (addToSpd spdPrefixes).any (fun r => r.1 = .ok () ∧ r.2.1 = []) = true := by decide +kernel
  have hsad : (addToSad addSadPrefixes).any (fun r => r.1 = .ok () ∧ r.2.1 = []) = true := by decide +kernel
  obtain ⟨⟨rc, it, s⟩, hs, h⟩ := (Option.any_eq_true _ _).mp hspd
  obtain ⟨⟨rc', it', s'⟩, hs', h'⟩ := (Option.any_eq_true _ _).mp hsad
  obtain ⟨rfl, rfl⟩ := of_decide_eq_true h
  obtain ⟨rfl, rfl⟩ := of_decide_eq_true h'
  have hmode : TransportMode addSadPrefixes := by
    rw [TransportMode]
    decide +kernel
  have hsent := prefixes_sent_iff (.inl hlocal) (.inl hremote)
  have hnew : getSpdNode (emptyStore : Store SpdEntryNode).entries (lit "gw") = none := rfl
  exact ⟨s, s', hs, (hsent.1 ⟨by decide +kernel, by decide +kernel⟩ hs).mpr ⟨hnew, hlocal, hremote⟩, hs',
    (hsent.2 ⟨by decide +kernel, by decide +kernel⟩ hmode hs').mpr ⟨hlocal, hremote⟩⟩

def ipv6Policy : List SpdSetting :=
  [spdPrefix "local-prefix" "2001:db8::/32" mem_spdSchema_local,
    spdPrefix "remote-prefix" "2001:db9::/32" mem_spdSchema_remote]

def ipv6Sa : List Setting :=
  [sadPrefix "local-prefix" "2001:db8::/32" mem_sadSchema_local,
    sadPrefix "remote-prefix" "2001:db9::/32" mem_sadSchema_remote]

theorem ipv4Prefix_noColon {s : CStr} (h : IsIpv4Prefix s) : (0x3a : Byte) ∉ s.bytes := by
  obtain ⟨addr, len, hdot, -, hs⟩ := ipv4Prefix_text h
  have haddr : (0x3a : Byte) ∉ addr := not_mem_dotted rfl (by decide) hdot
  have hdec : (0x3a : Byte) ∉ decimal len := fun hmem => by simpa [isDigit] using isDigit_of_mem_decimal hmem
  rw [hs, List.mem_append, List.mem_cons, not_or, not_or]
  exact ⟨haddr, by decide, hdec⟩

/-- The policy and the SA of prefixes of IPv6 are added with 255.255.255.255/32
as their source, and the calls succeed. -/
theorem prefixes_sent_ipv6 :
    IsIpPrefix (lit "2001:db8::/32") ∧ IsIpPrefix (lit "2001:db9::/32") ∧
    ∃ s s', addToSpd ipv6Policy = some (.ok (), [], s) ∧ addToSad ipv6Sa = some (.ok (), [], s') ∧
      (∀ sent ∈ [s.sent, s'.sent], ∃ msg ∈ sent.head?,
        (ext? msg SADB_EXT_ADDRESS_SRC).bind extPrefix = some (.v4 INADDR_NONE 32)) ∧
      ¬SentOrRefused SADB_X_SPDADD [] s.sent (.ok ()) (lit "2001:db8::/32") (lit "2001:db9::/32") ∧
      ¬SentOrRefused SADB_ADD [] s'.sent (.ok ()) (lit "2001:db8::/32") (lit "2001:db9::/32") := by
  have hlen : (lit "32").bytes ∈ ipv6LenPat.matches' := of_mem_words (by decide +kernel)
  have hlocal : IsIpv6Prefix (lit "2001:db8::/32") := by
    refine isIpv6Prefix_double (lit "2001").bytes (lit "db8").bytes ?_ hlen ?_ ?_ ?_ <;> decide +kernel
  have hremote : IsIpv6Prefix (lit "2001:db9::/32") := by
    refine isIpv6Prefix_double (lit "2001").bytes (lit "db9").bytes ?_ hlen ?_ ?_ ?_ <;> decide +kernel
  have hnot : ¬IsIpv4Prefix (lit "2001:db8::/32") := fun h => ipv4Prefix_noColon h (by decide +kernel)
  have hmode : TransportMode ipv6Sa := by
    rw [TransportMode]
    decide +kernel
  have hspd : (addToSpd ipv6Policy).any (fun r => r.1 = .ok () ∧ r.2.1 = [] ∧ r.2.2.sent.head?.any fun msg =>
      (ext? msg SADB_EXT_ADDRESS_SRC).bind extPrefix = some (.v4 INADDR_NONE 32)) = true := by decide +kernel
  have hsad : (addToSad ipv6Sa).any (fun r => r.1 = .ok () ∧ r.2.1 = [] ∧ r.2.2.sent.head?.any fun msg =>
      (ext? msg SADB_EXT_ADDRESS_SRC).bind extPrefix = some (.v4 INADDR_NONE 32)) = true := by decide +kernel
  obtain ⟨⟨rc, it, s⟩, hs, h⟩ := (Option.any_eq_true _ _).mp hspd
  obtain ⟨⟨rc', it', s'⟩, hs', h'⟩ := (Option.any_eq_true _ _).mp hsad
  obtain ⟨rfl, rfl, hmsg⟩ := of_decide_eq_true h
  obtain ⟨rfl, rfl, hmsg'⟩ := of_decide_eq_true h'
  obtain ⟨msg, hhead, hmsg⟩ := (Option.any_eq_true _ _).mp hmsg
  obtain ⟨msg', hhead', hmsg'⟩ := (Option.any_eq_true _ _).mp hmsg'
  refine ⟨.inr hlocal, .inr hremote, s, s', hs, hs', List.forall_mem_cons.mpr ⟨?_, List.forall_mem_singleton.mpr ?_⟩,
    fun hsent => ?_, fun hsent => ?_⟩
  · exact ⟨msg, hhead, of_decide_eq_true hmsg⟩
  · exact ⟨msg', hhead', of_decide_eq_true hmsg'⟩
  · exact hnot ((addSpdEntry_sent_iff (.inr hlocal) (.inr hremote) ⟨by decide +kernel, by decide +kernel⟩ hs).mp hsent).2.1
  · exact hnot ((addSadEntry_sent_iff (.inr hlocal) (.inr hremote) ⟨by decide +kernel, by decide +kernel⟩ hmode hs').mp
      hsent).1

end CfgIpsec.Proof
