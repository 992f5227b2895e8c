import CfgIpsec.Proof.SpdSettings
import CfgIpsec.Spec.Protocols

/-!
# Inner protocols that are read for addresses

Of an inner protocol both readers keep the low 16 bits, up to 256, whether they
are of a number or of an address (`ReadsProtocol`), and of texts elsewhere they
see nothing (`storeAll_protocol`). So `any` is read as 256 exactly when the low
16 bits of its address are no number of a protocol (`inner_protocol_iff`).
-/

namespace CfgIpsec.Proof

open Impl Spec
open CStr (lit)

/-! ## Values -/

/-- What the readers make of an inner protocol. -/
def lowProtocol (d : SrData) : BitVec 32 := BitVec.ofNat 32 (lowPart d)

theorem lowProtocol_of_le {d : SrData} (h : d.uint16Val ≤ 256) : d.uint16Val.setWidth 32 = lowProtocol d := by
  have hnat : d.uint16Val.toNat ≤ 256 := h
  rw [SrData.uint16Val] at hnat
  rw [← BitVec.toNat_inj, lowProtocol, lowPart, SrData.uint16Val, BitVec.toNat_setWidth, BitVec.toNat_ofNat,
    Nat.min_eq_left hnat]

theorem lowProtocol_of_gt {d : SrData} (h : ¬d.uint16Val ≤ 256) : 256 = lowProtocol d := by
  have hnat : ¬d.uint16Val.toNat ≤ 256 := h
  rw [SrData.uint16Val] at hnat
  rw [lowProtocol, lowPart, Nat.min_eq_right (by omega)]
  rfl

theorem lowProtocol_inj {d d' : SrData} : lowProtocol d = lowProtocol d' ↔ lowPart d = lowPart d' := by
  have hle : ∀ x : SrData, lowPart x < 2 ^ 32 := fun x => (Nat.min_le_right _ _).trans_lt (by decide)
  rw [lowProtocol, lowProtocol, ← BitVec.toNat_inj, BitVec.toNat_ofNat, BitVec.toNat_ofNat,
    Nat.mod_eq_of_lt (hle d), Nat.mod_eq_of_lt (hle d')]

/-- That is the protocol, when `any` is well placed. -/
theorem lowProtocol_eq_iff {d : SrData} (hd : YangType.innerProtocol.admits d = true) :
    lowProtocol d = protocolOf d ↔ WellPlaced d := by
  rw [lowProtocol, lowPart, protocolOf, WellPlaced]
  by_cases hany : d.text = some (lit "any")
  · have hword : (256 : BitVec 32).toNat = 256 := rfl
    rw [if_pos hany, ← BitVec.toNat_inj, BitVec.toNat_ofNat, hword,
      Nat.mod_eq_of_lt ((Nat.min_le_right _ _).trans_lt (by decide))]
    exact ⟨fun h _ => by omega, fun h => Nat.min_eq_right (h hany)⟩
  · have hraw : d.raw.toNat < 2 ^ 8 := by simpa [YangType.admits, hany] using hd
    have hshort : (d.raw.setWidth 16).toNat = d.raw.toNat := by
      rw [BitVec.toNat_setWidth]
      omega
    refine iff_of_true ?_ fun h => absurd h hany
    rw [if_neg hany, hshort, ← BitVec.toNat_inj, BitVec.toNat_ofNat, BitVec.toNat_setWidth,
      Nat.min_eq_left (by omega)]

theorem eq_of_sameValue {type : YangType} {d d' : SrData} (hn : numeric type = true) (h : SameValue type d d') :
    d = d' := by
  have hno : ¬type.isText d := by
    cases type
    case inner | boolean | uint => exact id
    all_goals cases hn
  obtain ⟨htext, hraw⟩ := h
  rcases d with ⟨raw, text⟩
  rcases d' with ⟨raw', text'⟩
  rw [SrData.mk.injEq]
  exact ⟨hraw.resolve_right hno, htext⟩

/-! ## Readers -/

section Readers

variable {ι α : Type}

/-- A reader keeps the low part of an inner protocol, and reads other values
that are the same in the same way, whatever protocol the node has. -/
structure ReadsProtocol (store : ι → α → Option (Stored α)) (get : α → BitVec 32) (put : α → BitVec 32 → α)
    (protocol? : ι → Option SrData) (Same : ι → ι → Prop) : Prop where
  get_put : ∀ n p, get (put n p) = p
  put_put : ∀ n p q, put (put n p) q = put n q
  put_get : ∀ n, put n (get n) = n
  own : ∀ {s d}, protocol? s = some d → ∀ n, store s n = some (.next (put n (lowProtocol d)))
  same : ∀ {s t}, Same s t → (protocol? s).isSome = (protocol? t).isSome
  other : ∀ {s t}, protocol? s = none → Same s t → ∀ n, ∃ m, get m = get n ∧ store s n = some (.next m) ∧
    ∀ p, store t (put n p) = some (.next (put m p))

/-- The last inner protocol among the values. -/
def lastProtocol (protocol? : ι → Option SrData) (ss : List ι) (p : BitVec 32) : BitVec 32 :=
  ((ss.reverse.findSome? protocol?).map lowProtocol).getD p

theorem lastProtocol_cons (protocol? : ι → Option SrData) (s : ι) (ss : List ι) (p : BitVec 32) :
    lastProtocol protocol? (s :: ss) p = lastProtocol protocol? ss (((protocol? s).map lowProtocol).getD p) := by
  rw [lastProtocol, lastProtocol, List.reverse_cons, List.findSome?_append, List.findSome?_singleton]
  cases ss.reverse.findSome? protocol? <;> rfl

/-- Two runs over values that are the same, but for the addresses of texts, make
nodes that are the same but for the protocols kept. -/
theorem storeAll_protocol {store : ι → α → Option (Stored α)} {get : α → BitVec 32} {put : α → BitVec 32 → α}
    {protocol? : ι → Option SrData} {Same : ι → ι → Prop} (h : ReadsProtocol store get put protocol? Same)
    {ss ts : List ι} (hst : List.Forall₂ Same ss ts) (n : α) (p : BitVec 32) :
    ∃ m, storeAll store ss n = some m ∧ get m = lastProtocol protocol? ss (get n) ∧
      storeAll store ts (put n p) = some (put m (lastProtocol protocol? ts p)) := by
  induction hst generalizing n p with
  | nil => exact ⟨n, rfl, rfl, rfl⟩
  | @cons s t ss ts hs hst ih =>
    cases hps : protocol? s with
    | some d =>
      obtain ⟨d', hpt⟩ := Option.isSome_iff_exists.mp ((h.same hs).symm.trans (Option.isSome_iff_exists.mpr ⟨d, hps⟩))
      obtain ⟨m, hm, hget, hput⟩ := ih (put n (lowProtocol d)) (lowProtocol d')
      rw [h.put_put] at hput
      rw [h.get_put] at hget
      refine ⟨m, storeAll_cons.mpr ⟨_, h.own hps n, hm⟩, ?_, storeAll_cons.mpr ⟨_, h.own hpt _, ?_⟩⟩
      · rw [lastProtocol_cons, hps]; exact hget
      · rw [h.put_put, lastProtocol_cons, hpt]; exact hput
    | none =>
      have hpt : protocol? t = none := by
        rw [← Option.not_isSome_iff_eq_none, ← h.same hs, hps]
        simp
      obtain ⟨m₁, hget₁, hm₁, hput₁⟩ := h.other hps hs n
      obtain ⟨m, hm, hget, hput⟩ := ih m₁ p
      refine ⟨m, storeAll_cons.mpr ⟨_, hm₁, hm⟩, ?_, storeAll_cons.mpr ⟨_, hput₁ p, ?_⟩⟩
      · rw [lastProtocol_cons, hps, hget, hget₁]; rfl
      · rw [lastProtocol_cons, hpt]; exact hput

/-- What does not look at the protocol keeps it. -/
theorem other_of_store {get : α → BitVec 32} {put : α → BitVec 32 → α} {f g : α → Option (Stored α)} {n m : α}
    (hget : ∀ n p, get (put n p) = p) (hput : ∀ n, put n (get n) = n) (hm : f n = some (.next m))
    (hsame : ∀ n, f n = g n) (hcomm : ∀ n p, f (put n p) = (f n).map (Stored.map fun m => put m p)) :
    ∃ m, get m = get n ∧ f n = some (.next m) ∧ ∀ p, g (put n p) = some (.next (put m p)) := by
  refine ⟨m, ?_, hm, fun p => ?_⟩
  · have hself := hcomm n (get n)
    rw [hput, hm] at hself
    injection Option.some.inj hself with hm'
    rw [hm', hget]
  · rw [← hsame, hcomm, hm]
    rfl

end Readers

/-! ## SAD entries -/

/-- The leaves that are read through a pointer. -/
def readsText : SadLeaf → Bool
  | .localPrefix | .remotePrefix | .mode | .localEnd | .remoteEnd | .dfBit | .protocolParameters | .iv | .key => true
  | _ => false

theorem sadSchema_protocols :
    sadSchema.all (fun node => (nodeLeaf node = some .innerProtocol ↔ node = sadProtocolNode) ∧
      (nodeLeaf node).all fun leaf => leaf = .innerProtocol || readsText leaf || numeric node.type) = true := by
  decide +kernel

theorem sadStore_protocol {d : SrData} (hd : YangType.innerProtocol.admits d = true) (has : CStr → Bool)
    (n : SadEntryNode) :
    SadLeaf.innerProtocol.store has d n = some (.next { n with innerProtocol := lowProtocol d }) := by
  rw [SadLeaf.store]
  split
  · rename_i hle
    rw [lowProtocol_of_le hle]
  · rename_i hgt
    have hany := (admits_innerProtocol hd).resolve_left hgt
    simp only [SrData.stringVal, hany, Option.bind_eq_bind, Option.bind_some, if_true, lowProtocol_of_gt hgt,
      Option.pure_def]

theorem sadStore_same {leaf : SadLeaf} {type : YangType} {d d' : SrData} (hs : SameValue type d d')
    (h : readsText leaf = true ∨ numeric type = true) (has : CStr → Bool) (n : SadEntryNode) :
    leaf.store has d n = leaf.store has d' n := by
  rcases h with ht | hn
  · cases leaf
    case iv | key => simp only [SadLeaf.store, copyHex, SrData.stringVal, hs.1]
    case localPrefix | remotePrefix | mode | localEnd | remoteEnd | dfBit | protocolParameters =>
      simp only [SadLeaf.store, SrData.stringVal, hs.1]
    all_goals cases ht
  · rw [eq_of_sameValue hn hs]

/-- Other leaves do not look at the protocol. -/
theorem sadStore_other {leaf : SadLeaf} (hl : leaf ≠ .innerProtocol) (p : BitVec 32) (has : CStr → Bool) (d : SrData)
    (n : SadEntryNode) :
    leaf.store has d { n with innerProtocol := p } =
      (leaf.store has d n).map (Stored.map fun m => { m with innerProtocol := p }) :=
  comm_of_frame (f := fun n => leaf.store has d n) (sadStore_frame hl has d)
    (fun m => { m with innerProtocol := p }) (n.name, p)
    (rfl : sadFrame (n.name, n.innerProtocol) n = n) rfl fun _ => rfl

theorem readsProtocol_sad (name : CStr) :
    ReadsProtocol (fun s : Setting => readSadValue (s.value name)) (·.innerProtocol)
      (fun n p => { n with innerProtocol := p })
      (fun s => if s.node = sadProtocolNode then some s.data else none)
      (fun s t => s.node = t.node ∧ s.keys = t.keys ∧ SameValue s.node.type s.data t.data) where
  get_put _ _ := rfl
  put_put _ _ _ := rfl
  put_get _ := rfl
  own {s d} hs n := by
    have hok := of_decide_eq_true (List.all_eq_true.mp sadSchema_protocols s.node s.mem)
    split at hs
    · rename_i hnode
      cases hs
      have hd := s.admits
      rw [hnode] at hd
      rw [readSadValue_setting, hok.1.mpr hnode]
      exact sadStore_protocol hd _ n
    · cases hs
  same {s t} hst := by
    rw [hst.1]
    split <;> rfl
  other {s t} hs hst n := by
    obtain ⟨hnode, hkeys, hvalue⟩ := hst
    have hok := of_decide_eq_true (List.all_eq_true.mp sadSchema_protocols s.node s.mem)
    have hne : s.node ≠ sadProtocolNode := fun h => by simp [h] at hs
    have hpath : s.path = t.path := by rw [Setting.path, Setting.path, hnode, hkeys]
    simp only [readSadValue_setting, ← hnode, ← hpath]
    cases hl : nodeLeaf s.node with
    | none => exact ⟨n, rfl, rfl, fun _ => rfl⟩
    | some leaf =>
      have hleaf : leaf ≠ .innerProtocol := fun h => hne (hok.1.mp (h ▸ hl))
      have hreads : readsText leaf = true ∨ numeric s.node.type = true := by
        have h := hok.2
        simpa [hl, hleaf] using h
      have haccepts := List.all_eq_true.mp sadSchema_accepts s.node s.mem
      rw [hl] at haccepts
      obtain ⟨m, hm⟩ := store_accepts haccepts s.admits (strstr (sadEntryXpath name ++ s.path)) n
      exact other_of_store (fun _ _ => rfl) (fun _ => rfl) hm (sadStore_same hvalue hreads _)
        fun n p => sadStore_other hleaf p _ _ n

/-! ## SPD entries -/

/-- What the reader relies on to tell the inner protocol from other nodes. -/
def spdProtocolOk (node : SchemaNode) : Bool :=
  match node.steps.getLast? with
  | some (.child name) => spdLeafOf (lit "/" ++ name) = some .innerProtocol ↔ node = spdProtocolNode
  | _ => node ≠ spdProtocolNode

theorem spdSchema_protocols : spdSchema.all spdProtocolOk = true := by decide +kernel

theorem spdLeafAt_eq_innerProtocol_iff (name : CStr) (s : SpdSetting) :
    spdLeafAt name s = some .innerProtocol ↔ s.node = spdProtocolNode :=
  spdLeafAt_eq_iff rfl spdSchema_protocols name s

theorem spdStore_protocol {d : SrData} (hd : YangType.innerProtocol.admits d = true) (has : CStr → Bool)
    (n : SpdEntryNode) :
    SpdLeaf.innerProtocol.store has d n = some (.next { n with innerProtocol := lowProtocol d }) := by
  rw [SpdLeaf.store]
  split
  · rename_i hle
    rw [lowProtocol_of_le hle]
  · rename_i hgt
    have hany := (admits_innerProtocol hd).resolve_left hgt
    simp only [SrData.stringVal, hany, Option.bind_eq_bind, Option.bind_some, if_true, lowProtocol_of_gt hgt,
      Option.pure_def]

theorem spdStore_same {leaf : SpdLeaf} {type : YangType} {d d' : SrData} (hs : SameValue type d d')
    (h : spdAccepts leaf type = true) (hl : leaf ≠ .innerProtocol) (has : CStr → Bool) (n : SpdEntryNode) :
    leaf.store has d n = leaf.store has d' n := by
  cases leaf
  case innerProtocol => exact absurd rfl hl
  case direction | localPrefix | remotePrefix | action | mode | localEnd | remoteEnd | dfBit | protocolParameters =>
    simp only [SpdLeaf.store, SrData.stringVal, hs.1]
  all_goals rw [eq_of_sameValue h hs]

theorem spdStore_other {leaf : SpdLeaf} (hl : leaf ≠ .innerProtocol) (p : BitVec 32) (has : CStr → Bool) (d : SrData)
    (n : SpdEntryNode) :
    leaf.store has d { n with innerProtocol := p } =
      (leaf.store has d n).map (Stored.map fun m => { m with innerProtocol := p }) :=
  comm_of_frame (f := fun n => leaf.store has d n) (spdStore_frame hl has d)
    (fun m => { m with innerProtocol := p }) (n.name, p)
    (rfl : spdFrame (n.name, n.innerProtocol) n = n) rfl fun _ => rfl

theorem readsProtocol_spd (name : CStr) :
    ReadsProtocol (fun s : SpdSetting => readSpdValue (s.value name)) (·.innerProtocol)
      (fun n p => { n with innerProtocol := p })
      (fun s => if s.node = spdProtocolNode then some s.data else none)
      (fun s t => s.node = t.node ∧ s.keys = t.keys ∧ SameValue s.node.type s.data t.data) where
  get_put _ _ := rfl
  put_put _ _ _ := rfl
  put_get _ := rfl
  own {s d} hs n := by
    split at hs
    · rename_i hnode
      cases hs
      have hd := s.admits
      rw [hnode] at hd
      rw [readSpdValue_setting, (spdLeafAt_eq_innerProtocol_iff name s).mpr hnode]
      exact spdStore_protocol hd _ n
    · cases hs
  same {s t} hst := by
    rw [hst.1]
    split <;> rfl
  other {s t} hs hst n := by
    obtain ⟨hnode, hkeys, hvalue⟩ := hst
    have hne : s.node ≠ spdProtocolNode := fun h => by simp [h] at hs
    have hpath : s.path = t.path := by rw [SpdSetting.path, SpdSetting.path, hnode, hkeys]
    have hat : spdLeafAt name t = spdLeafAt name s := by
      rw [spdLeafAt, spdLeafAt, SpdSetting.value, SpdSetting.value, hpath]
    simp only [readSpdValue_setting, hat, ← hpath]
    cases hl : spdLeafAt name s with
    | none => exact ⟨n, rfl, rfl, fun _ => rfl⟩
    | some leaf =>
      have hleaf : leaf ≠ .innerProtocol := fun h => hne ((spdLeafAt_eq_innerProtocol_iff name s).mp (h ▸ hl))
      have haccepts := spdLeafAt_accepts hl
      obtain ⟨m, hm⟩ := spdStore_accepts haccepts s.admits (strstr (spdEntryXpath name ++ s.path)) n
      exact other_of_store (fun _ _ => rfl) (fun _ => rfl) hm (spdStore_same hvalue haccepts hleaf _)
        fun n p => spdStore_other hleaf p _ _ n

/-! ## Entries -/

def setProtocol (p : BitVec 32) : EntryNode → EntryNode
  | .sad n => .sad { n with innerProtocol := p }
  | .spd n => .spd { n with innerProtocol := p }

theorem innerProtocol_setProtocol (p : BitVec 32) (n : EntryNode) : (setProtocol p n).innerProtocol = p := by
  cases n <;> rfl

theorem setProtocol_innerProtocol (n : EntryNode) : setProtocol n.innerProtocol n = n := by
  cases n <;> rfl

theorem lastProtocol_of_findSome {ι : Type} {protocol? : ι → Option SrData} {ss : List ι} {d : SrData}
    (h : ss.reverse.findSome? protocol? = some d) (p : BitVec 32) :
    lastProtocol protocol? ss p = lowProtocol d := by
  rw [lastProtocol, h, Option.map_some, Option.getD_some]

/-- Two entries that differ in the places of texts alone are accepted, and read
alike but for the low part of their protocols. -/
theorem read_replaced {e e' : Entry} (h : Replaced e e') {d d' : SrData} (hd : e.protocol? = some d)
    (hd' : e'.protocol? = some d') (name : CStr) :
    ∃ n, e.read name = some (.ok (), n) ∧ n.innerProtocol = lowProtocol d ∧
      e'.read name = some (.ok (), setProtocol (lowProtocol d') n) := by
  cases h with
  | @sad malloc ss ts hst =>
    have hne : ss ≠ [] := by rintro rfl; cases hd
    have hne' : ts ≠ [] := by rintro rfl; cases hd'
    obtain ⟨n, hn, hread⟩ := readSettings_eq malloc name hne
    obtain ⟨n', hn', hread'⟩ := readSettings_eq malloc name hne'
    obtain ⟨m, hm, hget, hput⟩ :=
      storeAll_protocol (readsProtocol_sad name) hst ((createSadNode malloc).setName name) 0
    rw [lastProtocol_of_findSome hd] at hget
    rw [lastProtocol_of_findSome hd'] at hput
    obtain rfl : n = m := Option.some.inj (hn.symm.trans hm)
    obtain rfl : n' = { n with innerProtocol := lowProtocol d' } := Option.some.inj (hn'.symm.trans hput)
    exact ⟨.sad n, by rw [Entry.read, hread]; rfl, hget, by rw [Entry.read, hread']; rfl⟩
  | @spd malloc ss ts hst =>
    have hne : ss ≠ [] := by rintro rfl; cases hd
    have hne' : ts ≠ [] := by rintro rfl; cases hd'
    obtain ⟨m, hm, hget, hput⟩ :=
      storeAll_protocol (readsProtocol_spd name) hst ((createSpdNode malloc).setName name) 0
    rw [lastProtocol_of_findSome hd] at hget
    rw [lastProtocol_of_findSome hd'] at hput
    have hread : readSpdSettings malloc name ss = some (.ok (), [], m) := readSpdSettings_eq hne hm
    have hread' : readSpdSettings malloc name ts = some (.ok (), [], { m with innerProtocol := lowProtocol d' }) :=
      readSpdSettings_eq hne' hput
    exact ⟨.spd m, by rw [Entry.read, hread]; rfl, hget, by rw [Entry.read, hread']; rfl⟩

theorem protocol_admits {e : Entry} {d : SrData} (h : e.protocol? = some d) :
    YangType.innerProtocol.admits d = true := by
  cases e with
  | sad malloc settings => exact valueAt_admits h
  | spd malloc settings =>
    obtain ⟨s, -, hs⟩ := List.exists_of_findSome?_eq_some h
    split at hs
    · rename_i hnode
      cases hs
      have hd := s.admits
      rw [hnode] at hd
      exact hd
    · cases hs

/-- An inner protocol is read for what it is exactly when it is a number or
`any` at an address with 256 or more in its low 16 bits; and two entries that
differ in the places of texts alone are read alike exactly when the low 16 bits
of their protocols are the same up to 256. -/
theorem inner_protocol_iff {e e' : Entry} (h : Replaced e e') {d d' : SrData} (hd : e.protocol? = some d)
    (hd' : e'.protocol? = some d') (name : CStr) :
    (ReadAs d (e.read name) ↔ WellPlaced d) ∧ (e.read name = e'.read name ↔ lowPart d = lowPart d') := by
  obtain ⟨n, hread, hlow, hread'⟩ := read_replaced h hd hd' name
  constructor
  · rw [ReadAs, hread, Option.map_some, hlow, Option.some_inj, Prod.mk.injEq, eq_self, true_and]
    exact lowProtocol_eq_iff (protocol_admits hd)
  · rw [hread, hread', Option.some_inj, Prod.mk.injEq, eq_self, true_and, ← lowProtocol_inj, ← hlow]
    constructor
    · intro heq
      have hprotocol := congrArg EntryNode.innerProtocol heq
      rwa [innerProtocol_setProtocol] at hprotocol
    · intro heq
      rw [← heq, setProtocol_innerProtocol]

/-- The text `any` at an address. -/
def anyAt (addr : BitVec 64) : SrData := ⟨addr, some (lit "any")⟩

theorem anyAt_admits (addr : BitVec 64) : YangType.innerProtocol.admits (anyAt addr) = true := by
  simp [YangType.admits, anyAt]

/-- A SAD entry for any protocol. -/
def sadAny (addr : BitVec 64) : Entry :=
  .sad default (configSetting [.child (lit "traffic-selector"), .child (lit "inner-protocol")] .innerProtocol
    (anyAt addr) (by decide +kernel) (anyAt_admits addr) :: addSadPrefixes)

/-- A SPD entry for any protocol. -/
def spdAny (addr : BitVec 64) : Entry :=
  .spd default [⟨spdProtocolNode, [], anyAt addr, by decide +kernel, noKeys, anyAt_admits addr⟩]

theorem replaced_spdAny (addr addr' : BitVec 64) : Replaced (spdAny addr) (spdAny addr') :=
  .spd _ (.cons ⟨rfl, rfl, rfl, .inr rfl⟩ .nil)

theorem inner_protocol_any :
    (ReadAs (anyAt 0x55d0c81f4a0) ((spdAny 0x55d0c81f4a0).read (lit "gw")) ↔ WellPlaced (anyAt 0x55d0c81f4a0)) ∧
      ((spdAny 0x55d0c81f4a0).read (lit "gw") = (spdAny 0x55d0c8204b0).read (lit "gw") ↔
        lowPart (anyAt 0x55d0c81f4a0) = lowPart (anyAt 0x55d0c8204b0)) :=
  inner_protocol_iff (replaced_spdAny _ _) (by decide +kernel) (by decide +kernel) _

/-- At 0x55d0c820030 it is read as the protocol 48, and not as it is elsewhere. -/
theorem inner_protocol_misread :
    ((spdAny 0x55d0c820030).read (lit "gw")).map (fun r => (r.1, r.2.innerProtocol)) = some (.ok (), 48) ∧
      ((sadAny 0x55d0c820030).read (lit "gw")).map (fun r => (r.1, r.2.innerProtocol)) = some (.ok (), 48) ∧
      ¬ReadAs (anyAt 0x55d0c820030) ((spdAny 0x55d0c820030).read (lit "gw")) ∧
      ¬ReadAs (anyAt 0x55d0c820030) ((sadAny 0x55d0c820030).read (lit "gw")) ∧
      Replaced (spdAny 0x55d0c820030) (spdAny 0x55d0c81f4a0) ∧
      (spdAny 0x55d0c820030).read (lit "gw") ≠ (spdAny 0x55d0c81f4a0).read (lit "gw") := by
  have hspd : ((spdAny 0x55d0c820030).read (lit "gw")).map (fun r => (r.1, r.2.innerProtocol)) =
      some (.ok (), 48) := by decide +kernel
  have hsad : ((sadAny 0x55d0c820030).read (lit "gw")).map (fun r => (r.1, r.2.innerProtocol)) =
      some (.ok (), 48) := by decide +kernel
  have hany : protocolOf (anyAt 0x55d0c820030) = 256 := by decide +kernel
  refine ⟨hspd, hsad, ?_, ?_, replaced_spdAny _ _, fun heq => ?_⟩
  · rw [ReadAs, hspd, hany]
    decide
  · rw [ReadAs, hsad, hany]
    decide
  · rw [heq] at hspd
    revert hspd
    decide +kernel

end CfgIpsec.Proof
