import CfgIpsec.Framework.Parts
import CfgIpsec.Proof.Capacity
import CfgIpsec.Proof.Names
import CfgIpsec.Proof.Protocols
import CfgIpsec.Spec.Order

/-!
# Changes of a SAD entry in any order

What the reader does with a value is a fixed run of settings of fields
(`store_assigns`), and different leaves of the schema are stored in different
fields (`sadSchema_fields`), as long as the name of the entry has no marker. So
it makes the same node of the changes of an entry in every order
(`readSadEntry_perm`), when all their strings have room (`sad_order_iff`): a
string that has none runs into the next one.
-/

namespace CfgIpsec.Proof

open Impl Spec Pattern
open CStr (lit)

/-! ## Fields -/

/-- The fields of a node that the reader sets. -/
inductive SadField
  | reqId
  | spi
  | extSeqNum
  | seqNumberCounter
  | seqOverflow
  | antiReplayWindow
  | localSubnet
  | remoteSubnet
  | innerProtocol
  | srcport
  | dstport
  | ipsecMode
  | tunnelLocal
  | tunnelRemote
  | bypassDscp
  | ecn
  | dfBit
  | protocolParameters
  | encryptionAlg
  | encryptionIv
  | encryptionKey
  | integrityKey
  | integrityAlg
  | lftTimeSoft
  | lftTimeHard
  | lftBytesSoft
  | lftBytesHard
  | lftPacketsSoft
  | lftPacketsHard
  | lftIdleSoft
  | lftIdleHard
deriving DecidableEq

def SadField.Value : SadField → Type
  | .extSeqNum | .seqOverflow | .bypassDscp | .ecn => Bool
  | .localSubnet | .remoteSubnet | .tunnelLocal | .tunnelRemote | .encryptionIv | .encryptionKey | .integrityKey => CStr
  | .innerProtocol | .srcport | .dstport | .encryptionAlg | .integrityAlg => BitVec 32
  | .ipsecMode | .dfBit | .protocolParameters => BitVec 16
  | _ => BitVec 64

def SadField.set : (f : SadField) → f.Value → SadEntryNode → SadEntryNode
  | .reqId, x, n => { n with reqId := x }
  | .spi, x, n => { n with spi := x }
  | .extSeqNum, x, n => { n with extSeqNum := x }
  | .seqNumberCounter, x, n => { n with seqNumberCounter := x }
  | .seqOverflow, x, n => { n with seqOverflow := x }
  | .antiReplayWindow, x, n => { n with antiReplayWindow := x }
  | .localSubnet, x, n => { n with localSubnet := x }
  | .remoteSubnet, x, n => { n with remoteSubnet := x }
  | .innerProtocol, x, n => { n with innerProtocol := x }
  | .srcport, x, n => { n with srcport := x }
  | .dstport, x, n => { n with dstport := x }
  | .ipsecMode, x, n => { n with ipsecMode := x }
  | .tunnelLocal, x, n => { n with tunnelLocal := x }
  | .tunnelRemote, x, n => { n with tunnelRemote := x }
  | .bypassDscp, x, n => { n with bypassDscp := x }
  | .ecn, x, n => { n with ecn := x }
  | .dfBit, x, n => { n with dfBit := x }
  | .protocolParameters, x, n => { n with protocolParameters := x }
  | .encryptionAlg, x, n => { n with encryptionAlg := x }
  | .encryptionIv, x, n => { n with encryptionIv := x }
  | .encryptionKey, x, n => { n with encryptionKey := x }
  | .integrityKey, x, n => { n with integrityKey := x }
  | .integrityAlg, x, n => { n with integrityAlg := x }
  | .lftTimeSoft, x, n => { n with lftTimeSoft := x }
  | .lftTimeHard, x, n => { n with lftTimeHard := x }
  | .lftBytesSoft, x, n => { n with lftBytesSoft := x }
  | .lftBytesHard, x, n => { n with lftBytesHard := x }
  | .lftPacketsSoft, x, n => { n with lftPacketsSoft := x }
  | .lftPacketsHard, x, n => { n with lftPacketsHard := x }
  | .lftIdleSoft, x, n => { n with lftIdleSoft := x }
  | .lftIdleHard, x, n => { n with lftIdleHard := x }

def SadField.get : (f : SadField) → SadEntryNode → f.Value
  | .reqId, n => n.reqId
  | .spi, n => n.spi
  | .extSeqNum, n => n.extSeqNum
  | .seqNumberCounter, n => n.seqNumberCounter
  | .seqOverflow, n => n.seqOverflow
  | .antiReplayWindow, n => n.antiReplayWindow
  | .localSubnet, n => n.localSubnet
  | .remoteSubnet, n => n.remoteSubnet
  | .innerProtocol, n => n.innerProtocol
  | .srcport, n => n.srcport
  | .dstport, n => n.dstport
  | .ipsecMode, n => n.ipsecMode
  | .tunnelLocal, n => n.tunnelLocal
  | .tunnelRemote, n => n.tunnelRemote
  | .bypassDscp, n => n.bypassDscp
  | .ecn, n => n.ecn
  | .dfBit, n => n.dfBit
  | .protocolParameters, n => n.protocolParameters
  | .encryptionAlg, n => n.encryptionAlg
  | .encryptionIv, n => n.encryptionIv
  | .encryptionKey, n => n.encryptionKey
  | .integrityKey, n => n.integrityKey
  | .integrityAlg, n => n.integrityAlg
  | .lftTimeSoft, n => n.lftTimeSoft
  | .lftTimeHard, n => n.lftTimeHard
  | .lftBytesSoft, n => n.lftBytesSoft
  | .lftBytesHard, n => n.lftBytesHard
  | .lftPacketsSoft, n => n.lftPacketsSoft
  | .lftPacketsHard, n => n.lftPacketsHard
  | .lftIdleSoft, n => n.lftIdleSoft
  | .lftIdleHard, n => n.lftIdleHard

/-- The node with these fields. -/
def withFields (g : (f : SadField) → f.Value) (n : SadEntryNode) : SadEntryNode :=
  { n with
    reqId := g .reqId
    spi := g .spi
    extSeqNum := g .extSeqNum
    seqNumberCounter := g .seqNumberCounter
    seqOverflow := g .seqOverflow
    antiReplayWindow := g .antiReplayWindow
    localSubnet := g .localSubnet
    remoteSubnet := g .remoteSubnet
    innerProtocol := g .innerProtocol
    srcport := g .srcport
    dstport := g .dstport
    ipsecMode := g .ipsecMode
    tunnelLocal := g .tunnelLocal
    tunnelRemote := g .tunnelRemote
    bypassDscp := g .bypassDscp
    ecn := g .ecn
    dfBit := g .dfBit
    protocolParameters := g .protocolParameters
    encryptionAlg := g .encryptionAlg
    encryptionIv := g .encryptionIv
    encryptionKey := g .encryptionKey
    integrityKey := g .integrityKey
    integrityAlg := g .integrityAlg
    lftTimeSoft := g .lftTimeSoft
    lftTimeHard := g .lftTimeHard
    lftBytesSoft := g .lftBytesSoft
    lftBytesHard := g .lftBytesHard
    lftPacketsSoft := g .lftPacketsSoft
    lftPacketsHard := g .lftPacketsHard
    lftIdleSoft := g .lftIdleSoft
    lftIdleHard := g .lftIdleHard }

theorem SadField.set_eq (i : SadField) (x : i.Value) (n : SadEntryNode) :
    i.set x n = withFields (Function.update (fun f => f.get n) i x) n := by
  cases i <;> rfl

theorem get_withFields (g : (f : SadField) → f.Value) (n : SadEntryNode) :
    (fun f => SadField.get f (withFields g n)) = g := by
  funext f
  cases f <;> rfl

theorem SadField.set_comm {i j : SadField} (h : i ≠ j) (x : i.Value) (y : j.Value) (n : SadEntryNode) :
    i.set x (j.set y n) = j.set y (i.set x n) := by
  rw [set_eq i x, set_eq j y, set_eq j y, set_eq i x, get_withFields, get_withFields, Function.update_comm h]
  rfl

/-- The fields of a node. -/
def sadParts : Parts SadField SadField.Value SadEntryNode where
  set := SadField.set
  set_comm := SadField.set_comm

/-- The fields a leaf is stored in, by the markers that `has` finds. -/
def leafFields (has : CStr → Bool) : SadLeaf → List SadField
  | .reqid => [.reqId]
  | .spi => [.spi]
  | .extSeqNum => [.extSeqNum]
  | .seqNumberCounter => [.seqNumberCounter]
  | .seqOverflow => [.seqOverflow]
  | .antiReplayWindow => [.antiReplayWindow]
  | .localPrefix => [.localSubnet]
  | .remotePrefix => [.remoteSubnet]
  | .innerProtocol => [.innerProtocol]
  | .start => (if has (lit "/local-ports") then [.srcport] else []) ++ if has (lit "/remote-ports") then [.dstport] else []
  | .mode => [.ipsecMode]
  | .localEnd => [.tunnelLocal]
  | .remoteEnd => [.tunnelRemote]
  | .bypassDscp => [.bypassDscp]
  | .ecn => [.ecn]
  | .dfBit => [.dfBit]
  | .protocolParameters => [.protocolParameters]
  | .encryptionAlgorithm => [.encryptionAlg]
  | .iv => [.encryptionIv]
  | .key =>
    (if has (lit "/encryption") then [.encryptionKey] else []) ++ if has (lit "/integrity") then [.integrityKey] else []
  | .integrityAlgorithm => [.integrityAlg]
  | .time => limitFields .lftTimeSoft .lftTimeHard
  | .bytes => limitFields .lftBytesSoft .lftBytesHard
  | .packets => limitFields .lftPacketsSoft .lftPacketsHard
  | .idle => limitFields .lftIdleSoft .lftIdleHard
where
  limitFields (soft hard : SadField) : List SadField :=
    if has (lit "/sa-lifetime-soft") then [soft] else if has (lit "/sa-lifetime-hard") then [hard] else []

theorem leafFields_congr {has has' : CStr → Bool} (h : ∀ m ∈ lit "/sa-lifetime-hard" :: markers, has m = has' m)
    (leaf : SadLeaf) : leafFields has leaf = leafFields has' leaf := by
  simp only [markers, List.forall_mem_cons, List.not_mem_nil, false_implies, implies_true, and_true] at h
  obtain ⟨hhard, hlp, hrp, henc, hint, hsoft⟩ := h
  cases leaf
  case start => simp only [leafFields, hlp, hrp]
  case key => simp only [leafFields, henc, hint]
  case time | bytes | packets | idle => simp only [leafFields, leafFields.limitFields, hsoft, hhard]
  all_goals rfl

/-! ## What a leaf does to a node -/

/-- The node with which the reader goes on after a leaf. -/
def storeNext (leaf : SadLeaf) (has : CStr → Bool) (d : SrData) (n : SadEntryNode) : Option SadEntryNode :=
  (leaf.store has d n).bind Stored.next?

theorem storeNext_eq (leaf : SadLeaf) (has : CStr → Bool) (d : SrData) :
    storeNext leaf has d = fun n => (leaf.store has d n).bind Stored.next? := rfl

theorem assigns_field {fields : List SadField} (i : SadField) (hi : i ∈ fields) (x : i.Value) :
    sadParts.Assigns (fun n => some (i.set x n)) fields := Parts.Assigns.set hi x

theorem assigns_if (c : Bool) {i : SadField} {f : SadEntryNode → Option SadEntryNode} (h : sadParts.Assigns f [i]) :
    sadParts.Assigns (fun n => if c = true then f n else some n) (if c = true then [i] else []) := by
  cases c with
  | true => exact h
  | false => exact .keep

theorem assigns_limit (soft hard : SadField) {x : soft.Value} {y : hard.Value} (has : CStr → Bool) (d : SrData) :
    sadParts.Assigns (fun n => some (storeLifetime has d (fun _ => soft.set x n) (fun _ => hard.set y n) n))
      (leafFields.limitFields has soft hard) := by
  simp only [storeLifetime, leafFields.limitFields]
  split
  · exact assigns_field soft List.mem_cons_self x
  · split
    · exact assigns_field hard List.mem_cons_self y
    · exact .keep

/-- What the reader does at a leaf is to set fields of the leaf. -/
theorem store_assigns (leaf : SadLeaf) (has : CStr → Bool) (d : SrData) :
    sadParts.Assigns (storeNext leaf has d) (leafFields has leaf) := by
  have htext : ∀ {fields} {f : CStr → SadEntryNode → Option SadEntryNode}, (∀ s, sadParts.Assigns (f s) fields) →
      sadParts.Assigns (fun n => d.text.bind fun s => f s n) fields := Parts.Assigns.bind d.text
  cases leaf
  case start =>
    have hstore : storeNext .start has d = fun n =>
        (if has (lit "/local-ports") = true then some (SadField.set .srcport (d.uint16Val.setWidth 32) n) else some n).bind
          fun n => if has (lit "/remote-ports") = true then some (SadField.set .dstport (d.uint16Val.setWidth 32) n)
            else some n := by
      funext n
      rw [storeNext, SadLeaf.store]
      split <;> split <;> rfl
    rw [hstore]
    exact .comp (assigns_if _ (assigns_field .srcport List.mem_cons_self _))
      (assigns_if _ (assigns_field .dstport List.mem_cons_self _))
  case key =>
    have hstore : storeNext .key has d = fun n =>
        (if has (lit "/encryption") = true then (copyHex d).bind fun s => some (SadField.set .encryptionKey s n)
          else some n).bind
          fun n => if has (lit "/integrity") = true then (copyHex d).bind fun s => some (SadField.set .integrityKey s n)
            else some n := by
      funext n
      rw [storeNext, SadLeaf.store]
      cases copyHex d <;> split <;> split <;> rfl
    rw [hstore]
    exact .comp (assigns_if _ (.bind _ fun s => assigns_field .encryptionKey List.mem_cons_self s))
      (assigns_if _ (.bind _ fun s => assigns_field .integrityKey List.mem_cons_self s))
  all_goals
    simp only [storeNext_eq, SadLeaf.store, SrData.stringVal, Option.bind_eq_bind, Option.bind_assoc, Option.pure_def,
      apply_ite (Option.bind · Stored.next?), Option.bind_some, Stored.next?]
  case reqid => exact assigns_field .reqId List.mem_cons_self _
  case spi => exact assigns_field .spi List.mem_cons_self _
  case extSeqNum => exact assigns_field .extSeqNum List.mem_cons_self _
  case seqNumberCounter => exact assigns_field .seqNumberCounter List.mem_cons_self _
  case seqOverflow => exact assigns_field .seqOverflow List.mem_cons_self _
  case antiReplayWindow => exact assigns_field .antiReplayWindow List.mem_cons_self _
  case bypassDscp => exact assigns_field .bypassDscp List.mem_cons_self _
  case ecn => exact assigns_field .ecn List.mem_cons_self _
  case encryptionAlgorithm => exact assigns_field .encryptionAlg List.mem_cons_self _
  case integrityAlgorithm => exact assigns_field .integrityAlg List.mem_cons_self _
  case localPrefix => exact htext fun s => assigns_field .localSubnet List.mem_cons_self s
  case remotePrefix => exact htext fun s => assigns_field .remoteSubnet List.mem_cons_self s
  case localEnd => exact htext fun s => assigns_field .tunnelLocal List.mem_cons_self s
  case remoteEnd => exact htext fun s => assigns_field .tunnelRemote List.mem_cons_self s
  case iv => exact .bind (copyHex d) fun s => assigns_field .encryptionIv List.mem_cons_self s
  case protocolParameters =>
    exact htext fun s => .ite (fun _ => assigns_field .protocolParameters List.mem_cons_self _) fun _ => .keep
  case mode =>
    exact htext fun s => .ite (fun _ => assigns_field .ipsecMode List.mem_cons_self _) fun _ =>
      .ite (fun _ => assigns_field .ipsecMode List.mem_cons_self _) fun _ => .keep
  case dfBit =>
    exact htext fun s => .ite (fun _ => assigns_field .dfBit List.mem_cons_self _) fun _ =>
      .ite (fun _ => assigns_field .dfBit List.mem_cons_self _) fun _ =>
        .ite (fun _ => assigns_field .dfBit List.mem_cons_self _) fun _ => .keep
  case innerProtocol =>
    refine .ite (fun _ => assigns_field .innerProtocol List.mem_cons_self _) fun _ => htext fun s => ?_
    exact .ite (fun _ => assigns_field .innerProtocol List.mem_cons_self _) fun _ => .inl fun _ => rfl
  case time => exact assigns_limit .lftTimeSoft .lftTimeHard has d
  case bytes => exact assigns_limit .lftBytesSoft .lftBytesHard has d
  case packets => exact assigns_limit .lftPacketsSoft .lftPacketsHard has d
  case idle => exact assigns_limit .lftIdleSoft .lftIdleHard has d

/-! ## Nodes of the schema -/

/-- A marker in a path is in one of its steps, at the start of its name. -/
def pathHas (steps : List Step) (m : CStr) : Bool := steps.any fun st => startsWith (lit "/" ++ st.name) m

/-- A marker has one slash, and no bracket and no quote. -/
def isPlain (m : CStr) : Bool :=
  m.bytes.head? = some 0x2f && (0x2f : Byte) ∉ m.bytes.tail && (0x5b : Byte) ∉ m.bytes && (0x22 : Byte) ∉ m.bytes

theorem isPlain_of_mem {m : CStr} (h : m ∈ lit "/sa-lifetime-hard" :: markers) : isPlain m = true := by
  have hall : (lit "/sa-lifetime-hard" :: markers).all isPlain = true := by decide +kernel
  exact List.all_eq_true.mp hall m h

theorem head?_pathOf (steps : List Step) (keys : List CStr) : ∀ b ∈ (pathOf steps keys).bytes.head?, b = 0x2f := by
  intro b hb
  rcases steps with _ | ⟨name | name, steps⟩
  · rw [pathOf, lit_nil] at hb
    cases hb
  all_goals
    rw [pathOf] at hb
    simp only [CStr.bytes_append, lit_slash] at hb
    exact (Option.some.inj hb).symm

theorem strstr_pathOf {m : CStr} (hm : isPlain m = true) {steps : List Step} {keys : List CStr}
    (hs : ∀ st ∈ steps, (0x2f : Byte) ∉ st.name.bytes) (hk : ∀ k ∈ keys, (0x2f : Byte) ∉ k.bytes) :
    strstr (pathOf steps keys) m = pathHas steps m := by
  simp only [isPlain, Bool.and_eq_true, decide_eq_true_eq] at hm
  obtain ⟨⟨⟨hslash, htail⟩, hopen⟩, -⟩ := hm
  obtain ⟨ms, hms⟩ := List.head?_eq_some_iff.mp hslash
  rw [hms] at hopen
  rw [hms, List.tail_cons] at htail
  have hstart : ∀ name : CStr, startsWith (lit "/" ++ name) m = true ↔ ms <+: name.bytes := by
    intro name
    rw [startsWith, List.isPrefixOf_iff_prefix, CStr.bytes_append, lit_slash, hms, List.singleton_append,
      List.cons_prefix_cons, eq_self, true_and]
  induction steps generalizing keys with
  | nil =>
    rw [pathOf, pathHas, List.any_nil, strstr, lit_nil, hms]
    rfl
  | cons st steps ih =>
    obtain ⟨hst, hs'⟩ := List.forall_mem_cons.mp hs
    cases st with
    | child name =>
      have hname : (0x2f : Byte) ∉ name.bytes := hst
      have hblock : (pathOf (.child name :: steps) keys).bytes = 0x2f :: (name.bytes ++ (pathOf steps keys).bytes) := by
        rw [pathOf]
        simp only [CStr.bytes_append, lit_slash, List.append_assoc]
        rfl
      rw [Bool.eq_iff_iff, pathHas, List.any_cons, Bool.or_eq_true, Step.name, hstart, ← pathHas, ← ih hs' hk, strstr,
        strstr, hasInfix_iff, hasInfix_iff, hblock, hms, cons_infix_cons_append_iff htail hname (head?_pathOf _ _)]
    | item name =>
      have hkey : (0x2f : Byte) ∉ (keys.headD (lit "")).bytes := by
        cases keys with
        | nil => rw [List.headD_nil, lit_nil]; exact List.not_mem_nil
        | cons k keys => exact hk k List.mem_cons_self
      have hblock : (pathOf (.item name :: steps) keys).bytes =
          0x2f :: ((name.bytes ++ 0x5b :: ((keys.headD (lit "")).bytes ++ [0x5d])) ++ (pathOf steps keys.tail).bytes) := by
        rw [pathOf]
        simp only [CStr.bytes_append, lit_slash, lit_open, lit_close, List.append_assoc, List.cons_append,
          List.nil_append]
      have hname : (0x2f : Byte) ∉ name.bytes ++ 0x5b :: ((keys.headD (lit "")).bytes ++ [0x5d]) := by
        have hstep : (0x2f : Byte) ∉ name.bytes := hst
        simpa using ⟨hstep, by simpa using hkey⟩
      have hcut : ms <+: name.bytes ++ 0x5b :: ((keys.headD (lit "")).bytes ++ [0x5d]) ↔ ms <+: name.bytes :=
        prefix_append_iff (fun h => hopen (List.mem_cons_of_mem _ h)) fun b hb => (Option.some.inj hb).symm
      rw [Bool.eq_iff_iff, pathHas, List.any_cons, Bool.or_eq_true, Step.name, hstart, ← pathHas,
        ← ih hs' fun k hk' => hk k (List.mem_of_mem_tail hk'), strstr, strstr, hasInfix_iff, hasInfix_iff, hblock, hms,
        cons_infix_cons_append_iff htail hname (head?_pathOf _ _), hcut]

/-- The fields the reader stores a node of the schema in, when the name of the
entry has no marker. -/
def nodeFields (node : SchemaNode) : List SadField := (nodeLeaf node).elim [] (leafFields (pathHas node.steps))

/-- No field is of two nodes, and none of a node that an entry may have many
of. -/
theorem sadSchema_fields : (sadSchema.flatMap nodeFields).Nodup ∧
    sadSchema.all (fun node => !repeats node || nodeFields node = []) = true := by decide +kernel

/-- Different nodes are stored in different fields. -/
theorem disjoint_nodeFields {a b : SchemaNode} (ha : a ∈ sadSchema) (hb : b ∈ sadSchema)
    (hab : a = b → repeats a = true) : (nodeFields a).Disjoint (nodeFields b) := by
  by_cases h : a = b
  · have hnone := List.all_eq_true.mp sadSchema_fields.2 a ha
    rw [hab h, Bool.not_true, Bool.false_or, decide_eq_true_eq] at hnone
    rw [hnone]
    exact List.disjoint_nil_left _
  · have hsymm : Std.Symm (Function.onFun List.Disjoint nodeFields) := ⟨fun _ _ h => List.disjoint_symm h⟩
    exact (List.nodup_flatMap.mp sadSchema_fields.1).2.forall ha hb h

/-! ## Changes -/

theorem bytes_entryXpath (q : Quote) (name path : CStr) : (q.entryXpath name ++ path).bytes =
    entryHead.bytes ++ q.byte :: (name.bytes ++ q.byte :: (0x5d :: path.bytes)) := by
  have hquote : (CStr.ofBuf [q.byte]).bytes = [q.byte] := by cases q <;> rfl
  rw [Quote.entryXpath, entryHead]
  simp only [CStr.bytes_append, hquote, lit_close, List.append_assoc, List.cons_append, List.nil_append]

/-- What the reader finds in the xpath of a change is in its path, when the name
of the entry has no marker. -/
theorem strstr_change {q : Quote} {name : CStr} (c : EntryChange (q.entryXpath name)) {m : CStr}
    (hm : m ∈ lit "/sa-lifetime-hard" :: markers) (hname : strstr name m = false) :
    strstr (q.entryXpath name ++ pathOf c.node.steps c.keys) m = pathHas c.node.steps m := by
  have hplain := isPlain_of_mem hm
  have hmarker := isMarker_of_mem hm
  have hquote : q.byte ∉ m.bytes := by
    simp only [isPlain, isMarker, Bool.and_eq_true, decide_eq_true_eq] at hplain hmarker
    cases q with
    | single => exact hmarker.1.2
    | double => exact hplain.2
  have hok := List.all_eq_true.mp sadSchema_ok c.node c.mem
  rw [nodeOk, Bool.and_eq_true] at hok
  rw [strstr_quoted hmarker hquote (bytes_entryXpath q name _), hname, Bool.false_or,
    strstr_pathOf hplain (by simpa using hok.1) c.noSlash]

/-- What the reader does at a change, if it goes on. -/
def changeStep {x : CStr} (n : SadEntryNode) (c : EntryChange x) : Option SadEntryNode :=
  (readSadValue ⟨c.data, x ++ pathOf c.node.steps c.keys⟩ n).bind Stored.next?

theorem changeStep_assigns {q : Quote} {name : CStr}
    (hname : ∀ m ∈ lit "/sa-lifetime-hard" :: markers, strstr name m = false) (c : EntryChange (q.entryXpath name)) :
    sadParts.Assigns (changeStep · c) (nodeFields c.node) := by
  simp only [changeStep, readSadValue_at _ c.mem c.noSlash, nodeFields]
  cases nodeLeaf c.node with
  | none => exact .keep
  | some leaf =>
    have hassigns := store_assigns leaf (strstr (q.entryXpath name ++ pathOf c.node.steps c.keys)) c.data
    rwa [leafFields_congr fun m hm => strstr_change c hm (hname m hm)] at hassigns

theorem read_ne_reject {x : CStr} {cs : List (EntryChange x)} (h : ProtocolAccepted cs) {c : EntryChange x} (hc : c ∈ cs)
    (n m : SadEntryNode) : readSadValue ⟨c.data, x ++ pathOf c.node.steps c.keys⟩ n ≠ some (.reject m) := by
  rw [readSadValue_at _ c.mem c.noSlash]
  have hok := of_decide_eq_true (List.all_eq_true.mp sadSchema_protocols c.node c.mem)
  cases hl : nodeLeaf c.node with
  | none => exact fun h => by cases h
  | some leaf =>
    intro hs
    obtain ⟨rfl, hgt, hany, -⟩ := store_rejects hs
    exact (h c hc (hok.1.mp hl)).elim hgt hany

/-- What the reader makes of changes at none of which it gives up. -/
theorem readSadEntry_changes {x : CStr} {c : EntryChange x} {cs : List (EntryChange x)} (h : ProtocolAccepted (c :: cs))
    (n : SadEntryNode) :
    readSadEntry (changeIter (c :: cs)) x n = ((c :: cs).foldlM changeStep n).map fun m => (.ok (), [], m) := by
  have hloop : readLoop readSadValue x c.change (cs.map fun d => .ok d.change) n =
      ((c :: cs).foldlM changeStep n).map fun m => ([], .next m) :=
    readLoop_changes (fun c => c.value) (fun c => List.isPrefixOf_iff_prefix.mpr (List.prefix_append ..))
      (fun c hc => read_ne_reject h hc) n
  rw [changeIter, List.map_cons, readSadEntry, srGetChangeNext]
  simp only [hloop]
  change (((c :: cs).foldlM changeStep n).map _).bind _ = _
  cases (c :: cs).foldlM changeStep n <;> rfl

theorem changeStep_admits {x : CStr} {c : EntryChange x} (h : c.node.type.admits c.data = true) (n : SadEntryNode) :
    ∃ m, changeStep n c = some m := by
  rw [changeStep, readSadValue_at _ c.mem c.noSlash]
  have haccepts := List.all_eq_true.mp sadSchema_accepts c.node c.mem
  cases hl : nodeLeaf c.node with
  | none => exact ⟨n, rfl⟩
  | some leaf =>
    rw [hl] at haccepts
    obtain ⟨m, hm⟩ := store_accepts haccepts h (strstr (x ++ pathOf c.node.steps c.keys)) n
    exact ⟨m, by simp only [hm]; rfl⟩

theorem foldlM_admits {x : CStr} {cs : List (EntryChange x)} (h : ∀ c ∈ cs, c.node.type.admits c.data = true)
    (n : SadEntryNode) : ∃ m, cs.foldlM changeStep n = some m := by
  induction cs generalizing n with
  | nil => exact ⟨n, rfl⟩
  | cons c cs ih =>
    obtain ⟨hc, hcs⟩ := List.forall_mem_cons.mp h
    obtain ⟨m, hm⟩ := changeStep_admits hc n
    rw [List.foldlM_cons, hm]
    exact ih hcs m

/-- But for the room in its node an entry is read alike from its changes in every
order. -/
theorem readSadEntry_perm {q : Quote} {name : CStr}
    (hname : ∀ m ∈ lit "/sa-lifetime-hard" :: markers, strstr name m = false)
    {cs ds : List (EntryChange (q.entryXpath name))} (hperm : cs.Perm ds) (honce : Once cs)
    (haccepted : ProtocolAccepted cs) (n : SadEntryNode) :
    readSadEntry (changeIter cs) (q.entryXpath name) n = readSadEntry (changeIter ds) (q.entryXpath name) n := by
  have hfold : cs.foldlM changeStep n = ds.foldlM changeStep n := by
    refine foldlM_perm (f := fun c n => changeStep n c) hperm (honce.imp fun {c d} hcd n => ?_) n
    exact (changeStep_assigns hname c).comm (changeStep_assigns hname d) (disjoint_nodeFields c.mem d.mem hcd) n
  rcases cs with _ | ⟨c, cs⟩
  · obtain rfl : ds = [] := hperm.symm.eq_nil
    rfl
  · rcases ds with _ | ⟨d, ds⟩
    · cases hperm.eq_nil
    have haccepted' : ProtocolAccepted (d :: ds) := fun c hc => haccepted c (hperm.mem_iff.mpr hc)
    rw [readSadEntry_changes haccepted, readSadEntry_changes haccepted', hfold]

/-- Changes of which the values are of their types are read. -/
theorem readSadEntry_typed {x : CStr} {cs : List (EntryChange x)} (haccepted : ProtocolAccepted cs) (htyped : Typed cs)
    (n : SadEntryNode) : ∃ r, readSadEntry (changeIter cs) x n = some r := by
  rcases cs with _ | ⟨c, cs⟩
  · exact ⟨_, rfl⟩
  · obtain ⟨m, hm⟩ := foldlM_admits htyped.admits n
    exact ⟨_, by rw [readSadEntry_changes haccepted, hm]; rfl⟩

/-- The room that changes need does not depend on their order. -/
theorem readSadInRoom_changes {x : CStr} {cs : List (EntryChange x)} (haccepted : ProtocolAccepted cs) (htyped : Typed cs)
    (n : SadEntryNode) (r : Rc × SrChangeIter × SadEntryNode) :
    readSadInRoom (changeIter cs) x n = some r ↔
      (∀ c ∈ cs, c.node.Fits c.data) ∧ readSadEntry (changeIter cs) x n = some r :=
  readSadInRoom_eq_some_iff EntryChange.value (fun _ => List.isPrefixOf_iff_prefix.mpr (List.prefix_append ..))
    (fun _ hc => read_ne_reject haccepted hc)
    (fun c hc => sadCopies_at x c.mem c.noSlash (htyped.admits c hc) (htyped.valid c hc)) n r

/-- The changes of an entry are read alike in every order exactly when all
strings among their values have room in the node. -/
theorem sad_order_iff {q : Quote} {name : CStr}
    (hname : ∀ m ∈ lit "/sa-lifetime-hard" :: markers, strstr name m = false)
    {cs : List (EntryChange (q.entryXpath name))} (honce : Once cs) (haccepted : ProtocolAccepted cs) (htyped : Typed cs)
    (n : SadEntryNode) : ReadInAnyOrder cs n ↔ ∀ c ∈ cs, c.node.Fits c.data := by
  constructor
  · rintro ⟨r, hr⟩
    exact ((readSadInRoom_changes haccepted htyped n r).mp (hr cs .rfl)).1
  · intro hfits
    obtain ⟨r, hr⟩ := readSadEntry_typed haccepted htyped n
    refine ⟨r, fun ds hperm => ?_⟩
    have hmem : ∀ c ∈ ds, c ∈ cs := fun c hc => hperm.mem_iff.mpr hc
    have haccepted' : ProtocolAccepted ds := fun c hc => haccepted c (hmem c hc)
    have htyped' : Typed ds := ⟨fun c hc => htyped.admits c (hmem c hc), fun c hc => htyped.valid c (hmem c hc)⟩
    refine (readSadInRoom_changes haccepted' htyped' n r).mpr ⟨fun c hc => hfits c (hmem c hc), ?_⟩
    rw [← readSadEntry_perm hname hperm honce haccepted n, hr]

/-- The change that creates a value below the entry `gw`. -/
def gwChange (steps : List Step) (type : YangType) (keys : List String) (data : SrData)
    (hmem : (⟨.child (lit "ipsec-sa-config") :: steps, type⟩ : SchemaNode) ∈ sadSchema)
    (hkeys : ∀ k ∈ keys.map lit, (0x2f : Byte) ∉ k.bytes) : EntryChange (Quote.single.entryXpath (lit "gw")) where
  node := ⟨.child (lit "ipsec-sa-config") :: steps, type⟩
  keys := keys.map lit
  data := data
  change := SrVal.created ⟨data, _⟩
  mem := hmem
  noSlash := hkeys
  value := rfl

/-- The ports of an entry, and a lifetime. -/
def gwChanges : List (EntryChange (Quote.single.entryXpath (lit "gw"))) :=
  [gwChange [.child (lit "traffic-selector"), .item (lit "local-ports"), .child (lit "start")] (.uint 16)
      ["start='500'][end='500'"] ⟨500, none⟩ localPort.mem (by decide +kernel),
    gwChange [.child (lit "traffic-selector"), .item (lit "remote-ports"), .child (lit "start")] (.uint 16)
      ["start='4500'][end='4500'"] ⟨4500, none⟩ remotePort.mem (by decide +kernel),
    gwChange [.child (lit "sa-lifetime-hard"), .child (lit "time")] (.uint 32) [] ⟨60, none⟩ hardTime.mem (by decide +kernel)]

theorem sad_order_gw :
    ReadInAnyOrder gwChanges default ∧
      (readSadInRoom (changeIter gwChanges.reverse) (Quote.single.entryXpath (lit "gw")) default).map
        (fun r => (r.2.2.srcport, r.2.2.dstport, r.2.2.lftTimeHard)) = some (500, 4500, 60) := by
  have hname : ∀ m ∈ lit "/sa-lifetime-hard" :: markers, strstr (lit "gw") m = false := by decide +kernel
  have honce : Once gwChanges := by
    unfold Once
    decide +kernel
  have haccepted : ProtocolAccepted gwChanges := by
    unfold ProtocolAccepted
    decide +kernel
  have hother : ∀ c ∈ gwChanges, (c.node.isPrefix = false ∧ c.node.isEnd = false) ∧ isKind c.node .other = true ∧
      c.node.type.admits c.data = true := by decide +kernel
  have htyped : Typed gwChanges :=
    ⟨fun c hc => (hother c hc).2.2, fun c hc => valid_of_other (hother c hc).1.1 (hother c hc).1.2⟩
  have hfits : ∀ c ∈ gwChanges, c.node.Fits c.data := fun c hc => (fits_iff (hother c hc).2.1).mpr trivial
  exact ⟨(sad_order_iff hname honce haccepted htyped default).mpr hfits, by decide +kernel⟩

/-! ## A string that has no room -/

/-- An address with a zone of letters. -/
theorem isIpAddress_zone {w x y z : Nat} (hw : w < 256) (hx : x < 256) (hy : y < 256) (hz : z < 256) {b : Byte}
    {bs : Bytes} (hbs : ∀ a ∈ b :: bs, a ∈ bytesFrom 0x61 0x7a) {t : CStr}
    (ht : t.bytes = dotted w x y z ++ 0x25 :: b :: bs) : IsIpAddress t := by
  have hletters : ∀ a ∈ b :: bs, a ∈ bytesFrom 0x30 0x39 ++ bytesFrom 0x41 0x5a ++ bytesFrom 0x61 0x7a ++
      bytesFrom 0x80 0xff :=
    fun a ha => List.mem_append_left _ (List.mem_append_right _ (hbs a ha))
  have hpercent : [0x25] ∈ (str "%").matches' := mem_text.mpr rfl
  have hzone := mem_opt (mem_seq hpercent (mem_more_oneOf hletters))
  exact .inl (mem_of_eq (mem_seq (mem_quadPat hw hx hy hz) hzone) ht.symm)

theorem mem_sadSchema_tunnelLocal : (⟨[.child (lit "ipsec-sa-config"), .child (lit "tunnel"), .child (lit "local")],
    .string⟩ : SchemaNode) ∈ sadSchema := by
  decide +kernel

theorem mem_sadSchema_tunnelRemote : (⟨[.child (lit "ipsec-sa-config"), .child (lit "tunnel"), .child (lit "remote")],
    .string⟩ : SchemaNode) ∈ sadSchema := by
  decide +kernel

/-- The ends of a tunnel, one with a zone of 51 letters. -/
def zoneChanges : List (EntryChange (Quote.single.entryXpath (lit "gw"))) :=
  [gwChange [.child (lit "tunnel"), .child (lit "local")] .string []
      ⟨0x1000, some (lit "10.0.0.1%aaaaaaaaaaaaaaaaaaaaaaaaaaaaaaaaaaaaaaaaaaaaaaaaaaa")⟩ mem_sadSchema_tunnelLocal
      (by decide),
    gwChange [.child (lit "tunnel"), .child (lit "remote")] .string [] ⟨0x1000, some (lit "10.0.0.2")⟩
      mem_sadSchema_tunnelRemote (by decide)]

/-- Its 60 bytes go to a buffer of 40, so that it is not told what becomes of the
ends, of which no leaf has two and the values are of their type. -/
theorem sad_order_zone :
    Once zoneChanges ∧ ProtocolAccepted zoneChanges ∧ Typed zoneChanges ∧
      zoneChanges.map (fun c => (sadValueCopies ⟨c.data, Quote.single.entryXpath (lit "gw") ++
        pathOf c.node.steps c.keys⟩).map fun cs => cs.map fun c => (c.buffer, strlen c.str, c.buffer.capacity)) =
          [some [(.tunnelLocal, 60, 40)], some [(.tunnelRemote, 8, 40)]] ∧
      readSadInRoom (changeIter zoneChanges) (Quote.single.entryXpath (lit "gw")) default = none ∧
      ¬ReadInAnyOrder zoneChanges default := by
  have honce : Once zoneChanges := by
    unfold Once
    decide +kernel
  have haccepted : ProtocolAccepted zoneChanges := by
    unfold ProtocolAccepted
    decide +kernel
  have hnone : readSadInRoom (changeIter zoneChanges) (Quote.single.entryXpath (lit "gw")) default = none := by
    decide +kernel
  refine ⟨honce, haccepted, ⟨by decide +kernel, ?_⟩, by decide +kernel, hnone, ?_⟩
  · have hzone : IsIpAddress (lit "10.0.0.1%aaaaaaaaaaaaaaaaaaaaaaaaaaaaaaaaaaaaaaaaaaaaaaaaaaa") :=
      @isIpAddress_zone 10 0 0 1 (by decide) (by decide) (by decide) (by decide) 0x61 (List.replicate 50 0x61)
        (by decide +kernel) _ (by decide +kernel)
    have hplain : IsIpAddress (lit "10.0.0.2") :=
      .inl (mem_of_eq (mem_seq (mem_quadPat (w := 10) (x := 0) (y := 0) (z := 2) (by decide) (by decide) (by decide)
        (by decide)) nil_mem_opt) (by decide +kernel))
    exact List.forall_mem_cons.mpr ⟨valid_of_isIpAddress (by decide +kernel) rfl hzone,
      List.forall_mem_singleton.mpr (valid_of_isIpAddress (by decide +kernel) rfl hplain)⟩
  · rintro ⟨r, hr⟩
    rw [hr zoneChanges .rfl] at hnone
    cases hnone

end CfgIpsec.Proof
