import Mathlib.Data.List.Nodup
import CfgIpsec.Spec.Messages
import CfgIpsec.Spec.Yang

/-!
# Nodes through JSON

The fields of a node have keys of their own, so each is found where it was set
(`serializeSadNode_field`) and is read back if JSON has its value
(`readBack_iff`). A node is read from an object when every field is
(`deserializeSadNode_eq_ok_iff`), so `sad_json` says which nodes come back.
-/

namespace CfgIpsec.Proof

open Impl Spec Rounding
open CStr (lit)

section Fields

variable {p : Parson}

/-! ## Fields -/

/-- A field is set in an object. -/
def setField (p : Parson) (o : p.Object) : Field → p.Object
  | .string key _ s => p.setString o key s
  | .number key x => p.setNumber o key (toDouble x.toNat)
  | .boolean key b => p.setBoolean o key b

/-- What an object has where the field was set. -/
def setValue : Field → Option (JsonValue p.Object p.Items)
  | .string _ _ s => if validUtf8 s = true then some (.string s) else none
  | .number _ x => some (.number (toDouble x.toNat))
  | .boolean _ b => some (.boolean b)

theorem getValue_set_of_ne (hp : p.Lawful) {o : p.Object} {f : Field} {key : String} (h : key ≠ f.key) :
    p.getValue (setField p o f) key = p.getValue o key := by
  cases f with
  | string k size s => exact (hp.getValue_setString o k s key).trans (if_neg fun hk => h hk.1)
  | number k x => exact (hp.getValue_setNumber o k _ key).trans (if_neg h)
  | boolean k b => exact (hp.getValue_setBoolean o k b key).trans (if_neg h)

theorem getValue_set_self (hp : p.Lawful) {o : p.Object} {f : Field} (h : p.getValue o f.key = none) :
    p.getValue (setField p o f) f.key = setValue f := by
  cases f with
  | string k size s =>
    have hset := hp.getValue_setString o k s k
    rw [show p.getValue o k = none from h] at hset
    simp only [true_and] at hset
    exact hset
  | number k x => exact (hp.getValue_setNumber o k _ k).trans (if_pos rfl)
  | boolean k b => exact (hp.getValue_setBoolean o k b k).trans (if_pos rfl)

theorem getValue_foldl_of_notMem (hp : p.Lawful) {fields : List Field} {key : String} (h : key ∉ fields.map Field.key)
    (o : p.Object) : p.getValue (fields.foldl (setField p) o) key = p.getValue o key := by
  induction fields generalizing o with
  | nil => rfl
  | cons f fields ih =>
    rw [List.map_cons, List.mem_cons, not_or] at h
    exact (ih h.2 _).trans (getValue_set_of_ne hp h.1)

/-- Of different keys, each has what was set for it. -/
theorem getValue_foldl_of_mem (hp : p.Lawful) {fields : List Field} {f : Field} (hn : (fields.map Field.key).Nodup)
    (hf : f ∈ fields) : p.getValue (fields.foldl (setField p) p.init) f.key = setValue f := by
  obtain ⟨pre, post, rfl⟩ := List.append_of_mem hf
  rw [List.map_append, List.map_cons, List.nodup_append', List.nodup_cons, List.disjoint_cons_right] at hn
  have hpre : p.getValue (pre.foldl (setField p) p.init) f.key = none :=
    (getValue_foldl_of_notMem hp hn.2.2.1 p.init).trans (hp.getValue_init _)
  rw [List.foldl_append, List.foldl_cons]
  exact (getValue_foldl_of_notMem hp hn.2.1.1 _).trans (getValue_set_self hp hpre)

/-- The field is what is read from an object. -/
def ReadBack (e : Assign) (o : Option p.Object) : Field → Prop
  | .string key _ s => p.getString o key = some s
  | .number key (w := w) x => e.toUnsigned w (p.getNumber o key) = .ok x
  | .boolean key b => p.getBool o key = b

/-- JSON has the value of the field. -/
def ExactField : Field → Prop
  | .string _ _ s => validUtf8 s = true
  | .number _ x => HasBits 53 x.toNat
  | .boolean _ _ => True

theorem toUnsigned_natCast (e : Assign) {w x : Nat} (h : x < 2 ^ w) :
    e.toUnsigned w (x : Rat) = .ok (BitVec.ofNat w x) := by
  have hlow : (-1 : Rat) < x := by
    have hpos : (0 : Rat) ≤ x := Nat.cast_nonneg x
    linarith
  have hhigh : (x : Rat) < 2 ^ w := by exact_mod_cast h
  have hfloor : (x : Rat).floor = x := by simp [Rat.floor]
  rw [Assign.toUnsigned, if_pos ⟨hlow, hhigh⟩, hfloor, Int.toNat_natCast]

theorem toUnsigned_toDouble_iff {w : Nat} {x : BitVec w} :
    Assign.strict.toUnsigned w (toDouble x.toNat) = .ok x ↔ HasBits 53 x.toNat := by
  rw [toDouble, ← roundEven_eq_self_iff]
  by_cases hlt : roundEven 53 x.toNat < 2 ^ w
  · rw [toUnsigned_natCast _ hlt, Except.ok.injEq, ← BitVec.toNat_inj, BitVec.toNat_ofNat, Nat.mod_eq_of_lt hlt]
  · have hhigh : ¬((roundEven 53 x.toNat : Nat) : Rat) < 2 ^ w := fun h => hlt (by exact_mod_cast h)
    rw [Assign.toUnsigned, if_neg fun h => hhigh h.2]
    refine iff_of_false (fun h => by cases h) fun h => hlt ?_
    rw [h]
    exact x.isLt

/-- A field that is set is read back when JSON has its value. -/
theorem readBack_iff (hp : p.Lawful) {o : p.Object} {f : Field} (h : p.getValue o f.key = setValue f) :
    ReadBack .strict (some o) f ↔ ExactField f := by
  cases f with
  | string key size s =>
    have hk : p.getValue o key = if validUtf8 s = true then some (.string s) else none := h
    rw [ReadBack, ExactField, hp.getString_eq, Option.bind_some, hk]
    by_cases hv : validUtf8 s = true
    · simp [hv, JsonValue.string?]
    · simp [hv]
  | number key x =>
    have hk : p.getValue o key = some (.number (toDouble x.toNat)) := h
    rw [ReadBack, ExactField, hp.getNumber_eq, Option.bind_some, hk]
    exact toUnsigned_toDouble_iff
  | boolean key b =>
    have hk : p.getValue o key = some (.boolean b) := h
    rw [ReadBack, ExactField, Parson.getBool, hp.getBoolean_eq, Option.bind_some, hk]
    cases b <;> simp [JsonValue.boolean?]

/-- An integer that is narrower than the significand of a `double` has its bits. -/
theorem hasBits_toNat {w : Nat} (hw : w ≤ 53) (x : BitVec w) : HasBits 53 x.toNat :=
  ⟨x.toNat, 0, Nat.lt_of_lt_of_le x.isLt (Nat.pow_le_pow_right (by decide) hw), (Nat.mul_one _).symm⟩

/-! ## Nodes -/

theorem serializeSadNode_eq (n : SadEntryNode) :
    p.serializeSadNode n = (sadFields n).foldl (setField p) p.init := rfl

/-- The keys of the fields are different. -/
theorem nodup_sadFields (n : SadEntryNode) : ((sadFields n).map Field.key).Nodup := by
  have h : (sadFields n).map Field.key = (sadFields default).map Field.key := rfl
  rw [h]
  decide +kernel

theorem serializeSadNode_field (hp : p.Lawful) {n : SadEntryNode} {f : Field} (hf : f ∈ sadFields n) :
    p.getValue (p.serializeSadNode n) f.key = setValue f := by
  rw [serializeSadNode_eq]
  exact getValue_foldl_of_mem hp (nodup_sadFields n) hf

/-- What is bound to a result that is no fault. -/
theorem bind_eq_ok_iff {ε α β : Type} {x : Except ε α} {f : α → Except ε β} {b : β} :
    x >>= f = .ok b ↔ ∃ a, x = .ok a ∧ f a = .ok b := by
  cases x with
  | error e => exact iff_of_false (fun h => by cases h) (by rintro ⟨a, ha, -⟩; cases ha)
  | ok a => exact ⟨fun h => ⟨a, rfl, h⟩, by rintro ⟨a', ha, h⟩; cases ha; exact h⟩

theorem ok_bind {ε α β : Type} (a : α) (f : α → Except ε β) : (Except.ok a >>= f) = f a := rfl

/-- A string is copied exactly when it is there. -/
theorem copyString_eq_ok_iff {o : Option p.Object} {key : String} {s : CStr} :
    p.copyString o key = .ok s ↔ p.getString o key = some s := by
  rw [Parson.copyString]
  cases p.getString o key <;> simp

/-- A node is read from an object when each of its fields is. -/
theorem deserializeSadNode_eq_ok_iff {e : Assign} {malloc n : SadEntryNode} {o : Option p.Object} :
    p.deserializeSadNode e malloc o = .ok n ↔ ∀ f ∈ sadFields n, ReadBack e o f := by
  simp only [sadFields, List.forall_mem_cons, ReadBack, ← copyString_eq_ok_iff]
  constructor
  · intro h
    rw [Parson.deserializeSadNode] at h
    iterate 33 obtain ⟨_, _, h⟩ := bind_eq_ok_iff.mp h
    cases h
    and_intros <;> first | assumption | rfl | exact List.forall_mem_nil _
  · intro h
    simp only [Parson.deserializeSadNode, h, ok_bind]
    rfl

end Fields

theorem exact_sadFields_iff {n : SadEntryNode} : (∀ f ∈ sadFields n, ExactField f) ↔ JsonExact n := by
  constructor
  · intro h
    simp only [sadFields, List.forall_mem_cons, ExactField] at h
    exact ⟨by simp [sadStrings, h], by simp [sadLongs, h]⟩
  · rintro ⟨hs, hl⟩
    simp only [sadStrings, List.forall_mem_cons] at hs
    simp only [sadLongs, List.forall_mem_cons] at hl
    simp [sadFields, ExactField, hs, hl, hasBits_toNat]

/-- Which nodes come back from JSON: those whose strings are UTF-8 and whose
wide integers have no more than 53 significant bits. -/
theorem sad_json {p : Parson} (hp : p.Lawful) (malloc n : SadEntryNode) :
    p.deserializeSadNode .strict malloc (some (p.serializeSadNode n)) = .ok n ↔ JsonExact n := by
  rw [deserializeSadNode_eq_ok_iff, ← exact_sadFields_iff]
  exact forall₂_congr fun f hf => readBack_iff hp (serializeSadNode_field hp hf)

/-! ## Trees -/

/-- A value as a tree. -/
inductive Json
  | null
  | string (s : CStr)
  | number (x : Rat)
  | boolean (b : Bool)
  | array (items : List Json)
  | object (fields : List (String × Json))

def Json.value : Json → JsonValue (List (String × Json)) (List Json)
  | .null => .null
  | .string s => .string s
  | .number x => .number x
  | .boolean b => .boolean b
  | .array items => .array items
  | .object fields => .object fields

/-- The value of a key of an object that is a tree. -/
def treeValue (o : List (String × Json)) (key : String) : Option (JsonValue (List (String × Json)) (List Json)) :=
  (o.lookup key).map Json.value

/-- A parson whose values are trees. -/
def treeParson : Parson where
  Object := List (String × Json)
  Items := List Json
  init := []
  setString o key s := if validUtf8 s then (key, .string s) :: o else o
  setNumber o key x := (key, .number x) :: o
  setBoolean o key b := (key, .boolean b) :: o
  getValue := treeValue
  getString o key := (o.bind (treeValue · key)).bind JsonValue.string?
  getNumber o key := ((o.bind (treeValue · key)).bind JsonValue.number?).getD 0
  getBoolean o key := ((o.bind (treeValue · key)).bind JsonValue.boolean?).elim (-1) fun b => if b then 1 else 0
  getArray o key := (o.bind (treeValue · key)).bind JsonValue.items?
  getCount items := items.elim 0 List.length
  getObject items i := match items.bind (·[i]?) with
    | some (.object fields) => some fields
    | _ => none

theorem treeValue_cons (o : List (String × Json)) (key key' : String) (v : Json) :
    treeValue ((key, v) :: o) key' = if key' = key then some v.value else treeValue o key' := by
  rw [treeValue, List.lookup_cons]
  by_cases h : key' = key
  · simp [h]
  · rw [beq_eq_false_iff_ne.mpr h, if_neg h]
    rfl

theorem lawful_treeParson : treeParson.Lawful where
  getValue_init _ := rfl
  getValue_setString o key s key' := by
    by_cases hv : validUtf8 s = true
    · have hset : treeParson.setString o key s = (key, .string s) :: o := if_pos hv
      rw [hset]
      simp only [hv, and_true]
      exact treeValue_cons o key key' (.string s)
    · have hset : treeParson.setString o key s = o := if_neg hv
      rw [hset, if_neg fun h => hv h.2]
  getValue_setNumber o key x key' := treeValue_cons o key key' (.number x)
  getValue_setBoolean o key b key' := treeValue_cons o key key' (.boolean b)
  getString_eq _ _ := rfl
  getNumber_eq _ _ := rfl
  getBoolean_eq _ _ := rfl
  getArray_eq _ _ := rfl
  getCount_null := rfl

/-- A node with the prefixes of `add_sad.xml`. -/
def prefixNode : SadEntryNode :=
  { createSadNode default with
    name := lit "gw", spi := 34502, localSubnet := lit "192.168.201.0/24", remoteSubnet := lit "192.168.202.0/24" }

theorem sad_json_prefixes :
    treeParson.deserializeSadNode .strict default (some (treeParson.serializeSadNode prefixNode)) = .ok prefixNode := by
  have hlongs : (sadLongs prefixNode).Forall fun x => HasBits 53 x.toNat := by decide +kernel
  exact (sad_json lawful_treeParson default prefixNode).mpr ⟨by decide +kernel, List.forall_iff_forall_mem.mp hlongs⟩

/-- A `reqid` of 54 bits. -/
def wideReqid : List Setting :=
  [⟨⟨[.child (lit "reqid")], .uint 64⟩, [], ⟨9007199254740993, none⟩, by decide +kernel,
    noKeys, by decide +kernel⟩]

/-- An encryption key that is not UTF-8. -/
def binaryKey : List Setting := [encryptionKey "01:23:45:67:89:ab:ce:ff" (by decide +kernel)]

/-- The nodes that are read of these. -/
def wideNode : SadEntryNode := { createSadNode default with name := lit "gw", reqId := 9007199254740993 }

def binaryNode : SadEntryNode :=
  { createSadNode default with
    name := lit "gw", encryptionKey := .ofBuf [0x01, 0x23, 0x45, 0x67, 0x89, 0xab, 0xce, 0xff] }

/-- The `reqid` of an entry comes back rounded, and its key stops the reader. -/
theorem sad_json_lost :
    (readSettings default (lit "gw") wideReqid = some (.ok (), [], wideNode) ∧
        (treeParson.deserializeSadNode .strict default (some (treeParson.serializeSadNode wideNode))).map (·.reqId) =
          .ok 9007199254740992) ∧
      (readSettings default (lit "gw") binaryKey = some (.ok (), [], binaryNode) ∧
        treeParson.deserializeSadNode .strict default (some (treeParson.serializeSadNode binaryNode)) =
          .error (.nullString "encryption_key")) ∧
      ¬∀ p : Parson, p.Lawful → ∀ malloc n,
        p.deserializeSadNode .strict malloc (some (p.serializeSadNode n)) = .ok n := by
  have hfault : treeParson.deserializeSadNode .strict default (some (treeParson.serializeSadNode binaryNode)) =
      .error (.nullString "encryption_key") := by decide +kernel
  refine ⟨⟨by decide +kernel, by decide +kernel⟩, ⟨by decide +kernel, hfault⟩, fun hall => ?_⟩
  rw [hall treeParson lawful_treeParson default binaryNode] at hfault
  cases hfault

end CfgIpsec.Proof
