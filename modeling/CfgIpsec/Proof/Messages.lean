import CfgIpsec.Proof.Json

/-!
# Messages that the decoder copes with

A node is read from an object that has its strings (`deserializeSadNode_iff`), and is
found in it when it has a value for each field (`foundIn_of_readBack`). The decoder
goes over as many elements as an `int` counts (`decodeEntries_iff`), puts their nodes
in the slots (`decodeEntries_slots`), and always returns zero. So it copes with the
messages that are one, and no others (`new_config_iff`).
-/

namespace CfgIpsec.Proof

open Impl Spec Rounding
open CStr (lit)

variable {p : Parson} {value : (w : Nat) → Rat → BitVec w}

/-! ## Nodes -/

theorem toUnsigned_lenient (w : Nat) (x : Rat) :
    (Assign.lenient value).toUnsigned w x = .ok (if -1 < x ∧ x < 2 ^ w then BitVec.ofNat w x.floor.toNat else value w x) := by
  rw [Assign.toUnsigned]
  split <;> rfl

theorem toInt_lenient (x : Rat) : (Assign.lenient value).toInt x =
    .ok (if -2 ^ 31 - 1 < x ∧ x < 2 ^ 31 then BitVec.ofInt 32 (x.num.tdiv x.den) else value 32 x) := by
  rw [Assign.toInt]
  split <;> rfl

/-- A node is read from an object that has its strings. -/
theorem deserializeSadNode_iff {malloc : SadEntryNode} {o : Option p.Object} :
    (∃ n, p.deserializeSadNode (.lenient value) malloc o = .ok n) ↔ HasStrings p o := by
  rw [HasStrings, sadStringKeys]
  simp only [List.forall_mem_cons, Option.isSome_iff_exists]
  constructor
  · rintro ⟨n, h⟩
    have hfields := deserializeSadNode_eq_ok_iff.mp h
    simp only [sadFields, List.forall_mem_cons, ReadBack] at hfields
    simp [hfields]
  · rintro ⟨⟨s₁, h₁⟩, ⟨s₂, h₂⟩, ⟨s₃, h₃⟩, ⟨s₄, h₄⟩, ⟨s₅, h₅⟩, ⟨s₆, h₆⟩, ⟨s₇, h₇⟩, ⟨s₈, h₈⟩, -⟩
    simp only [Parson.deserializeSadNode, Parson.copyString, h₁, h₂, h₃, h₄, h₅, h₆, h₇, h₈, toUnsigned_lenient, ok_bind]
    exact ⟨_, rfl⟩

/-- What is read where the object has a value for the field is found there. -/
theorem foundIn_of_readBack (hp : p.Lawful) {e : Assign} {o : p.Object} {f : Field} (hg : Gives p o f)
    (h : ReadBack e (some o) f) : FoundIn p o f := by
  cases f with
  | string key size s =>
    obtain ⟨t, ht, hlen⟩ := hg
    rw [ReadBack, hp.getString_eq, Option.bind_some, ht] at h
    cases h
    exact ⟨ht, hlen⟩
  | number key x =>
    obtain ⟨r, hr, hrange⟩ := hg
    rw [ReadBack, hp.getNumber_eq, Option.bind_some, hr] at h
    have hx : Except.ok _ = Except.ok x := (if_pos hrange).symm.trans h
    cases hx
    exact ⟨r, hr, hrange, rfl⟩
  | boolean key b =>
    obtain ⟨c, hc⟩ := hg
    rw [ReadBack, Parson.getBool, hp.getBoolean_eq, Option.bind_some, hc] at h
    have hcb : c = b := by
      rw [← h]
      cases c <;> simp [JsonValue.boolean?]
    exact hcb ▸ hc

theorem gives_of_foundIn {o : p.Object} {f : Field} (h : FoundIn p o f) : Gives p o f := by
  cases f with
  | string key size s => exact ⟨s, h⟩
  | number key x =>
    obtain ⟨r, hr, hrange, -⟩ := h
    exact ⟨r, hr, hrange⟩
  | boolean key b => exact ⟨b, h⟩

/-- Whether an object has values for the fields of a node does not depend on the node. -/
theorem gives_sadFields_iff {o : p.Object} (n : SadEntryNode) : (∀ f ∈ sadFields n, Gives p o f) ↔ IsSadObject p o := by
  rw [IsSadObject]
  simp only [sadFields, List.forall_mem_cons, Gives]

/-- Each key of a string is that of a field. -/
theorem string_mem_sadFields (n : SadEntryNode) {key : String} (h : key ∈ sadStringKeys) :
    ∃ size s, Field.string key size s ∈ sadFields n := by
  simp only [sadStringKeys, List.mem_cons, List.not_mem_nil, or_false] at h
  rcases h with rfl | rfl | rfl | rfl | rfl | rfl | rfl | rfl <;> simp [sadFields]

theorem hasStrings_of_isSadObject (hp : p.Lawful) {o : p.Object} (h : IsSadObject p o) : HasStrings p (some o) := by
  intro key hkey
  obtain ⟨size, s, hf⟩ := string_mem_sadFields default hkey
  obtain ⟨t, ht, -⟩ := h _ hf
  rw [hp.getString_eq, Option.bind_some, ht]
  rfl

/-- The node that is read from an object with a value for each of its fields is the
object's. -/
theorem deserializeSadNode_found (hp : p.Lawful) {e : Assign} {malloc n : SadEntryNode} {o : p.Object}
    (ho : IsSadObject p o) (h : p.deserializeSadNode e malloc (some o) = .ok n) : ∀ f ∈ sadFields n, FoundIn p o f :=
  fun f hf => foundIn_of_readBack hp ((gives_sadFields_iff n).mpr ho f hf) (deserializeSadNode_eq_ok_iff.mp h f hf)

/-! ## Messages -/

/-- The loop ends when each element it comes to has its strings and a slot. -/
theorem decodeEntries_iff {malloc : Nat → SadEntryNode} {entries : Option p.Items} {k i : Nat} {msg : NewConfigMsg} :
    (∃ m, p.decodeEntries ⟨.lenient value, malloc⟩ entries k i msg = .ok m) ↔
      ∀ j, i ≤ j → j < i + k → j < 2 ∧ HasStrings p (p.getObject entries j) := by
  induction k generalizing i msg with
  | zero => exact iff_of_true ⟨msg, rfl⟩ fun j hi hj => by omega
  | succ k ih =>
    constructor
    · rintro ⟨m, h⟩ j hi hj
      rw [Parson.decodeEntries] at h
      obtain ⟨node, hnode, h⟩ := bind_eq_ok_iff.mp h
      split at h
      · rename_i hlt
        rcases Nat.eq_or_lt_of_le hi with rfl | hi
        · exact ⟨hlt, deserializeSadNode_iff.mp ⟨node, hnode⟩⟩
        · exact ih.mp ⟨m, h⟩ j hi (by omega)
      · cases h
    · intro h
      obtain ⟨hlt, hstrings⟩ := h i (Nat.le_refl i) (by omega)
      obtain ⟨node, hnode⟩ := deserializeSadNode_iff.mpr hstrings
      obtain ⟨m, hm⟩ := (@ih (i + 1) { msg with sadEntries := msg.sadEntries.set i (some node) }).mpr
        fun j hi hj => h j (by omega) (by omega)
      refine ⟨m, ?_⟩
      rw [Parson.decodeEntries]
      refine bind_eq_ok_iff.mpr ⟨node, hnode, ?_⟩
      rw [dif_pos hlt]
      exact hm

/-- What the loop leaves in the message: the nodes of the elements it comes to. -/
theorem decodeEntries_slots {e : DecodeEnv} {entries : Option p.Items} {k i : Nat} {msg m : NewConfigMsg}
    (h : p.decodeEntries e entries k i msg = .ok m) :
    m.entriesId = msg.entriesId ∧ ∀ j (hj : j < 2),
      (i ≤ j → j < i + k → ∃ n, p.deserializeSadNode e.toAssign (e.malloc j) (p.getObject entries j) = .ok n ∧
        m.sadEntries[j] = some n) ∧
      (¬(i ≤ j ∧ j < i + k) → m.sadEntries[j] = msg.sadEntries[j]) := by
  induction k generalizing i msg with
  | zero =>
    cases h
    exact ⟨rfl, fun j hj => ⟨fun hi hk => by omega, fun _ => rfl⟩⟩
  | succ k ih =>
    rw [Parson.decodeEntries] at h
    obtain ⟨node, hnode, h⟩ := bind_eq_ok_iff.mp h
    split at h
    · rename_i hlt
      obtain ⟨hid, hslots⟩ := ih h
      refine ⟨hid, fun j hj => ?_⟩
      obtain ⟨hin, hout⟩ := hslots j hj
      constructor
      · intro hi hk
        rcases Nat.eq_or_lt_of_le hi with rfl | hi
        · -- The later turns leave this slot.
          refine ⟨node, hnode, ?_⟩
          rw [hout (by omega)]
          simp
        · exact hin hi (by omega)
      · intro hno
        rw [hout (by omega)]
        simp only [Vector.getElem_set]
        rw [if_neg (by omega)]
    · cases h

/-- What the decoder does: the integer, and the loop. -/
theorem decodeNewConfigMsg_eq_ok_iff {malloc : Nat → SadEntryNode} {o : p.Object} {msg msg' : NewConfigMsg} {rc : Int} :
    p.decodeNewConfigMsg ⟨.lenient value, malloc⟩ (some o) msg = .ok (rc, msg') ↔
      rc = 0 ∧ p.decodeEntries ⟨.lenient value, malloc⟩ (p.getArray (some o) "sad_entries")
        (BitVec.ofNat 32 (p.getCount (p.getArray (some o) "sad_entries"))).toInt.toNat 0
        { msg with entriesId := let x := p.getNumber (some o) "entries_id"
                                if -2 ^ 31 - 1 < x ∧ x < 2 ^ 31 then BitVec.ofInt 32 (x.num.tdiv x.den)
                                else value 32 x } = .ok msg' := by
  rw [Parson.decodeNewConfigMsg, toInt_lenient, ok_bind]
  constructor
  · intro h
    obtain ⟨m, hm, h⟩ := bind_eq_ok_iff.mp h
    cases h
    exact ⟨rfl, hm⟩
  · rintro ⟨rfl, hm⟩
    exact bind_eq_ok_iff.mpr ⟨msg', hm, rfl⟩

theorem decodeNewConfigMsg_iff {malloc : Nat → SadEntryNode} {o : p.Object} {msg : NewConfigMsg} :
    (∃ r, p.decodeNewConfigMsg ⟨.lenient value, malloc⟩ (some o) msg = .ok r) ↔ StaysInBounds p o := by
  simp only [Prod.exists, decodeNewConfigMsg_eq_ok_iff, exists_and_left, exists_eq_left, decodeEntries_iff]
  rw [StaysInBounds]
  constructor
  · intro h
    refine ⟨?_, fun i hi => (h i (Nat.zero_le i) (by omega)).2⟩
    by_contra hgt
    have := (h 2 (by omega) (by omega)).1
    omega
  · rintro ⟨hle, h⟩ j - hj
    exact ⟨by omega, h j (by omega)⟩

/-- A message tells what it is. -/
theorem isNewConfig_of_decoded {o : p.Object} {msg msg' : NewConfigMsg} (h : Decoded p o msg msg') : IsNewConfig p o := by
  obtain ⟨r, hr, hrange, -⟩ := h.entriesId
  obtain ⟨items, hitems, hcount, hslots⟩ := h.entries
  refine ⟨⟨r, hr, hrange⟩, items, hitems, hcount, fun i hi => ?_⟩
  have hslot := hslots i (by omega)
  rw [if_pos hi] at hslot
  obtain ⟨a, n, ha, -, hfound⟩ := hslot
  exact ⟨a, ha, (gives_sadFields_iff n).mp fun f hf => gives_of_foundIn (hfound f hf)⟩

/-- The decoder makes of a message what it tells. -/
theorem decoded_of_isNewConfig (hp : p.Lawful) {malloc : Nat → SadEntryNode} {o : p.Object} (h : IsNewConfig p o)
    (msg : NewConfigMsg) :
    ∃ msg', p.decodeNewConfigMsg ⟨.lenient value, malloc⟩ (some o) msg = .ok (0, msg') ∧ Decoded p o msg msg' := by
  obtain ⟨r, hr, hrange⟩ := h.entriesId
  obtain ⟨items, hitems, hcount, hobjects⟩ := h.entries
  have harray : p.getArray (some o) "sad_entries" = some items := by
    rw [hp.getArray_eq, Option.bind_some, hitems]
    rfl
  have hnumber : p.getNumber (some o) "entries_id" = r := by
    rw [hp.getNumber_eq, Option.bind_some, hr]
    rfl
  have hint : (BitVec.ofNat 32 (p.getCount (some items))).toInt.toNat = p.getCount (some items) := by
    generalize p.getCount (some items) = c at hcount
    obtain rfl | rfl | rfl : c = 0 ∨ c = 1 ∨ c = 2 := by omega
    all_goals rfl
  have hbounds : StaysInBounds p o := by
    simp only [StaysInBounds, harray, hint]
    refine ⟨hcount, fun i hi => ?_⟩
    obtain ⟨a, ha, hsad⟩ := hobjects i hi
    rw [ha]
    exact hasStrings_of_isSadObject hp hsad
  obtain ⟨⟨rc, msg'⟩, hok⟩ := decodeNewConfigMsg_iff.mpr hbounds
  obtain ⟨rfl, hloop⟩ := decodeNewConfigMsg_eq_ok_iff.mp hok
  refine ⟨msg', hok, ?_⟩
  rw [harray, hint, hnumber] at hloop
  obtain ⟨hid, hslots⟩ := decodeEntries_slots hloop
  refine ⟨⟨r, hr, hrange, hid.trans (if_pos hrange)⟩, items, hitems, hcount, fun i hi => ?_⟩
  obtain ⟨hin, hout⟩ := hslots i hi
  by_cases hlt : i < p.getCount (some items)
  · rw [if_pos hlt]
    obtain ⟨a, ha, hsad⟩ := hobjects i hlt
    obtain ⟨n, hn, hslot⟩ := hin (Nat.zero_le i) (by omega)
    rw [ha] at hn
    exact ⟨a, n, ha, hslot, deserializeSadNode_found hp hsad hn⟩
  · rw [if_neg hlt]
    exact hout (by omega)

/-- The decoder makes only defined accesses exactly on the objects that stay in
bounds, and copes with exactly those that are messages with a new configuration. -/
theorem new_config_iff (hp : p.Lawful) (malloc : Nat → SadEntryNode) (o : p.Object) (msg : NewConfigMsg) :
    ((∃ r, p.decodeNewConfigMsg ⟨.lenient value, malloc⟩ (some o) msg = .ok r) ↔ StaysInBounds p o) ∧
      (Copes p ⟨.lenient value, malloc⟩ o msg ↔ IsNewConfig p o) := by
  refine ⟨decodeNewConfigMsg_iff, ?_⟩
  constructor
  · rintro ⟨rc, msg', h, hreport⟩
    exact isNewConfig_of_decoded (hreport (decodeNewConfigMsg_eq_ok_iff.mp h).1)
  · intro hconfig
    obtain ⟨msg', h, hdecoded⟩ := decoded_of_isNewConfig hp hconfig msg
    exact ⟨0, msg', h, fun _ => hdecoded⟩

/-- A value for a field. -/
def someValue : Field → Json
  | .string _ _ _ => .string (lit "gw")
  | .number _ _ => .number 0
  | .boolean _ _ => .boolean true

/-- An object that is a node. -/
def someObject : List (String × Json) := (sadFields default).map fun f => (f.key, someValue f)

/-- What the decoder meets in the examples. -/
def someEnv : DecodeEnv := ⟨.lenient fun _ _ => 0, fun _ => default⟩

def emptyMsg : NewConfigMsg := ⟨0, #v[none, none]⟩

/-- A message with one node. -/
def oneNode : List (String × Json) := [("entries_id", .number 1), ("sad_entries", .array [.object someObject])]

theorem isSadObject_someObject : IsSadObject treeParson someObject := by
  have hvalue : ∀ f ∈ sadFields default, treeValue someObject f.key = some (someValue f).value := by
    simp only [sadFields, List.forall_mem_cons, someValue]
    and_intros <;> first | rfl | exact List.forall_mem_nil _
  intro f hf
  have h := hvalue f hf
  cases f with
  | string key size t =>
    have hsize : ∀ f ∈ sadFields default, ∀ key size t, f = .string key size t → 40 ≤ size := by
      simp [sadFields, MAX_PATH, MAX_IP, MAX_KEY]
    have hlen : strlen (lit "gw") = 2 := by decide +kernel
    have hle := hsize _ hf key size t rfl
    exact ⟨lit "gw", h, by omega⟩
  | number key x => exact ⟨0, h, by norm_num, by positivity⟩
  | boolean key b => exact ⟨true, h⟩

/-- The decoder copes with a message with one node. -/
theorem new_config_one : Copes treeParson someEnv oneNode emptyMsg := by
  refine (new_config_iff lawful_treeParson (fun _ => default) oneNode emptyMsg).2.mpr
    ⟨⟨1, rfl, by norm_num⟩, [.object someObject], rfl, by decide, fun i hi => ?_⟩
  obtain rfl : i = 0 := Nat.lt_one_iff.mp hi
  exact ⟨someObject, rfl, isSadObject_someObject⟩

/-- A message without entries is taken for one, an element without a name is copied
from `NULL`, and a third node is stored after the array. -/
theorem new_config_hostile :
    ((treeParson.decodeNewConfigMsg someEnv (some [("entries_id", .number 1)]) emptyMsg).map (·.1) = .ok 0 ∧
      ¬Copes treeParson someEnv [("entries_id", .number 1)] emptyMsg) ∧
    (treeParson.decodeNewConfigMsg someEnv (some [("sad_entries", .array [.object []])]) emptyMsg =
        .error (.nullString "name") ∧
      ¬Copes treeParson someEnv [("sad_entries", .array [.object []])] emptyMsg) ∧
    treeParson.decodeNewConfigMsg someEnv
        (some [("sad_entries", .array [.object someObject, .object someObject, .object someObject])]) emptyMsg =
        .error (.outside 2) ∧
      ¬Copes treeParson someEnv
        [("sad_entries", .array [.object someObject, .object someObject, .object someObject])] emptyMsg := by
  have hnull : treeParson.decodeNewConfigMsg someEnv (some [("sad_entries", .array [.object []])]) emptyMsg =
      .error (.nullString "name") := by decide +kernel
  have houtside : treeParson.decodeNewConfigMsg someEnv
      (some [("sad_entries", .array [.object someObject, .object someObject, .object someObject])]) emptyMsg =
        .error (.outside 2) := by decide +kernel
  refine ⟨⟨by decide +kernel, ?_⟩, ⟨hnull, ?_⟩, houtside, ?_⟩
  · rintro ⟨rc, msg', h, hreport⟩
    obtain ⟨items, hitems, -⟩ := (hreport (decodeNewConfigMsg_eq_ok_iff.mp h).1).entries
    cases hitems
  · rintro ⟨rc, msg', h, -⟩
    rw [hnull] at h
    cases h
  · rintro ⟨rc, msg', h, -⟩
    rw [houtside] at h
    cases h

end CfgIpsec.Proof
