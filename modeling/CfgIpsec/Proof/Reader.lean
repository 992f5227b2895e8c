import CfgIpsec.Impl.ReadSad
import CfgIpsec.Impl.ReadSpd

/-!
# What the readers do with a node

A reader stores the values it accepts one after the other (`readLoop_storeAll`),
so that a field holds what the last value that changes it put there
(`storeAll_field`), and it stops where a block ends (`readLoop_append`). It
changes a node in the same way whatever its name is (`readSadValue_rename`,
`readSpdValue_rename`), and so keeps the name.
-/

namespace CfgIpsec.Proof

open Impl

/-- The node a reader goes on with or gives up with. -/
def Stored.node {α : Type} : Stored α → α
  | .next n => n
  | .reject n => n

/-- The node a reader goes on with. -/
def Stored.next? {α : Type} : Stored α → Option α
  | .next n => some n
  | .reject _ => none

def Stored.map {α β : Type} (f : α → β) : Stored α → Stored β
  | .next n => .next (f n)
  | .reject n => .reject (f n)

/-! ## The loop -/

section Loop

variable {α : Type} {store : SrVal → α → Option (Stored α)}

/-- What a reader's body keeps its loop keeps. -/
theorem readLoop_keeps {P : α → Prop} (h : ∀ v n r, store v n = some r → P n → P (Stored.node r)) {xpath : CStr}
    {c : SrChange} {it it' : SrChangeIter} {n : α} {r : Stored α}
    (hr : readLoop store xpath c it n = some (it', r)) (hn : P n) : P (Stored.node r) := by
  induction it generalizing c n with
  | nil =>
    rw [readLoop] at hr
    obtain ⟨v, -, hr⟩ := Option.bind_eq_some_iff.mp hr
    split at hr
    · obtain ⟨m, hs, hr⟩ := Option.bind_eq_some_iff.mp hr
      have hm := h v n m hs hn
      cases m <;> cases hr <;> exact hm
    · cases hr; exact hn
  | cons c' it ih =>
    rw [readLoop] at hr
    obtain ⟨v, -, hr⟩ := Option.bind_eq_some_iff.mp hr
    split at hr
    · obtain ⟨m, hs, hr⟩ := Option.bind_eq_some_iff.mp hr
      have hm := h v n m hs hn
      rcases m with m | m
      · rcases c' with e | c'
        · cases hr; exact hm
        · exact ih hr hm
      · cases hr; exact hm
    · cases hr; exact hn

/-- What takes the body of one reader to that of another takes their loops to
each other. -/
theorem readLoop_comm {β : Type} {store' : SrVal → β → Option (Stored β)} {f : α → β}
    (h : ∀ v n, store' v (f n) = (store v n).map (Stored.map f)) (xpath : CStr) (c : SrChange)
    (it : SrChangeIter) (n : α) :
    readLoop store' xpath c it (f n) =
      (readLoop store xpath c it n).map fun r => (r.1, Stored.map f r.2) := by
  induction it generalizing c n with
  | nil =>
    rw [readLoop, readLoop]
    cases c.value with
    | none => rfl
    | some v =>
      simp only [Option.bind_eq_bind, Option.bind_some]
      split
      · rw [h]
        rcases store v n with _ | (m | m) <;> rfl
      · rfl
  | cons r it ih =>
    rw [readLoop, readLoop]
    cases c.value with
    | none => rfl
    | some v =>
      simp only [Option.bind_eq_bind, Option.bind_some]
      split
      · rw [h]
        rcases store v n with _ | (m | m)
        · rfl
        · rcases r with e | c'
          · rfl
          · exact ih c' m
        · rfl
      · rfl

/-- The node a reader makes of values it accepts. -/
def storeAll {ι : Type} (store : ι → α → Option (Stored α)) : List ι → α → Option α
  | [], n => some n
  | v :: vs, n =>
    match store v n with
    | some (.next m) => storeAll store vs m
    | _ => none

theorem storeAll_cons {ι : Type} {store : ι → α → Option (Stored α)} {v : ι} {vs : List ι} {n m : α} :
    storeAll store (v :: vs) n = some m ↔ ∃ m₁, store v n = some (.next m₁) ∧ storeAll store vs m₁ = some m := by
  rw [storeAll]
  rcases store v n with _ | (m₁ | m₁) <;> simp

theorem storeAll_map {ι κ : Type} {store : κ → α → Option (Stored α)} (g : ι → κ) (vs : List ι) (n : α) :
    storeAll store (vs.map g) n = storeAll (fun v => store (g v)) vs n := by
  induction vs generalizing n with
  | nil => rfl
  | cons v vs ih =>
    rw [List.map_cons, storeAll, storeAll]
    rcases store (g v) n with _ | (m | m)
    · rfl
    · exact ih m
    · rfl

theorem storeAll_isSome {ι : Type} {store : ι → α → Option (Stored α)} {vs : List ι}
    (h : ∀ v ∈ vs, ∀ n, ∃ m, store v n = some (.next m)) (n : α) : ∃ m, storeAll store vs n = some m := by
  induction vs generalizing n with
  | nil => exact ⟨n, rfl⟩
  | cons v vs ih =>
    obtain ⟨hv, hvs⟩ := List.forall_mem_cons.mp h
    obtain ⟨m, hm⟩ := hv n
    rw [storeAll, hm]
    exact ih hvs m

theorem storeAll_comm {ι : Type} {store : ι → α → Option (Stored α)} {f : α → α}
    (h : ∀ v n, store v (f n) = (store v n).map (Stored.map f)) (vs : List ι) (n : α) :
    storeAll store vs (f n) = (storeAll store vs n).map f := by
  induction vs generalizing n with
  | nil => rfl
  | cons v vs ih =>
    rw [storeAll, storeAll, h]
    rcases store v n with _ | (m | m)
    · rfl
    · exact ih m
    · rfl

/-- A field that a value changes or leaves alone holds what the last value that
changes it put there. -/
theorem storeAll_field {ι β : Type} {store : ι → α → Option (Stored α)} {get : α → β} {put : ι → Option β}
    (h : ∀ v n m, store v n = some (.next m) → get m = (put v).getD (get n)) {vs : List ι} {n m : α}
    (hm : storeAll store vs n = some m) : get m = (vs.reverse.findSome? put).getD (get n) := by
  induction vs generalizing n with
  | nil => cases hm; rfl
  | cons v vs ih =>
    obtain ⟨m₁, hv, hm⟩ := storeAll_cons.mp hm
    rw [ih hm, h v n m₁ hv, List.reverse_cons, List.findSome?_append, List.findSome?_singleton]
    cases vs.reverse.findSome? put <;> rfl

/-- A turn of the loop at a created value that is stored. -/
theorem readLoop_created {store : SrVal → α → Option (Stored α)} {xpath : CStr} {v : SrVal} {n m : α}
    (hx : startsWith v.xpath xpath = true) (hs : store v n = some (.next m)) (it : SrChangeIter) :
    readLoop store xpath v.created it n =
      match it with
      | .ok c :: it => readLoop store xpath c it m
      | .error _ :: it => some (it, .next m)
      | [] => some ([], .next m) := by
  have hv : v.created.value = some v := rfl
  rcases it with _ | ⟨e | c, it⟩
  all_goals
    rw [readLoop, hv]
    simp only [Option.bind_eq_bind, Option.bind_some, if_pos hx, hs, Option.pure_def]

theorem readLoop_created_reject {store : SrVal → α → Option (Stored α)} {xpath : CStr} {v : SrVal} {n m : α}
    (hx : startsWith v.xpath xpath = true) (hs : store v n = some (.reject m)) (it : SrChangeIter) :
    readLoop store xpath v.created it n = some (it, .reject m) := by
  have hv : v.created.value = some v := rfl
  rcases it with _ | ⟨r, it⟩
  all_goals
    rw [readLoop, hv]
    simp only [Option.bind_eq_bind, Option.bind_some, if_pos hx, hs, Option.pure_def]

theorem readLoop_created_none {store : SrVal → α → Option (Stored α)} {xpath : CStr} {v : SrVal} {n : α}
    (hx : startsWith v.xpath xpath = true) (hs : store v n = none) (it : SrChangeIter) :
    readLoop store xpath v.created it n = none := by
  have hv : v.created.value = some v := rfl
  rcases it with _ | ⟨r, it⟩
  all_goals
    rw [readLoop, hv]
    simp only [Option.bind_eq_bind, Option.bind_some, if_pos hx, hs, Option.bind_none]

/-- The loop over created values that are stored. -/
theorem readLoop_storeAll {store : SrVal → α → Option (Stored α)} {xpath : CStr} {v : SrVal} {vs : List SrVal}
    {n m : α} (hx : ∀ w ∈ v :: vs, startsWith w.xpath xpath = true) (hm : storeAll store (v :: vs) n = some m) :
    readLoop store xpath v.created (vs.map fun w => .ok w.created) n = some ([], .next m) := by
  induction vs generalizing v n with
  | nil =>
    obtain ⟨m₁, hs, hm⟩ := storeAll_cons.mp hm
    cases hm
    exact readLoop_created (hx v List.mem_cons_self) hs []
  | cons w vs ih =>
    obtain ⟨hxv, hx⟩ := List.forall_mem_cons.mp hx
    obtain ⟨m₁, hs, hm⟩ := storeAll_cons.mp hm
    rw [List.map_cons, readLoop_created hxv hs]
    exact ih hx hm

/-- The loop over a block of which all values are stored. -/
theorem readLoop_block {ι : Type} {store : SrVal → α → Option (Stored α)} {xpath : CStr} {value : ι → SrVal}
    {vs : List ι} {n m : α} (hne : vs ≠ []) (hx : ∀ v, startsWith (value v).xpath xpath = true)
    (hm : storeAll (fun v => store (value v)) vs n = some m) :
    ∃ c it, vs.map (fun v => .ok (value v).created) = .ok c :: it ∧
      readLoop store xpath c it n = some ([], .next m) := by
  rcases vs with _ | ⟨v, vs⟩
  · exact absurd rfl hne
  rw [← storeAll_map] at hm
  have hmem : ∀ w ∈ (v :: vs).map value, startsWith w.xpath xpath = true := by simp [hx]
  have hloop := readLoop_storeAll hmem hm
  rw [List.map_map] at hloop
  exact ⟨_, _, rfl, hloop⟩

/-- The loop over changes of any kind at none of which the reader gives up. -/
theorem readLoop_changes {ι : Type} {store : SrVal → α → Option (Stored α)} {xpath : CStr} {change : ι → SrChange}
    {value : ι → SrVal} (hvalue : ∀ i, (change i).value = some (value i))
    (hx : ∀ i, startsWith (value i).xpath xpath = true) {i : ι} {is : List ι}
    (hnext : ∀ j ∈ i :: is, ∀ n m, store (value j) n ≠ some (.reject m)) (n : α) :
    readLoop store xpath (change i) (is.map fun j => .ok (change j)) n =
      ((i :: is).foldlM (fun n j => (store (value j) n).bind Stored.next?) n).map fun m => ([], .next m) := by
  induction is generalizing i n with
  | nil =>
    rw [List.map_nil, readLoop, hvalue, List.foldlM_cons]
    simp only [Option.bind_eq_bind, Option.bind_some, if_pos (hx i)]
    cases hs : store (value i) n with
    | none => rfl
    | some r =>
      cases r with
      | next m => rfl
      | reject m => exact absurd hs (hnext i List.mem_cons_self n m)
  | cons k is ih =>
    rw [List.map_cons, readLoop, hvalue, List.foldlM_cons]
    simp only [Option.bind_eq_bind, Option.bind_some, if_pos (hx i)]
    cases hs : store (value i) n with
    | none => rfl
    | some r =>
      cases r with
      | next m => exact ih (fun j hj => hnext j (List.mem_cons_of_mem _ hj)) m
      | reject m => exact absurd hs (hnext i List.mem_cons_self n m)

/-- Changes after a block that end it: none, a step that fails, or a change
elsewhere. -/
inductive Ends (xpath : CStr) : SrChangeIter → Prop
  | nil : Ends xpath []
  | error (e : SrError) (it : SrChangeIter) : Ends xpath (.error e :: it)
  | other {c : SrChange} {v : SrVal} (hc : c.value = some v) (hv : startsWith v.xpath xpath = false)
      (it : SrChangeIter) : Ends xpath (.ok c :: it)

/-- With changes after them that end the block, created values are read alike;
what is left of them stays, and of the changes after them the loop may take
one. -/
theorem readLoop_append {store : SrVal → α → Option (Stored α)} {xpath : CStr} {v : SrVal} {vs : List SrVal}
    {it tail : SrChangeIter} {n : α} {r : Stored α} (hx : ∀ w ∈ v :: vs, startsWith w.xpath xpath = true)
    (ht : Ends xpath tail)
    (h : readLoop store xpath v.created (vs.map fun w => .ok w.created) n = some (it, r)) :
    it <:+ (vs.map fun w => .ok w.created) ∧ ∃ it', (it' = it ++ tail ∨ it = [] ∧ it' = tail.tail) ∧
      readLoop store xpath v.created (vs.map (fun w => .ok w.created) ++ tail) n = some (it', r) := by
  induction vs generalizing v n with
  | nil =>
    have hv := hx v List.mem_cons_self
    rcases hs : store v n with _ | (m | m)
    · rw [readLoop_created_none hv hs] at h; cases h
    · rw [List.map_nil, readLoop_created hv hs] at h
      cases h
      refine ⟨List.suffix_rfl, tail.tail, .inr ⟨rfl, rfl⟩, ?_⟩
      rw [List.map_nil, List.nil_append, readLoop_created hv hs]
      cases ht with
      | nil => rfl
      | error e it => rfl
      | other hc hv' it =>
        rcases it with _ | ⟨r, it⟩
        all_goals
          simp only [List.tail_cons]
          rw [readLoop, hc]
          simp [hv']
    · rw [List.map_nil, readLoop_created_reject hv hs] at h
      cases h
      exact ⟨List.suffix_rfl, tail, .inl rfl, readLoop_created_reject hv hs tail⟩
  | cons w vs ih =>
    obtain ⟨hv, hx⟩ := List.forall_mem_cons.mp hx
    rcases hs : store v n with _ | (m | m)
    · rw [readLoop_created_none hv hs] at h; cases h
    · rw [List.map_cons, readLoop_created hv hs] at h
      obtain ⟨hsuf, it', hit, hl⟩ := ih hx h
      refine ⟨hsuf.trans (List.suffix_cons _ _), it', hit, ?_⟩
      rw [List.map_cons, List.cons_append, readLoop_created hv hs]
      exact hl
    · rw [readLoop_created_reject hv hs] at h
      cases h
      exact ⟨List.suffix_rfl, _, .inl rfl, readLoop_created_reject hv hs _⟩

theorem readLoop_append_none {store : SrVal → α → Option (Stored α)} {xpath : CStr} {v : SrVal} {vs : List SrVal}
    {n : α} (hx : ∀ w ∈ v :: vs, startsWith w.xpath xpath = true)
    (h : readLoop store xpath v.created (vs.map fun w => .ok w.created) n = none) (tail : SrChangeIter) :
    readLoop store xpath v.created (vs.map (fun w => .ok w.created) ++ tail) n = none := by
  induction vs generalizing v n with
  | nil =>
    have hv := hx v List.mem_cons_self
    rcases hs : store v n with _ | (m | m)
    · exact readLoop_created_none hv hs _
    · rw [List.map_nil, readLoop_created hv hs] at h; cases h
    · rw [readLoop_created_reject hv hs] at h; cases h
  | cons w vs ih =>
    obtain ⟨hv, hx⟩ := List.forall_mem_cons.mp hx
    rcases hs : store v n with _ | (m | m)
    · exact readLoop_created_none hv hs _
    · rw [List.map_cons, readLoop_created hv hs] at h
      rw [List.map_cons, List.cons_append, readLoop_created hv hs]
      exact ih hx h
    · rw [readLoop_created_reject hv hs] at h; cases h

end Loop

/-! ## Names -/

theorem Stored.map_map {α β γ : Type} (f : α → β) (g : β → γ) (r : Stored α) :
    Stored.map g (Stored.map f r) = Stored.map (fun n => g (f n)) r := by cases r <;> rfl

/-- What commutes with every setting of a frame commutes with what sets a part
of it. -/
theorem comm_of_frame {α κ : Type} {f : α → Option (Stored α)} {frame : κ → α → α}
    (hf : ∀ k n, f (frame k n) = (f n).map (Stored.map (frame k))) {n : α} (part : α → α) (k : κ) {k₀ : κ}
    (hself : frame k₀ n = n) (hn : part n = frame k n) (h : ∀ m, part (frame k₀ m) = frame k m) :
    f (part n) = (f n).map (Stored.map part) := by
  have hsame : (f n).map (Stored.map (frame k₀)) = f n := by rw [← hf, hself]
  have hpart : Stored.map (frame k) = fun r => Stored.map part (Stored.map (frame k₀) r) := by
    funext r
    rw [Stored.map_map]
    simp only [h]
  rw [hn, hf, hpart, ← Function.comp_def, ← Option.map_map, hsame]

/-- A node with another name and inner protocol. -/
def sadFrame (k : CStr × BitVec 32) (n : SadEntryNode) : SadEntryNode := { n with name := k.1, innerProtocol := k.2 }

def spdFrame (k : CStr × BitVec 32) (n : SpdEntryNode) : SpdEntryNode := { n with name := k.1, innerProtocol := k.2 }

/-- Leaves but for the inner protocol do not look at the name and the protocol
of a node. -/
theorem sadStore_frame {leaf : SadLeaf} (hl : leaf ≠ .innerProtocol) (has : CStr → Bool) (d : SrData)
    (k : CStr × BitVec 32) (n : SadEntryNode) :
    leaf.store has d (sadFrame k n) = (leaf.store has d n).map (Stored.map (sadFrame k)) := by
  cases leaf
  case innerProtocol => exact absurd rfl hl
  case localPrefix | remotePrefix | localEnd | remoteEnd =>
    simp only [SadLeaf.store]
    cases d.stringVal <;> rfl
  case mode | dfBit | protocolParameters =>
    simp only [SadLeaf.store]
    cases d.stringVal with
    | none => rfl
    | some s =>
      simp only [Option.bind_eq_bind, Option.bind_some]
      repeat' split
      all_goals rfl
  case iv =>
    simp only [SadLeaf.store]
    cases copyHex d <;> rfl
  case key =>
    simp only [SadLeaf.store]
    cases copyHex d <;> split <;> split <;> rfl
  case start =>
    simp only [SadLeaf.store]
    split <;> split <;> rfl
  case time | bytes | packets | idle =>
    simp only [SadLeaf.store, storeLifetime]
    split
    · rfl
    · split <;> rfl
  all_goals rfl

theorem sadStore_rename (x : CStr) (has : CStr → Bool) (d : SrData) (n : SadEntryNode) (leaf : SadLeaf) :
    leaf.store has d (n.setName x) =
      (leaf.store has d n).map (Stored.map (·.setName x)) := by
  by_cases hl : leaf = .innerProtocol
  · subst hl
    simp only [SadLeaf.store]
    split
    · rfl
    · cases d.stringVal with
      | none => rfl
      | some s => simp only [Option.bind_eq_bind, Option.bind_some]; split <;> rfl
  · exact comm_of_frame (f := fun n => leaf.store has d n) (sadStore_frame hl has d) (·.setName x) (x, n.innerProtocol)
      (rfl : sadFrame (n.name, n.innerProtocol) n = n) rfl fun _ => rfl

theorem spdStore_frame {leaf : SpdLeaf} (hl : leaf ≠ .innerProtocol) (has : CStr → Bool) (d : SrData)
    (k : CStr × BitVec 32) (n : SpdEntryNode) :
    leaf.store has d (spdFrame k n) = (leaf.store has d n).map (Stored.map (spdFrame k)) := by
  cases leaf
  case innerProtocol => exact absurd rfl hl
  case localPrefix | remotePrefix | localEnd | remoteEnd =>
    simp only [SpdLeaf.store]
    cases d.stringVal <;> rfl
  case direction | action | mode | dfBit | protocolParameters =>
    simp only [SpdLeaf.store]
    cases d.stringVal with
    | none => rfl
    | some s =>
      simp only [Option.bind_eq_bind, Option.bind_some]
      repeat' split
      all_goals rfl
  case start =>
    simp only [SpdLeaf.store]
    split <;> split <;> rfl
  all_goals rfl

theorem spdStore_rename (x : CStr) (has : CStr → Bool) (d : SrData) (n : SpdEntryNode) (leaf : SpdLeaf) :
    leaf.store has d (n.setName x) =
      (leaf.store has d n).map (Stored.map (·.setName x)) := by
  by_cases hl : leaf = .innerProtocol
  · subst hl
    simp only [SpdLeaf.store]
    split
    · rfl
    · cases d.stringVal with
      | none => rfl
      | some s => simp only [Option.bind_eq_bind, Option.bind_some]; split <;> rfl
  · exact comm_of_frame (f := fun n => leaf.store has d n) (spdStore_frame hl has d) (·.setName x) (x, n.innerProtocol)
      (rfl : spdFrame (n.name, n.innerProtocol) n = n) rfl fun _ => rfl

theorem readSadValue_rename (x : CStr) (v : SrVal) (n : SadEntryNode) :
    readSadValue v (n.setName x) =
      (readSadValue v n).map (Stored.map (·.setName x)) := by
  rw [readSadValue, readSadValue]
  cases strrchr v.xpath 0x2f with
  | none => rfl
  | some name =>
    simp only [Option.bind_eq_bind, Option.bind_some]
    cases sadLeafOf name with
    | none => rfl
    | some leaf => exact sadStore_rename x _ _ n leaf

theorem readSpdValue_rename (x : CStr) (v : SrVal) (n : SpdEntryNode) :
    readSpdValue v (n.setName x) =
      (readSpdValue v n).map (Stored.map (·.setName x)) := by
  rw [readSpdValue, readSpdValue]
  cases strrchr v.xpath 0x2f with
  | none => rfl
  | some name =>
    simp only [Option.bind_eq_bind, Option.bind_some]
    cases spdLeafOf name with
    | none => rfl
    | some leaf => exact spdStore_rename x _ _ n leaf

theorem readSadEntry_rename (x : CStr) (it : SrChangeIter) (xpath : CStr) (n : SadEntryNode) :
    readSadEntry it xpath (n.setName x) =
      (readSadEntry it xpath n).map fun r => (r.1, r.2.1, r.2.2.setName x) := by
  rw [readSadEntry, readSadEntry]
  rcases srGetChangeNext it with ⟨e | c, it⟩
  · rfl
  · have h := readLoop_comm (f := fun m : SadEntryNode => m.setName x) (readSadValue_rename x) xpath c it n
    simp only [h]
    rcases readLoop readSadValue xpath c it n with _ | ⟨it, m | m⟩ <;> rfl

theorem readSpdEntry_rename (x : CStr) (it : SrChangeIter) (xpath : CStr) (n : SpdEntryNode) :
    readSpdEntry it xpath (n.setName x) =
      (readSpdEntry it xpath n).map fun r => (r.1, r.2.1, r.2.2.setName x) := by
  rw [readSpdEntry, readSpdEntry]
  rcases srGetChangeNext it with ⟨e | c, it⟩
  · rfl
  · have h := readLoop_comm (f := fun m : SpdEntryNode => m.setName x) (readSpdValue_rename x) xpath c it n
    simp only [h]
    rcases readLoop readSpdValue xpath c it n with _ | ⟨it, m | m⟩ <;> rfl

theorem readSadEntry_name {it it' : SrChangeIter} {xpath : CStr} {n m : SadEntryNode} {rc : Rc}
    (h : readSadEntry it xpath n = some (rc, it', m)) : m.name = n.name := by
  have hr := readSadEntry_rename n.name it xpath n
  rw [show n.setName n.name = n from rfl, h] at hr
  exact congrArg (fun r => r.2.2.name) (Option.some.inj hr)

theorem readSpdEntry_name {it it' : SrChangeIter} {xpath : CStr} {n m : SpdEntryNode} {rc : Rc}
    (h : readSpdEntry it xpath n = some (rc, it', m)) : m.name = n.name := by
  have hr := readSpdEntry_rename n.name it xpath n
  rw [show n.setName n.name = n from rfl, h] at hr
  exact congrArg (fun r => r.2.2.name) (Option.some.inj hr)

end CfgIpsec.Proof
