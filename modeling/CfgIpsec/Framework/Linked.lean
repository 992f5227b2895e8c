import Mathlib.Data.Finmap
import Mathlib.Data.List.Nodup

/-!
# Lists linked in memory

A heap holds cells at finitely many addresses, each with a value and a pointer
to the next cell. `Chain h p cs q` says that following the pointers from `p`
visits the cells `cs`, each once, and then comes to `q`. What is visited is
determined (`Seg.unique`) and depends on its own cells only (`Chain.congr`).
`Chain.append_cell`, `Chain.write_cell` and `Chain.remove_cell` say what the
writes do by which a cell is appended, changed and taken out; `Seg.find`,
`Seg.last`, `Seg.seek` and `Seg.values` what the walks come to; the lemmas on
`Heap.size` how many cells are allocated then.
-/

namespace CfgIpsec.Linked

abbrev Addr := Nat

/-- An address, or `NULL`. -/
abbrev Ptr := Option Addr

structure Cell (α : Type) where
  val : α
  next : Ptr
deriving DecidableEq

/-- What is allocated. -/
abbrev Heap (α : Type) := Finmap fun _ : Addr => Cell α

variable {α : Type}

namespace Heap

/-- `a->next = p`. -/
def setNext (h : Heap α) (a : Addr) (p : Ptr) : Option (Heap α) :=
  (h.lookup a).map fun c => h.insert a { c with next := p }

/-- The fields of the cell at `a` but its pointer are written. -/
def setVal (h : Heap α) (a : Addr) (x : α) : Option (Heap α) :=
  (h.lookup a).map fun c => h.insert a { c with val := x }

/-- `free(a)`. -/
def free (h : Heap α) (a : Addr) : Option (Heap α) :=
  if (h.lookup a).isSome then some (h.erase a) else none

theorem free_insert (h : Heap α) (a : Addr) (c : Cell α) :
    free (Finmap.insert a c h) a = some (Finmap.erase a (Finmap.insert a c h)) := by
  rw [free, Finmap.lookup_insert]; rfl

/-! Walks: each turn looks at another cell, so that a walk that ends has fewer
turns than `bound`. -/

/-- More than the number of cells. -/
def bound (h : Heap α) : Nat := h.keys.card + 1

/-- `while (node != NULL && !test(node)) node = node->next`. -/
def find (h : Heap α) (test : α → Bool) : Nat → Ptr → Option Ptr
  | 0, _ => none
  | _ + 1, none => some none
  | fuel + 1, some a => do
    let c ← h.lookup a
    if test c.val then pure (some a) else find h test fuel c.next

/-- `while (node->next != NULL) node = node->next`. -/
def last (h : Heap α) : Nat → Ptr → Option Addr
  | 0, _ => none
  | fuel + 1, node => do
    let a ← node
    let c ← h.lookup a
    match c.next with
    | none => pure a
    | some b => last h fuel (some b)

/-- `while (!test(node)) { prev = node; node = node->next; }`. -/
def seek (h : Heap α) (test : α → Bool) : Nat → Addr → Ptr → Option (Addr × Addr)
  | 0, _, _ => none
  | fuel + 1, prev, node => do
    let a ← node
    let c ← h.lookup a
    if test c.val then pure (prev, a) else seek h test fuel a c.next

/-- The values of the cells, up to `NULL`. -/
def values (h : Heap α) : Nat → Ptr → Option (List α)
  | 0, _ => none
  | _ + 1, none => some []
  | fuel + 1, some a => do
    let c ← h.lookup a
    let xs ← values h fuel c.next
    pure (c.val :: xs)

end Heap

/-- From `p` the pointers lead over the cells `cs` to `q`. -/
inductive Seg (h : Heap α) : Ptr → List (Addr × α) → Ptr → Prop
  | nil (p : Ptr) : Seg h p [] p
  | cons {a : Addr} {x : α} {p q : Ptr} {cs : List (Addr × α)} (hc : h.lookup a = some ⟨x, p⟩) (rest : Seg h p cs q) :
      Seg h (some a) ((a, x) :: cs) q

/-- From `p` the pointers lead over the cells `cs`, all different, to `q`. -/
structure Chain (h : Heap α) (p : Ptr) (cs : List (Addr × α)) (q : Ptr) : Prop where
  seg : Seg h p cs q
  nodup : (cs.map (·.1)).Nodup

variable {h h' : Heap α} {p q r : Ptr} {a b : Addr} {x y : α} {cs ds : List (Addr × α)}

/-! ## Segments -/

theorem seg_nil_iff : Seg h p [] q ↔ p = q :=
  ⟨fun | .nil _ => rfl, fun | rfl => .nil p⟩

theorem seg_cons_iff : Seg h p ((a, x) :: cs) q ↔ p = some a ∧ ∃ r, h.lookup a = some ⟨x, r⟩ ∧ Seg h r cs q := by
  constructor
  · rintro (_ | ⟨hc, rest⟩)
    exact ⟨rfl, _, hc, rest⟩
  · rintro ⟨rfl, r, hc, rest⟩
    exact .cons hc rest

theorem seg_append_iff : Seg h p (cs ++ ds) q ↔ ∃ r, Seg h p cs r ∧ Seg h r ds q := by
  induction cs generalizing p with
  | nil =>
    constructor
    · exact fun hd => ⟨p, .nil p, hd⟩
    · rintro ⟨r, hc, hd⟩
      rwa [seg_nil_iff.mp hc]
  | cons c cs ih =>
    obtain ⟨a, x⟩ := c
    rw [List.cons_append, seg_cons_iff]
    constructor
    · rintro ⟨rfl, r, hc, hs⟩
      obtain ⟨r', hcs, hds⟩ := ih.mp hs
      exact ⟨r', .cons hc hcs, hds⟩
    · rintro ⟨r', hcs, hds⟩
      obtain ⟨rfl, r, hc, hcs⟩ := seg_cons_iff.mp hcs
      exact ⟨rfl, r, hc, ih.mpr ⟨r', hcs, hds⟩⟩

/-- A segment that visits a cell starts at the first. -/
theorem Seg.start (hs : Seg h p ((a, x) :: cs) q) : p = some a := (seg_cons_iff.mp hs).1

theorem Seg.start_mem (hs : Seg h p cs q) (hne : cs ≠ []) : ∃ a ∈ cs.map (·.1), p = some a := by
  obtain ⟨⟨a, x⟩, cs, rfl⟩ := List.exists_cons_of_ne_nil hne
  exact ⟨a, List.mem_cons_self, hs.start⟩

theorem Seg.start_ne_none (hs : Seg h p cs q) (hne : cs ≠ []) : p ≠ none := by
  obtain ⟨a, -, rfl⟩ := hs.start_mem hne
  exact Option.some_ne_none a

theorem Seg.congr (hs : Seg h p cs q) (hh : ∀ a ∈ cs.map (·.1), h'.lookup a = h.lookup a) : Seg h' p cs q := by
  induction hs with
  | nil p => exact .nil p
  | cons hc rest ih =>
    rw [List.map_cons, List.forall_mem_cons] at hh
    exact .cons (hh.1.trans hc) (ih hh.2)

/-- What is visited in as many steps is the same. -/
theorem Seg.unique (hc : Seg h p cs q) (hd : Seg h p ds r) (hlen : cs.length = ds.length) : cs = ds ∧ q = r := by
  induction hc generalizing ds with
  | nil p =>
    obtain rfl := List.length_eq_zero_iff.mp hlen.symm
    exact ⟨rfl, seg_nil_iff.mp hd⟩
  | @cons a x p q cs hc rest ih =>
    obtain ⟨⟨b, y⟩, ds, rfl⟩ := List.exists_cons_of_length_eq_add_one hlen.symm
    obtain ⟨hab, r', hy, hd⟩ := seg_cons_iff.mp hd
    cases hab
    rw [hc] at hy
    cases hy
    obtain ⟨rfl, rfl⟩ := ih hd (Nat.succ_inj.mp hlen)
    exact ⟨rfl, rfl⟩

theorem Seg.mem (hs : Seg h p cs q) (ha : a ∈ cs.map (·.1)) : a ∈ h := by
  obtain ⟨⟨b, x⟩, hmem, rfl⟩ := List.mem_map.mp ha
  obtain ⟨pre, post, rfl⟩ := List.append_of_mem hmem
  obtain ⟨r, -, hs⟩ := seg_append_iff.mp hs
  obtain ⟨-, r', hc, -⟩ := seg_cons_iff.mp hs
  exact Finmap.mem_of_lookup_eq_some hc

/-! ## Chains -/

/-- A chain has no more cells than there are. -/
theorem Chain.length_lt (hc : Chain h p cs q) : cs.length < h.bound := by
  have hsub : (cs.map (·.1)).toFinset ⊆ h.keys := fun a ha =>
    Finmap.mem_keys.mpr (hc.seg.mem (List.mem_toFinset.mp ha))
  have hcard := Finset.card_le_card hsub
  rw [List.toFinset_card_of_nodup hc.nodup, List.length_map] at hcard
  exact Nat.lt_succ_of_le hcard

theorem Chain.congr (hc : Chain h p cs q) (hh : ∀ a ∈ cs.map (·.1), h'.lookup a = h.lookup a) : Chain h' p cs q :=
  ⟨hc.seg.congr hh, hc.nodup⟩

/-- What is written elsewhere leaves a chain as it is. -/
theorem Chain.insert (hc : Chain h p cs q) (ha : a ∉ cs.map (·.1)) (c : Cell α) : Chain (h.insert a c) p cs q :=
  hc.congr fun _ hb => Finmap.lookup_insert_of_ne h fun heq => ha (heq ▸ hb)

/-- What is freed elsewhere leaves a chain as it is. -/
theorem Chain.erase (hc : Chain h p cs q) (ha : a ∉ cs.map (·.1)) : Chain (h.erase a) p cs q :=
  hc.congr fun _ hb => Finmap.lookup_erase_ne fun heq => ha (heq ▸ hb)

/-- A cell that is not allocated is not in a chain. -/
theorem Chain.notMem (hc : Chain h p cs q) (ha : a ∉ h) : a ∉ cs.map (·.1) := fun hmem => ha (hc.seg.mem hmem)

/-- The cells of a chain before one, that one, and those after it. -/
theorem chain_append_cons_iff : Chain h p (cs ++ (a, x) :: ds) q ↔
    Chain h p cs (some a) ∧ (∃ r, h.lookup a = some ⟨x, r⟩ ∧ Chain h r ds q) ∧ a ∉ cs.map (·.1) ∧
      a ∉ ds.map (·.1) ∧ List.Disjoint (cs.map (·.1)) (ds.map (·.1)) := by
  constructor
  · rintro ⟨hs, hn⟩
    rw [List.map_append, List.map_cons, List.nodup_append', List.nodup_cons, List.disjoint_cons_right] at hn
    obtain ⟨hncs, ⟨hads, hnds⟩, hacs, hdis⟩ := hn
    obtain ⟨r, hcs, hs⟩ := seg_append_iff.mp hs
    obtain ⟨rfl, r', hc, hds⟩ := seg_cons_iff.mp hs
    exact ⟨⟨hcs, hncs⟩, ⟨r', hc, hds, hnds⟩, hacs, hads, hdis⟩
  · rintro ⟨hcs, ⟨r, hc, hds⟩, hacs, hads, hdis⟩
    refine ⟨seg_append_iff.mpr ⟨_, hcs.seg, .cons hc hds.seg⟩, ?_⟩
    rw [List.map_append, List.map_cons, List.nodup_append', List.nodup_cons, List.disjoint_cons_right]
    exact ⟨hcs.nodup, ⟨hads, hds.nodup⟩, hacs, hdis⟩

/-- A cell of a chain is written, and its pointer led to another chain. -/
theorem Chain.redirect (hc : Chain h p (cs ++ (a, x) :: ds) q) {es : List (Addr × α)} {t : Ptr}
    (he : Chain h r es t) (ha : a ∉ es.map (·.1)) (hdis : List.Disjoint (cs.map (·.1)) (es.map (·.1))) (y : α) :
    Chain (h.insert a ⟨y, r⟩) p (cs ++ (a, y) :: es) t := by
  obtain ⟨hcs, -, hacs, -, -⟩ := chain_append_cons_iff.mp hc
  exact chain_append_cons_iff.mpr
    ⟨hcs.insert hacs _, ⟨r, Finmap.lookup_insert h, he.insert ha _⟩, hacs, ha, hdis⟩

/-- Appending a cell to a chain. -/
theorem Chain.append_cell (hc : Chain h p (cs ++ [(a, x)]) q) (hb : h.lookup b = some ⟨y, r⟩)
    (hnew : b ∉ (cs ++ [(a, x)]).map (·.1)) :
    ∃ h', h.setNext a (some b) = some h' ∧ Chain h' p (cs ++ [(a, x)] ++ [(b, y)]) r ∧ h'.lookup b = some ⟨y, r⟩ := by
  obtain ⟨-, ⟨r', ha, -⟩, -, -, -⟩ := chain_append_cons_iff.mp hc
  rw [List.map_append, List.mem_append, not_or] at hnew
  obtain ⟨hbcs, hba⟩ := hnew
  have hne : b ≠ a := fun heq => hba (heq ▸ List.mem_singleton_self _)
  have hes : Chain h (some b) [(b, y)] r := ⟨.cons hb (.nil r), List.nodup_singleton b⟩
  refine ⟨h.insert a ⟨x, some b⟩, by rw [Heap.setNext, ha]; rfl, ?_, ?_⟩
  · rw [List.append_assoc]
    exact hc.redirect hes (by simpa using hne.symm) (by simpa using hbcs) x
  · rw [Finmap.lookup_insert_of_ne h hne, hb]

/-- Writing the value of a cell of a chain. -/
theorem Chain.write_cell (hc : Chain h p (cs ++ (a, x) :: ds) q) (y : α) :
    ∃ h', h.setVal a y = some h' ∧ Chain h' p (cs ++ (a, y) :: ds) q := by
  obtain ⟨-, ⟨r, ha, hds⟩, -, hads, hdis⟩ := chain_append_cons_iff.mp hc
  exact ⟨h.insert a ⟨y, r⟩, by rw [Heap.setVal, ha]; rfl, hc.redirect hds hads hdis y⟩

/-- Taking a cell out of a chain, past the one before it. -/
theorem Chain.remove_cell (hc : Chain h p (cs ++ (a, x) :: (b, y) :: ds) q) :
    ∃ r h₁ h₂, h.lookup b = some ⟨y, r⟩ ∧ h.setNext a r = some h₁ ∧ h₁.free b = some h₂ ∧
      Chain h₂ p (cs ++ (a, x) :: ds) q := by
  obtain ⟨-, ⟨r, ha, hb⟩, -, hab, hdis⟩ := chain_append_cons_iff.mp hc
  rw [← List.nil_append ((b, y) :: ds)] at hb
  obtain ⟨-, ⟨r', hbc, hds⟩, -, hbds, -⟩ := chain_append_cons_iff.mp hb
  rw [List.map_cons, List.mem_cons, not_or] at hab
  rw [List.map_cons, List.disjoint_cons_right] at hdis
  have hlookup : (h.insert a ⟨x, r'⟩).lookup b = some ⟨y, r'⟩ := by
    rw [Finmap.lookup_insert_of_ne h (Ne.symm hab.1), hbc]
  refine ⟨r', h.insert a ⟨x, r'⟩, (h.insert a ⟨x, r'⟩).erase b, hbc, by rw [Heap.setNext, ha]; rfl,
    by rw [Heap.free, hlookup]; rfl, ?_⟩
  refine (hc.redirect hds hab.2 hdis.2 x).erase ?_
  rw [List.map_append, List.map_cons, List.mem_append, List.mem_cons]
  rintro (h | h | h)
  · exact hdis.1 h
  · exact hab.1 h.symm
  · exact hbds h

/-! ## Walks -/

variable {test : α → Bool}

/-- What the search without an end test finds passes the test. -/
theorem Heap.test_of_seek {fuel : Nat} {prev b : Addr} (hs : h.seek test fuel prev p = some (b, a)) :
    ∃ c, h.lookup a = some c ∧ test c.val = true := by
  induction fuel generalizing prev p with
  | zero => cases hs
  | succ fuel ih =>
    rw [Heap.seek] at hs
    obtain ⟨a', -, hs⟩ := Option.bind_eq_some_iff.mp hs
    obtain ⟨c, hc, hs⟩ := Option.bind_eq_some_iff.mp hs
    by_cases hx : test c.val = true
    · rw [if_pos hx] at hs
      cases hs
      exact ⟨c, hc, hx⟩
    · rw [if_neg hx] at hs
      exact ih hs

theorem Seg.find (hs : Seg h p cs none) {fuel : Nat} (hf : cs.length < fuel) :
    h.find test fuel p = some ((cs.find? fun c => test c.2).map (·.1)) := by
  induction cs generalizing p fuel with
  | nil =>
    obtain ⟨fuel, rfl⟩ := Nat.exists_eq_add_one_of_ne_zero (Nat.ne_zero_of_lt hf)
    obtain rfl := seg_nil_iff.mp hs
    rfl
  | cons c cs ih =>
    obtain ⟨a, x⟩ := c
    obtain ⟨fuel, rfl⟩ := Nat.exists_eq_add_one_of_ne_zero (Nat.ne_zero_of_lt hf)
    obtain ⟨rfl, r, hc, hs⟩ := seg_cons_iff.mp hs
    rw [Heap.find, hc, List.find?_cons]
    by_cases hx : test x = true
    · simp [hx]
    · simpa [hx] using ih hs (Nat.lt_of_succ_lt_succ hf)

theorem Seg.last (hs : Seg h p (cs ++ [(a, x)]) none) {fuel : Nat} (hf : cs.length < fuel) :
    h.last fuel p = some a := by
  induction cs generalizing p fuel with
  | nil =>
    obtain ⟨fuel, rfl⟩ := Nat.exists_eq_add_one_of_ne_zero (Nat.ne_zero_of_lt hf)
    obtain ⟨rfl, r, hc, hs⟩ := seg_cons_iff.mp hs
    obtain rfl := seg_nil_iff.mp hs
    simp [Heap.last, hc]
  | cons c cs ih =>
    obtain ⟨b, y⟩ := c
    obtain ⟨fuel, rfl⟩ := Nat.exists_eq_add_one_of_ne_zero (Nat.ne_zero_of_lt hf)
    obtain ⟨rfl, r, hc, hs⟩ := seg_cons_iff.mp hs
    have hrest := ih hs (Nat.lt_of_succ_lt_succ hf)
    obtain ⟨b', rfl⟩ := Option.ne_none_iff_exists'.mp (hs.start_ne_none (by simp))
    simpa [Heap.last, hc] using hrest

/-- The search without an end test finds the first cell that passes, and the
one before it. -/
theorem Seg.seek (hs : Seg h p (cs ++ (a, x) :: ds) q) (hx : test x = true) (hcs : ∀ c ∈ cs, test c.2 = false)
    {fuel : Nat} (hf : cs.length < fuel) (prev : Addr) :
    h.seek test fuel prev p = some ((cs.map (·.1)).getLastD prev, a) := by
  induction cs generalizing p fuel prev with
  | nil =>
    obtain ⟨fuel, rfl⟩ := Nat.exists_eq_add_one_of_ne_zero (Nat.ne_zero_of_lt hf)
    obtain ⟨rfl, r, hc, hs⟩ := seg_cons_iff.mp hs
    simp [Heap.seek, hc, hx]
  | cons c cs ih =>
    obtain ⟨b, y⟩ := c
    obtain ⟨fuel, rfl⟩ := Nat.exists_eq_add_one_of_ne_zero (Nat.ne_zero_of_lt hf)
    obtain ⟨rfl, r, hc, hs⟩ := seg_cons_iff.mp hs
    obtain ⟨hy, hcs⟩ := List.forall_mem_cons.mp hcs
    rw [Heap.seek, List.map_cons, List.getLastD_cons, ← ih hs hcs (Nat.lt_of_succ_lt_succ hf) b]
    simp [hc, hy]

theorem Seg.values (hs : Seg h p cs none) {fuel : Nat} (hf : cs.length < fuel) :
    h.values fuel p = some (cs.map (·.2)) := by
  induction cs generalizing p fuel with
  | nil =>
    obtain ⟨fuel, rfl⟩ := Nat.exists_eq_add_one_of_ne_zero (Nat.ne_zero_of_lt hf)
    obtain rfl := seg_nil_iff.mp hs
    rfl
  | cons c cs ih =>
    obtain ⟨a, x⟩ := c
    obtain ⟨fuel, rfl⟩ := Nat.exists_eq_add_one_of_ne_zero (Nat.ne_zero_of_lt hf)
    obtain ⟨rfl, r, hc, hs⟩ := seg_cons_iff.mp hs
    rw [Heap.values, hc]
    simp [ih hs (Nat.lt_of_succ_lt_succ hf)]

/-! ## What is allocated -/

/-- How many cells are allocated. -/
def Heap.size (h : Heap α) : Nat := h.keys.card

/-- Writing to a cell, its pointer or its value, allocates and frees nothing. -/
theorem Heap.size_write (ha : a ∈ h) (c : Cell α) : Heap.size (h.insert a c) = h.size := by
  have hkeys : (h.insert a c).keys = h.keys := by
    ext b
    rw [Finmap.mem_keys, Finmap.mem_keys, Finmap.mem_insert, or_iff_right_iff_imp]
    rintro rfl
    exact ha
  rw [Heap.size, hkeys, Heap.size]

theorem Heap.size_setNext (hs : h.setNext a p = some h') : h'.size = h.size := by
  obtain ⟨c, hc, rfl⟩ := Option.map_eq_some_iff.mp hs
  exact Heap.size_write (Finmap.mem_of_lookup_eq_some hc) _

theorem Heap.size_setVal (hs : h.setVal a x = some h') : h'.size = h.size := by
  obtain ⟨c, hc, rfl⟩ := Option.map_eq_some_iff.mp hs
  exact Heap.size_write (Finmap.mem_of_lookup_eq_some hc) _

/-- A new cell. -/
theorem Heap.size_insert (ha : a ∉ h) (c : Cell α) : Heap.size (h.insert a c) = h.size + 1 := by
  have hkeys : (h.insert a c).keys = Insert.insert a h.keys := by
    ext b
    simp [Finmap.mem_keys, Finmap.mem_insert, eq_comm]
  rw [Heap.size, hkeys, Finset.card_insert_of_notMem (Finmap.mem_keys.not.mpr ha), Heap.size]

theorem Heap.size_free (hs : h.free a = some h') : h'.size + 1 = h.size := by
  rw [Heap.free] at hs
  split at hs
  · rename_i ha
    cases hs
    rw [Heap.size, Finmap.keys_erase, Heap.size]
    exact Finset.card_erase_add_one (Finmap.mem_keys.mpr (Finmap.lookup_isSome.mp ha))
  · cases hs

end CfgIpsec.Linked
