import CfgIpsec.Proof.Entries
import CfgIpsec.Proof.SadLedger
import CfgIpsec.Proof.SpdLedger
import CfgIpsec.Spec.Memory

/-!
# The lists in memory and their entries

What the calls do in memory they do to the list of entries: `addNode_spec` and
`delMemNode_spec` are what appending and removing a node make of a chain. A
SAD node is created with `next` set to `NULL`, so the SAD list always ends
there (`sad_chain`); `next` of an SPD node is as `malloc` left it, and is only
set when the node becomes the first (`spd_chain`).
-/

namespace CfgIpsec.Proof

open Impl Spec Linked Run
open CStr (lit)

section Generic

variable {α : Type} {name : α → CStr} {create : Malloc α → Cell α} {m : MemStore α} {a : Addr} {x : CStr} {n : α}
  {q : Ptr} {cs ds : List (Addr × α)}

/-! ## The functions on nodes -/

theorem createNode_eq_some_iff {b : Malloc α} {m' : MemStore α} :
    createNode create b m = some m' ↔ b.addr ∉ m.heap ∧ m' = { m with heap := m.heap.insert b.addr (create b) } := by
  rw [createNode, ← Finmap.lookup_isSome]
  split
  · rename_i h; simp [h]
  · rename_i h; simp [h, eq_comm]

/-- Writing the fields of a node of the list. -/
theorem writeNode_spec (hc : Chain m.heap m.init (cs ++ (a, n) :: ds) q) (n' : α) :
    ∃ m', writeNode a n' m = some m' ∧ Chain m'.heap m'.init (cs ++ (a, n') :: ds) q ∧ m'.sent = m.sent := by
  obtain ⟨h', hset, hc'⟩ := hc.write_cell n'
  exact ⟨{ m with heap := h' }, by rw [writeNode, hset]; rfl, hc', rfl⟩

/-- Writing the fields of a node allocates nothing. -/
theorem writeNode_mem {m' : MemStore α} {b : Addr} (h : writeNode a n m = some m') : b ∈ m'.heap ↔ b ∈ m.heap := by
  obtain ⟨h', hset, rfl⟩ := Option.map_eq_some_iff.mp h
  obtain ⟨c, hc, rfl⟩ := Option.map_eq_some_iff.mp hset
  rw [Finmap.mem_insert, or_iff_right_iff_imp]
  rintro rfl
  exact Finmap.mem_of_lookup_eq_some hc

/-- A node that is appended ends the list, unless it is the first, with what its
`next` was. -/
theorem addNode_spec (hc : Chain m.heap m.init cs none) (ha : a ∉ cs.map (·.1)) (hn : m.heap.lookup a = some ⟨n, q⟩) :
    ∃ m', addNode a m = some m' ∧ Chain m'.heap m'.init (cs ++ [(a, n)]) (if cs = [] then none else q) ∧
      m'.sent = m.sent := by
  rw [addNode]
  rcases List.eq_nil_or_concat cs with rfl | ⟨cs, ⟨b, x⟩, rfl⟩
  · have hinit : m.init = none := seg_nil_iff.mp hc.seg
    rw [if_pos hinit, Heap.setNext, hn]
    refine ⟨_, rfl, ⟨.cons (Finmap.lookup_insert m.heap) (.nil none), List.nodup_singleton a⟩, rfl⟩
  · rw [List.concat_eq_append] at hc ha ⊢
    have hinit : m.init ≠ none := hc.seg.start_ne_none (by simp)
    have hlen := hc.length_lt
    rw [List.length_append] at hlen
    obtain ⟨h', hset, hc', -⟩ := hc.append_cell hn ha
    rw [if_neg hinit, hc.seg.last (Nat.lt_of_succ_lt hlen)]
    exact ⟨{ m with heap := h' }, by simp [hset], by simpa using hc', rfl⟩

/-- The first node of the name is taken out. -/
theorem delMemNode_spec (name : α → CStr) (create : Malloc α → Cell α)
    (hc : Chain m.heap m.init (cs ++ (a, n) :: ds) none) (hx : name n = x)
    (hcs : ∀ c ∈ cs, name c.2 ≠ x) {b : Malloc α} (hb : b.addr ∉ m.heap) :
    ∃ m', delMemNode name create b x m = some (.ok (), m') ∧ Chain m'.heap m'.init (cs ++ ds) none ∧
      m'.sent = m.sent := by
  have hinit : m.init ≠ none := hc.seg.start_ne_none (by simp)
  have hnew : b.addr ∉ (cs ++ (a, n) :: ds).map (·.1) := hc.notMem hb
  have hc₁ : Chain (m.heap.insert b.addr (create b)) m.init (cs ++ (a, n) :: ds) none := hc.insert hnew _
  have hlen := hc₁.length_lt
  rw [List.length_append] at hlen
  have hseek : Heap.seek (m.heap.insert b.addr (create b)) (fun n => decide (name n = x))
      (Heap.bound (m.heap.insert b.addr (create b))) b.addr m.init = some ((cs.map (·.1)).getLastD b.addr, a) :=
    hc₁.seg.seek (decide_eq_true hx) (fun c hcm => decide_eq_false (hcs c hcm)) (Nat.lt_of_add_right_lt hlen) b.addr
  rw [delMemNode, if_neg hinit, createNode_eq_some_iff.mpr ⟨hb, rfl⟩]
  simp only [Option.bind_eq_bind, Option.bind_some, hseek]
  rcases List.eq_nil_or_concat cs with rfl | ⟨cs, ⟨a', n'⟩, rfl⟩
  · -- The node before the first is the new one.
    obtain ⟨hstart, r, hlook, hds⟩ := seg_cons_iff.mp hc₁.seg
    rw [hlook, Option.bind_some, if_pos hstart]
    simp only [List.map_nil, List.getLastD_nil, Heap.free_insert, Option.bind_some]
    refine ⟨_, rfl, ?_, rfl⟩
    rw [List.nil_append, List.map_cons, List.mem_cons, not_or] at hnew
    exact Chain.erase ⟨hds, (List.nodup_cons.mp (List.map_cons ▸ hc.nodup)).2⟩ hnew.2
  · rw [List.concat_eq_append] at hc₁ ⊢
    have hne : m.init ≠ some a := by
      obtain ⟨hbefore, -, ha, -⟩ := chain_append_cons_iff.mp hc₁
      obtain ⟨f, hf, hstart⟩ := hbefore.seg.start_mem (by simp)
      rw [hstart]
      rintro ⟨rfl⟩
      exact ha hf
    rw [List.append_assoc, List.singleton_append] at hc₁
    obtain ⟨r, h₁, h₂, hlook, hset, hfree, hc₂⟩ := hc₁.remove_cell
    rw [hlook, Option.bind_some, if_neg hne, if_pos hx]
    simp only [List.map_append, List.map_cons, List.map_nil, List.getLastD_concat, hset, hfree, Option.bind_some]
    exact ⟨_, rfl, by simpa using hc₂, rfl⟩

/-- A node that is created and written is not in the list, until it is added:
then it ends the list, unless it is the first, with what its `next` was. -/
theorem newNode_spec (create : Malloc α → Cell α) (hc : Chain m.heap m.init cs none) {b : Malloc α}
    (hb : b.addr ∉ m.heap) (n : α) :
    ∃ m₁ m₂, createNode create b m = some m₁ ∧ writeNode b.addr n m₁ = some m₂ ∧
      Chain m₂.heap m₂.init cs none ∧ m₂.sent = m.sent ∧
      ∃ m₃, addNode b.addr m₂ = some m₃ ∧
        Chain m₃.heap m₃.init (cs ++ [(b.addr, n)]) (if cs = [] then none else (create b).next) ∧
        m₃.sent = m.sent := by
  have hnew := hc.notMem hb
  have hset : Heap.setVal (m.heap.insert b.addr (create b)) b.addr n =
      some ((m.heap.insert b.addr (create b)).insert b.addr ⟨n, (create b).next⟩) := by
    rw [Heap.setVal, Finmap.lookup_insert]; rfl
  have hc₂ : Chain ((m.heap.insert b.addr (create b)).insert b.addr ⟨n, (create b).next⟩) m.init cs none :=
    (hc.insert hnew _).insert hnew _
  refine ⟨_, ⟨_, m.init, m.sent⟩, createNode_eq_some_iff.mpr ⟨hb, rfl⟩, by rw [writeNode, hset]; rfl, hc₂, rfl, ?_⟩
  exact addNode_spec (m := ⟨_, m.init, m.sent⟩) hc₂ hnew (Finmap.lookup_insert _)

/-! ## Walks -/

variable {s : Store α}

theorem represents_start : Represents (.start : MemStore α) emptyStore :=
  ⟨⟨[], ⟨.nil none, List.nodup_nil⟩, rfl⟩, rfl⟩

/-- The nodes that follow one another lead to `NULL` only if what follows them
is `NULL`. -/
theorem representsTo_iff (h : RepresentsTo q m s) : Represents m s ↔ q = none := by
  constructor
  · intro hn
    obtain ⟨cs, hc, hcs⟩ := h.chain
    obtain ⟨ds, hd, hds⟩ := hn.chain
    have hlen : cs.length = ds.length := by
      rw [← List.length_map (f := (·.2)), hcs, ← hds, List.length_map]
    exact (hc.seg.unique hd.seg hlen).2
  · rintro rfl
    exact h

/-- Where a name is looked up, in memory and in the list of entries. -/
theorem getNodePtr_cases (name : α → CStr) (h : Represents m s) (x : CStr) :
    (getNode name s.entries x = none ∧ getNodePtr name m x = some none) ∨
    ∃ cs a n ds, getNode name s.entries x = some n ∧ getNodePtr name m x = some (some a) ∧
      Chain m.heap m.init (cs ++ (a, n) :: ds) none ∧ s.entries = cs.map (·.2) ++ n :: ds.map (·.2) ∧
      name n = x ∧ ∀ c ∈ cs, name c.2 ≠ x := by
  obtain ⟨cs, hc, hcs⟩ := h.chain
  have hptr : getNodePtr name m x = some ((cs.find? fun c => decide (name c.2 = x)).map (·.1)) :=
    hc.seg.find hc.length_lt
  have hget : getNode name s.entries x = (cs.find? fun c => decide (name c.2 = x)).map (·.2) := by
    rw [getNode, ← hcs, List.find?_map]; rfl
  rw [hptr, hget]
  cases hfind : cs.find? fun c => decide (name c.2 = x) with
  | none => exact .inl ⟨rfl, rfl⟩
  | some c =>
    obtain ⟨a, n⟩ := c
    obtain ⟨hx, pre, post, rfl, hpre⟩ := List.find?_eq_some_iff_append.mp hfind
    refine .inr ⟨pre, a, n, post, rfl, rfl, hc, ?_, of_decide_eq_true hx, ?_⟩
    · rw [← hcs, List.map_append, List.map_cons]
    · simpa using hpre

/-- The walks over a list see its entries. -/
theorem walkable_of_represents (h : Represents m s) : Walkable m s.entries := by
  obtain ⟨cs, hc, hcs⟩ := h.chain
  refine ⟨?_, fun test => ⟨_, hc.seg.find hc.length_lt, ?_⟩⟩
  · rw [showList, hc.seg.values hc.length_lt, hcs]
  · have hmap : s.entries.find? test = (cs.find? fun c => test c.2).map (·.2) := by
      rw [← hcs, List.find?_map]; rfl
    rw [hmap]
    cases hfind : cs.find? fun c => test c.2 with
    | none => rfl
    | some c =>
      obtain ⟨a, n⟩ := c
      obtain ⟨-, pre, post, rfl, -⟩ := List.find?_eq_some_iff_append.mp hfind
      obtain ⟨-, ⟨r, hlook, -⟩, -⟩ := chain_append_cons_iff.mp hc
      simp [hlook]

/-- A call shows the list of its entries and goes on. -/
theorem shown_of_represents (h : Represents m s) : shown m = some m := by
  rw [shown, (walkable_of_represents h).shows]; rfl

/-- Nothing changes while the list is shown. -/
theorem shown_eq {m' : MemStore α} (h : shown m = some m') : m' = m := by
  obtain ⟨ns, -, hm⟩ := Option.map_eq_some_iff.mp h
  exact hm.symm

/-- `del_sad_node` and `del_spd_node` create a node, unless the list is empty. -/
theorem delMemNode_fresh {b : Malloc α} {r : Rc × MemStore α} (h : delMemNode name create b x m = some r)
    (hinit : m.init ≠ none) : b.addr ∉ m.heap := by
  rw [delMemNode, if_neg hinit] at h
  obtain ⟨m', hm', -⟩ := Option.bind_eq_some_iff.mp h
  exact (createNode_eq_some_iff.mp hm').1

theorem rel_map {β γ δ : Type} {f : α → γ} {g : β → δ} {R : α → β → Prop} {R' : γ → δ → Prop}
    (hR : ∀ {a b}, R a b → R' (f a) (g b)) {o : Option α} {o' : Option β} (h : Option.Rel R o o') :
    Option.Rel R' (o.map f) (o'.map g) := by
  cases h with
  | none => exact .none
  | some h => exact .some (hR h)

end Generic

/-! ## The SAD list -/

section Sad

variable {m : MemStore SadEntryNode} {s : Store SadEntryNode}

/-- What a call of `addSAD_entry` does to the list in memory it does to the
entries: the node it appends was created with `next` set to `NULL`. -/
theorem addSadMem_rel (h : Represents m s) {e : AddSadMem} (he : e.addr ∉ m.heap) (it : SrChangeIter)
    (xpath x : CStr) :
    Option.Rel (fun r r' => r.1 = r'.1 ∧ r.2.1 = r'.2.1 ∧ Represents r.2.2 r'.2.2)
      (addSadMem e m it xpath x) (addSadEntry e.toAddSadEnv s it xpath x) := by
  obtain ⟨cs, hc, hcs⟩ := h.chain
  rw [addSadMem, addSadEntry]
  cases hread : readSadEntry it xpath ((createSadNode e.node).setName x) with
  | none => cases createNode createSadCell ⟨e.addr, e.node, e.next⟩ m <;> exact .none
  | some r =>
    obtain ⟨rc, it', node⟩ := r
    obtain ⟨m₁, m₂, hnew, hwrite, hc₂, hsent₂, m₃, hadd, hc₃, hsent₃⟩ :=
      newNode_spec createSadCell hc (b := ⟨e.addr, e.node, e.next⟩) he node
    simp only [hnew, hwrite, Option.bind_eq_bind, Option.bind_some]
    cases rc with
    | error err => exact .some ⟨rfl, rfl, ⟨cs, hc₂, hcs⟩, hsent₂.trans h.sent⟩
    | ok u =>
      obtain ⟨-, ⟨r, hlook, -⟩, -⟩ := chain_append_cons_iff.mp hc₃
      simp only [hadd, hlook, Option.bind_some]
      cases pfAddsad e.add node with
      | none => exact .none
      | some add =>
        cases pfGetsad e.get node with
        | none => exact .none
        | some get =>
          have hrep : Represents (m₃.send [add, get])
              (Store.send { s with entries := s.entries ++ [node] } [add, get]) := by
            refine ⟨⟨cs ++ [(e.addr, node)], ?_, ?_⟩, ?_⟩
            · rwa [createSadCell, ite_self] at hc₃
            · rw [List.map_append, hcs]; rfl
            · rw [MemStore.send, hsent₃, h.sent]; rfl
          simp only [shown_of_represents hrep, Option.bind_some]
          exact .some ⟨rfl, rfl, hrep⟩

/-- What a call of `removeSAD_entry` does to the list in memory it does to the
entries. -/
theorem removeSadMem_rel (h : Represents m s) (e : RemoveSadEnv) {b : Malloc SadEntryNode} (hb : b.addr ∉ m.heap)
    (x : CStr) :
    Option.Rel (fun r r' => r.1 = r'.1 ∧ Represents r.2 r'.2) (removeSadMem e b m x) (removeSadEntry e s x) := by
  rw [removeSadMem, removeSadEntry, getSadNode]
  rcases getNodePtr_cases (·.name) h x with
    ⟨hget, hptr⟩ | ⟨cs, a, n, ds, hget, hptr, hc, hs, hx, hcs⟩
  · simp only [hget, hptr, shown_of_represents h, Option.bind_eq_bind, Option.bind_some]
    exact .some ⟨rfl, h⟩
  · obtain ⟨-, ⟨r, hlook, -⟩, -⟩ := chain_append_cons_iff.mp hc
    simp only [hget, hptr, hlook, Option.bind_eq_bind, Option.bind_some]
    cases pfGetsad e.get n with
    | none => exact .none
    | some get =>
      cases pfDelsad e.del n with
      | none => exact .none
      | some del =>
        obtain ⟨m', hdel, hc', hsent⟩ := delMemNode_spec (·.name) createSadCell
          (m := m.send [get, del]) hc hx hcs hb
        have hdelEntry : delSadNode x s.entries = some (.ok (), cs.map (·.2) ++ ds.map (·.2)) :=
          hs ▸ delEntry_eq hx (List.forall_mem_map.mpr hcs)
        have hrep : Represents m' ⟨cs.map (·.2) ++ ds.map (·.2), s.sent ++ [get, del]⟩ :=
          ⟨⟨cs ++ ds, hc', List.map_append⟩, by rw [hsent, MemStore.send, h.sent]⟩
        simp only [Option.bind_some, hdel, Store.send, hdelEntry, shown_of_represents hrep]
        exact .some ⟨rfl, hrep⟩

/-- Every request can be made for the entries: `pf_getsad` was. -/
def Requestable (s : Store SadEntryNode) : Prop := ∀ n ∈ s.entries, SadRemovable n

theorem requestable_step {s' : Store SadEntryNode} {op : SadOp} (h : Requestable s) (hs : op.step s = some s') :
    Requestable s' := by
  cases op with
  | add e it xpath x =>
    obtain ⟨⟨rc, it', s₁⟩, hadd, rfl⟩ := Option.map_eq_some_iff.mp hs
    rcases addSadEntry_cases hadd with ⟨-, -, -, -, rfl⟩ | ⟨node, add, get, -, -, hget, -, rfl⟩
    · exact h
    · exact List.forall_mem_append.mpr
        ⟨h, List.forall_mem_singleton.mpr (sadRequest_isSome_iff.mp (Option.isSome_of_eq_some hget))⟩
  | remove e x =>
    obtain ⟨⟨rc, s₁⟩, hrem, rfl⟩ := Option.map_eq_some_iff.mp hs
    rcases removeSadEntry_cases hrem with ⟨-, -, rfl⟩ | ⟨pre, n, post, get, del, -, he, -, -, -, -, -, rfl⟩
    · exact h
    · rw [Requestable, he, List.forall_mem_append, List.forall_mem_cons] at h
      exact List.forall_mem_append.mpr ⟨h.1, h.2.2⟩

/-- A call with a new block ends alike in memory and on the list of entries. -/
theorem sadMemOp_rel (h : Represents m s) {op : SadMemOp} (ho : op.addr ∉ m.heap) :
    Option.Rel Represents (op.step m) (op.op.step s) := by
  cases op with
  | add e it xpath x => exact rel_map (fun h => h.2.2) (addSadMem_rel h ho it xpath x)
  | remove e b x => exact rel_map (fun h => h.2) (removeSadMem_rel h e ho x)

/-- Only a call that creates no node returns when `malloc` has no new block for
it, and it changes nothing. -/
theorem sadMemOp_inUse (h : Represents m s) {op : SadMemOp} (ho : op.addr ∈ m.heap) {m' : MemStore SadEntryNode}
    (hs : op.step m = some m') : m' = m ∧ op.op.step s = some s := by
  cases op with
  | add e it xpath x =>
    obtain ⟨r, hr, -⟩ := Option.map_eq_some_iff.mp hs
    rw [addSadMem] at hr
    obtain ⟨m₁, hm₁, -⟩ := Option.bind_eq_some_iff.mp hr
    exact absurd ho (createNode_eq_some_iff.mp hm₁).1
  | remove e b x =>
    obtain ⟨r, hr, rfl⟩ := Option.map_eq_some_iff.mp hs
    rw [removeSadMem] at hr
    rcases getNodePtr_cases (·.name) h x with ⟨hget, hptr⟩ | ⟨cs, a, n, ds, -, hptr, hc, -⟩
    · simp only [hptr, shown_of_represents h, Option.bind_eq_bind, Option.bind_some] at hr
      cases hr
      exact ⟨rfl, by rw [SadMemOp.op, SadOp.step, removeSadEntry, getSadNode, hget]; rfl⟩
    · simp only [hptr, Option.bind_eq_bind, Option.bind_some] at hr
      obtain ⟨c, -, hr⟩ := Option.bind_eq_some_iff.mp hr
      obtain ⟨get, -, hr⟩ := Option.bind_eq_some_iff.mp hr
      obtain ⟨del, -, hr⟩ := Option.bind_eq_some_iff.mp hr
      obtain ⟨r', hr', -⟩ := Option.bind_eq_some_iff.mp hr
      exact absurd ho (delMemNode_fresh (m := m.send [get, del]) hr' (hc.seg.start_ne_none (by simp)))

/-- Every call in memory that returns does to the entries what the call on
their list does. -/
theorem sadMemOp_follows (h : Represents m s) {op : SadMemOp} {m' : MemStore SadEntryNode}
    (hs : op.step m = some m') : ∃ s', op.op.step s = some s' ∧ Represents m' s' := by
  by_cases ho : op.addr ∈ m.heap
  · obtain ⟨rfl, hl⟩ := sadMemOp_inUse h ho hs
    exact ⟨s, hl, h⟩
  · have hrel := sadMemOp_rel h ho
    rw [hs] at hrel
    generalize op.op.step s = o at hrel ⊢
    cases hrel with
    | some h => exact ⟨_, rfl, h⟩

/-- Removing takes out the first entry of the name. -/
theorem removesFirst (h : Represents m s) (hq : Requestable s) (x : CStr) : RemovesFirst m s x := by
  refine ⟨fun hx e b => ?_, fun hx e b hb => ?_⟩
  · have hget : getNode (·.name) s.entries x = none := getNode_eq_none_iff.mpr hx
    rcases getNodePtr_cases (·.name) h x with ⟨-, hptr⟩ | ⟨_, _, _, _, hget', _⟩
    · simp only [removeSadMem, hptr, shown_of_represents h, Option.bind_eq_bind, Option.bind_some]
      rfl
    · rw [hget] at hget'; cases hget'
  · obtain ⟨n, hn⟩ := Option.ne_none_iff_exists'.mp (fun hnone => by
      obtain ⟨n, hmem, hnx⟩ := hx
      exact getNode_eq_none_iff.mp hnone n hmem hnx : getSadNode s.entries x ≠ none)
    obtain ⟨pre, post, hs, hnx, hpre⟩ := getNode_eq_some_iff.mp hn
    have hmem : n ∈ s.entries := hs ▸ List.mem_append_right pre List.mem_cons_self
    obtain ⟨get, hget⟩ := Option.isSome_iff_exists.mp (sadRequest_isSome_iff.mpr (hq n hmem))
    obtain ⟨del, hdel⟩ := Option.isSome_iff_exists.mp (sadRequest_isSome_iff.mpr (hq n hmem))
    have hrel := removeSadMem_rel h e hb x
    rw [removeSadEntry_eq hs hnx hpre hget hdel] at hrel
    generalize hr : removeSadMem e b m x = o at hrel
    cases hrel with
    | @some r _ hrep =>
      obtain ⟨rc, m'⟩ := r
      obtain ⟨rfl, hrep⟩ := hrep
      exact ⟨pre, n, post, [get, del], m', hs, hnx, hpre, rfl, hrep⟩

/-- In every run of additions and removals the SAD list in memory is well
formed, every call with a new block does to it what is done to its entries, and
a removal takes out the first entry of its name. -/
theorem sad_chain {ops : List SadMemOp} {m : MemStore SadEntryNode} (h : run SadMemOp.step ops .start = some m) :
    ∃ s, run SadOp.step (ops.map SadMemOp.op) emptyStore = some s ∧ Represents m s ∧ Walkable m s.entries ∧
      (∀ op : SadMemOp, op.addr ∉ m.heap → Option.Rel Represents (op.step m) (op.op.step s)) ∧
      ∀ x, RemovesFirst m s x := by
  obtain ⟨s, hs, hm, hq⟩ := run_follows (R := fun m s => Represents m s ∧ Requestable s) (fun hR hstep => by
    obtain ⟨s', hs', hm'⟩ := sadMemOp_follows hR.1 hstep
    exact ⟨s', hs', hm', requestable_step hR.2 hs'⟩) ⟨represents_start, by simp [Requestable, emptyStore]⟩ h
  exact ⟨s, hs, hm, walkable_of_represents hm, fun op ho => sadMemOp_rel hm ho, removesFirst hm hq⟩

/-- An addition with a block at `addr`. -/
def addSadAt (addr : Addr) (name : CStr) (entry : List Setting) : SadMemOp :=
  .add ⟨⟨default, ⟨1, 0, 0⟩, ⟨1, 0, 0⟩⟩, addr, some 7⟩ (sadBlock name entry) (sadEntryXpath name) name

/-- Two entries of one name, and the removal of the first. -/
theorem sad_chain_gw :
    ∃ m s n, run SadMemOp.step [addSadAt 1 (lit "gw") addSadPrefixes,
        addSadAt 2 (lit "gw") (addSadPrefixes ++ addSadTunnel),
        .remove ⟨⟨1, 0, 0⟩, ⟨1, 0, 0⟩⟩ ⟨3, default, some 7⟩ (lit "gw")] .start = some m ∧
      showList m = some [n] ∧ n.ipsecMode = IPSEC_MODE_TUNNEL ∧ Represents m s ∧ RemovesFirst m s (lit "gw") := by
  have hrun : (run SadMemOp.step [addSadAt 1 (lit "gw") addSadPrefixes,
      addSadAt 2 (lit "gw") (addSadPrefixes ++ addSadTunnel),
      .remove ⟨⟨1, 0, 0⟩, ⟨1, 0, 0⟩⟩ ⟨3, default, some 7⟩ (lit "gw")] .start).any (fun m =>
        (showList m).any fun ns => ns.length = 1 ∧ ns.all (fun n => n.ipsecMode = IPSEC_MODE_TUNNEL)) = true := by
    decide +kernel
  obtain ⟨m, hm, h⟩ := (Option.any_eq_true _ _).mp hrun
  obtain ⟨ns, hns, h⟩ := (Option.any_eq_true _ _).mp h
  obtain ⟨hlen, hall⟩ := of_decide_eq_true h
  obtain ⟨n, rfl⟩ := List.length_eq_one_iff.mp hlen
  obtain ⟨s, -, hrep, -, -, hfirst⟩ := sad_chain hm
  exact ⟨m, s, n, hm, hns, by simpa using hall, hrep, hfirst (lit "gw")⟩

end Sad

/-! ## The SPD list -/

section Spd

variable {m : MemStore SpdEntryNode} {s : Store SpdEntryNode}

/-- What a call of `addSPD_entry` does to the list in memory it does to the
entries, but that what `malloc` left in `next` of the node it appends may
follow. It returns when the list can be shown then. -/
theorem addSpdMem_spec (h : Represents m s) {e : AddSpdMem} (he : e.addr ∉ m.heap) {it : SrChangeIter}
    {xpath x : CStr} :
    (addSpdMem e m it xpath x = none ∧ addSpdEntry e.toAddSpdEnv s it xpath x = none) ∨
    ∃ rc it' m' s' q, addSpdEntry e.toAddSpdEnv s it xpath x = some (rc, it', s') ∧ RepresentsTo q m' s' ∧
      (q = none ↔ SpdMemOp.NullNext (m, s) (.add e it xpath x)) ∧
      addSpdMem e m it xpath x = (shown m').map fun m' => (rc, it', m') := by
  obtain ⟨cs, hc, hcs⟩ := h.chain
  rcases getNodePtr_cases (·.name) h x with ⟨hget, hptr⟩ | ⟨_, _, n, _, hget, hptr, _⟩
  · have hget' : getSpdNode s.entries x = none := hget
    cases hread : readSpdEntry it xpath ((createSpdNode e.node).setName x) with
    | none =>
      refine .inl ⟨?_, ?_⟩
      · rw [addSpdMem, hptr]
        cases hnew : createNode createSpdCell ⟨e.addr, e.node, e.next⟩ m <;> simp [hread]
      · simp [addSpdEntry, hget', hread]
    | some r =>
      obtain ⟨rc, it', node⟩ := r
      obtain ⟨m₁, m₂, hnew, hwrite, hc₂, hsent₂, m₃, hadd, hc₃, hsent₃⟩ :=
        newNode_spec createSpdCell hc (b := ⟨e.addr, e.node, e.next⟩) he node
      cases rc with
      | error err =>
        have hrep : Represents m₂ s := ⟨⟨cs, hc₂, hcs⟩, hsent₂.trans h.sent⟩
        have hentry : addSpdEntry e.toAddSpdEnv s it xpath x = some (.error err, it', s) := by
          simp [addSpdEntry, hget', hread]
        refine .inr ⟨.error err, it', m₂, s, none, hentry, hrep, iff_of_true rfl ?_, ?_⟩
        · rintro - - - ⟨it'', s', hok⟩
          rw [hentry] at hok
          cases hok
        · rw [shown_of_represents hrep, addSpdMem, hptr]
          simp [hnew, hread, hwrite]
      | ok u =>
        obtain ⟨-, ⟨r, hlook, -⟩, -⟩ := chain_append_cons_iff.mp hc₃
        cases hpol : addPolicies e.toAddSpdEnv node with
        | none =>
          refine .inl ⟨?_, by simp [addSpdEntry, hget', hread, hpol]⟩
          rw [addSpdMem, hptr]
          simp [hnew, hread, hwrite, hadd, hlook, hpol]
        | some r =>
          obtain ⟨msgs, node'⟩ := r
          obtain ⟨m₄, hwrite', hc₄, hsent₄⟩ := writeNode_spec hc₃ node'
          have hentry : addSpdEntry e.toAddSpdEnv s it xpath x =
              some (.ok (), it', { s with entries := s.entries ++ [node'] }.send msgs) := by
            simp [addSpdEntry, hget', hread, hpol]
          refine .inr ⟨.ok (), it', m₄.send msgs, _, _, hentry, ⟨⟨_, hc₄, ?_⟩, ?_⟩, ?_, ?_⟩
          · rw [List.map_append, hcs]; rfl
          · rw [MemStore.send, hsent₄, hsent₃, h.sent]; rfl
          · have hnil : s.entries = [] ↔ cs = [] := by rw [← hcs, List.map_eq_nil_iff]
            rw [ite_eq_left_iff, SpdMemOp.NullNext, ne_eq, hnil]
            exact ⟨fun h hne _ _ _ => h hne, fun h hne => h hne hget' he ⟨it', _, hentry⟩⟩
          · rw [addSpdMem, hptr]
            simp only [hnew, hread, hwrite, hadd, hlook, hpol, hwrite', Option.bind_eq_bind, Option.bind_some,
              Option.map_eq_bind]
            rfl
  · have hget' : getSpdNode s.entries x = some n := hget
    refine .inr ⟨.ok (), it, m, s, none, by simp [addSpdEntry, hget'], h, iff_of_true rfl ?_, ?_⟩
    · rintro - hnone
      rw [hget'] at hnone
      cases hnone
    · rw [shown_of_represents h, addSpdMem, hptr]; rfl

/-- What a call of `removeSPD_entry` does to the list in memory it does to the
entries. -/
theorem removeSpdMem_rel (h : Represents m s) (e : RemoveSpdEnv) {b : Malloc SpdEntryNode} (hb : b.addr ∉ m.heap)
    (x : CStr) :
    Option.Rel (fun r r' => r.1 = r'.1 ∧ Represents r.2 r'.2) (removeSpdMem e b m x) (removeSpdEntry e s x) := by
  rw [removeSpdMem, removeSpdEntry, getSpdNode]
  rcases getNodePtr_cases (·.name) h x with
    ⟨hget, hptr⟩ | ⟨cs, a, n, ds, hget, hptr, hc, hs, hx, hcs⟩
  · simp only [hget, hptr, shown_of_represents h, Option.bind_eq_bind, Option.bind_some]
    exact .some ⟨rfl, h⟩
  · obtain ⟨-, ⟨r, hlook, -⟩, -⟩ := chain_append_cons_iff.mp hc
    simp only [hget, hptr, hlook, Option.bind_eq_bind, Option.bind_some]
    cases hpol : delPolicies e n with
    | none => exact .none
    | some r =>
      obtain ⟨msgs, n'⟩ := r
      have hx' : n'.name = x := (delPolicies_name hpol).trans hx
      obtain ⟨m₁, hwrite, hc₁, hsent₁⟩ := writeNode_spec hc n'
      obtain ⟨m', hdel, hc', hsent⟩ := delMemNode_spec (·.name) createSpdCell hc₁ hx' hcs
        ((writeNode_mem hwrite).not.mpr hb)
      have hdelEntry : delSpdNode x (setNode (·.name) x n' s.entries) =
          some (.ok (), cs.map (·.2) ++ ds.map (·.2)) := by
        have hpre : ∀ k ∈ cs.map (·.2), k.name ≠ x := List.forall_mem_map.mpr hcs
        rw [hs, setNode_eq hx hpre]
        exact delEntry_eq hx' hpre
      have hrep : Represents (m'.send msgs) (Store.send { s with entries := cs.map (·.2) ++ ds.map (·.2) } msgs) := by
        refine ⟨⟨cs ++ ds, hc', List.map_append⟩, ?_⟩
        rw [MemStore.send, hsent, hsent₁, h.sent]; rfl
      simp only [Option.bind_some, hwrite, hdel, hdelEntry, shown_of_represents hrep]
      exact .some ⟨rfl, hrep⟩

/-- A call with a new block leaves the list in memory that of its entries
exactly when it appends no node whose `next` is not `NULL`. It returns when the
list can be shown then. -/
theorem spdMemOp_spec (h : Represents m s) {op : SpdMemOp} (ho : op.addr ∉ m.heap) :
    (op.step m = none ∧ op.op.step s = none) ∨
    ∃ m' s', op.op.step s = some s' ∧ (Represents m' s' ↔ SpdMemOp.NullNext (m, s) op) ∧ op.step m = shown m' := by
  cases op with
  | add e it xpath x =>
    rcases addSpdMem_spec h ho with ⟨hm, hs⟩ | ⟨rc, it', m', s', q, hs, hrep, hq, hm⟩
    · exact .inl ⟨by rw [SpdMemOp.step, hm]; rfl, by rw [SpdMemOp.op, SpdOp.step, hs]; rfl⟩
    · refine .inr ⟨m', s', by rw [SpdMemOp.op, SpdOp.step, hs]; rfl, (representsTo_iff hrep).trans hq, ?_⟩
      rw [SpdMemOp.step, hm, Option.map_map]
      exact Option.map_id'
  | remove e b x =>
    have hrel := rel_map (f := (·.2)) (g := (·.2)) (fun h => h.2) (removeSpdMem_rel h e ho x)
    rw [SpdMemOp.step, SpdMemOp.op, SpdOp.step]
    generalize (removeSpdMem e b m x).map (·.2) = o, (removeSpdEntry e s x).map (·.2) = o' at hrel
    cases hrel with
    | none => exact .inl ⟨rfl, rfl⟩
    | some hrep => exact .inr ⟨_, _, rfl, iff_of_true hrep trivial, (shown_of_represents hrep).symm⟩

/-- A call with no new block does not append a node. -/
theorem nullNext_of_inUse {op : SpdMemOp} (ho : op.addr ∈ m.heap) : SpdMemOp.NullNext (m, s) op := by
  cases op with
  | add e it xpath x => exact fun _ _ hnew _ => absurd ho hnew
  | remove e b x => trivial

/-- A call appends a node only if it returns. -/
theorem nullNext_of_none {op : SpdMemOp} (hs : op.op.step s = none) : SpdMemOp.NullNext (m, s) op := by
  cases op with
  | add e it xpath x =>
    rintro - - - ⟨it', s', hok⟩
    rw [SpdMemOp.op, SpdOp.step, hok] at hs
    cases hs
  | remove e b x => trivial

/-- Only a call that creates no node returns when `malloc` has no new block for
it, and it changes nothing. -/
theorem spdMemOp_inUse (h : Represents m s) {op : SpdMemOp} (ho : op.addr ∈ m.heap) {m' : MemStore SpdEntryNode}
    (hs : op.step m = some m') : m' = m ∧ op.op.step s = some s := by
  cases op with
  | add e it xpath x =>
    obtain ⟨r, hr, rfl⟩ := Option.map_eq_some_iff.mp hs
    rw [addSpdMem] at hr
    rcases getNodePtr_cases (·.name) h x with ⟨-, hptr⟩ | ⟨_, _, n, _, hget, hptr, _⟩
    · simp only [hptr, Option.bind_eq_bind, Option.bind_some] at hr
      obtain ⟨m₁, hm₁, -⟩ := Option.bind_eq_some_iff.mp hr
      exact absurd ho (createNode_eq_some_iff.mp hm₁).1
    · have hget' : getSpdNode s.entries x = some n := hget
      rw [hptr] at hr
      cases hr
      exact ⟨rfl, by rw [SpdMemOp.op, SpdOp.step, addSpdEntry, hget']; rfl⟩
  | remove e b x =>
    obtain ⟨r, hr, rfl⟩ := Option.map_eq_some_iff.mp hs
    rw [removeSpdMem] at hr
    rcases getNodePtr_cases (·.name) h x with ⟨hget, hptr⟩ | ⟨cs, a, n, ds, -, hptr, hc, -⟩
    · simp only [hptr, shown_of_represents h, Option.bind_eq_bind, Option.bind_some] at hr
      cases hr
      exact ⟨rfl, by rw [SpdMemOp.op, SpdOp.step, removeSpdEntry, getSpdNode, hget]; rfl⟩
    · simp only [hptr, Option.bind_eq_bind, Option.bind_some] at hr
      obtain ⟨c, -, hr⟩ := Option.bind_eq_some_iff.mp hr
      obtain ⟨⟨msgs, n'⟩, -, hr⟩ := Option.bind_eq_some_iff.mp hr
      obtain ⟨m₁, hwrite, hr⟩ := Option.bind_eq_some_iff.mp hr
      obtain ⟨r', hr', -⟩ := Option.bind_eq_some_iff.mp hr
      obtain ⟨m₂, hwrite₂, hc₂, -⟩ := writeNode_spec hc n'
      cases hwrite₂.symm.trans hwrite
      exact absurd ((writeNode_mem hwrite).mpr ho) (delMemNode_fresh hr' (hc₂.seg.start_ne_none (by simp)))

/-- A step keeps the list in memory that of its entries exactly when it appends
no node whose `next` is not `NULL`. -/
theorem represents_step_iff {m' : MemStore SpdEntryNode} {s' : Store SpdEntryNode} {op : SpdMemOp}
    (h : Represents m s) (hs : op.stepBoth (m, s) = some (m', s')) :
    Represents m' s' ↔ SpdMemOp.NullNext (m, s) op := by
  obtain ⟨m₁, hm, hs⟩ := Option.bind_eq_some_iff.mp hs
  obtain ⟨s₁, hl, hs⟩ := Option.bind_eq_some_iff.mp hs
  cases hs
  by_cases ho : op.addr ∈ m.heap
  · obtain ⟨rfl, hl'⟩ := spdMemOp_inUse h ho hm
    rw [hl'] at hl
    cases hl
    exact iff_of_true h (nullNext_of_inUse ho)
  · rcases spdMemOp_spec h ho with ⟨-, hnone⟩ | ⟨m₂, s₂, hl', hiff, hm'⟩
    · rw [hl] at hnone
      cases hnone
    · cases hl'.symm.trans hl
      cases shown_eq (hm'.symm.trans hm)
      exact hiff

/-- A step returns and keeps the list in memory that of its entries exactly when
it appends no node whose `next` is not `NULL`. -/
theorem returns_represents_iff {op : SpdMemOp} (h : Represents m s) :
    (SpdMemOp.Returns (m, s) op ∧ ∀ r, op.stepBoth (m, s) = some r → Represents r.1 r.2) ↔
      SpdMemOp.NullNext (m, s) op := by
  constructor
  · rintro ⟨hret, hkeep⟩
    by_cases ho : op.addr ∈ m.heap
    · exact nullNext_of_inUse ho
    · rcases spdMemOp_spec h ho with ⟨-, hnone⟩ | ⟨m', s', hl, hiff, hm⟩
      · exact nullNext_of_none hnone
      · -- The call returns, so the list that it leaves can be shown.
        obtain ⟨m₁, hm₁⟩ := Option.isSome_iff_exists.mp (hret ho (Option.isSome_of_eq_some hl))
        cases shown_eq (hm.symm.trans hm₁)
        exact hiff.mp (hkeep (m', s') (by simp [SpdMemOp.stepBoth, hm₁, hl]))
  · intro hn
    refine ⟨fun ho hsome => ?_, fun ⟨m', s'⟩ hs => (represents_step_iff h hs).mpr hn⟩
    rcases spdMemOp_spec h ho with ⟨-, hnone⟩ | ⟨m', s', -, hiff, hm⟩
    · rw [hnone] at hsome
      cases hsome
    · rw [hm, shown_of_represents (hiff.mpr hn)]; rfl

/-- Where the list in memory is that of its entries, the functions that look one
up end, and see it. -/
theorem lookups_of_represents (h : Represents m s) (x : CStr) (index : BitVec 32) :
    (∃ p, getNodePtr (·.name) m x = some p ∧
      p.bind (fun a => (m.heap.lookup a).map (·.val)) = getSpdNode s.entries x) ∧
    ∃ p, getSpdNodePtrByIndex m index = some p ∧
      p.bind (fun a => (m.heap.lookup a).map (·.val)) = getSpdNodeByIndex s.entries index := by
  have hwalk := walkable_of_represents h
  exact ⟨hwalk.finds fun n => n.name = x, hwalk.finds fun n => n.index = index⟩

/-- When the SPD list in memory is well formed: throughout a run, whose calls
return, exactly when `next` of every node that is appended to others was `NULL`
in the block that `malloc` returned. Such a call returns whenever the one on the
list of entries does. -/
theorem spd_chain (ops : List SpdMemOp) :
    (Always SpdMemOp.stepBoth (fun s => Represents s.1 s.2 ∧ Walkable s.1 s.2.entries) ops (.start, emptyStore) ∧
        Throughout SpdMemOp.stepBoth SpdMemOp.Returns ops (.start, emptyStore) ↔
      Throughout SpdMemOp.stepBoth SpdMemOp.NullNext ops (.start, emptyStore)) ∧
    ∀ (m : MemStore SpdEntryNode) (s : Store SpdEntryNode) (op : SpdMemOp), Represents m s → op.addr ∉ m.heap →
      SpdMemOp.NullNext (m, s) op → (op.step m).isSome = (op.op.step s).isSome := by
  have hwalk : (fun s : MemStore SpdEntryNode × Store SpdEntryNode =>
      Represents s.1 s.2 ∧ Walkable s.1 s.2.entries) = fun s => Represents s.1 s.2 := by
    funext s
    exact propext (and_iff_left_of_imp walkable_of_represents)
  refine ⟨?_, fun m s op h ho hn => ?_⟩
  · rw [hwalk]
    exact always_and_throughout_iff (fun h => returns_represents_iff h) represents_start
  · rcases spdMemOp_spec h ho with ⟨hm, hs⟩ | ⟨m', s', hs, hiff, hm⟩
    · rw [hm, hs]; rfl
    · rw [hs, hm, shown_of_represents (hiff.mpr hn)]; rfl

/-- An addition with a block at `addr` where `next` was. -/
def addSpdAt (addr : Addr) (next : Ptr) (name : CStr) : SpdMemOp :=
  .add ⟨⟨default, noPolicies, noPolicies⟩, addr, next⟩ ((addSpdValues name).map fun v => .ok v.created)
    (spdEntryXpath name) name

/-- Two entries, of which the first may find anything in `next`, and the removal
of the first. -/
def spdTwo : List SpdMemOp :=
  [addSpdAt 1 (some 7) (lit "a"), addSpdAt 2 none (lit "b"),
    .remove ⟨⟨1, 0, 0⟩, ⟨1, 0, 0⟩⟩ ⟨3, default, some 7⟩ (lit "a")]

/-- All of it returns, and keeps the list well formed. -/
theorem spd_chain_first :
    (run SpdMemOp.stepBoth spdTwo (.start, emptyStore)).isSome = true ∧
      Always SpdMemOp.stepBoth (fun s => Represents s.1 s.2 ∧ Walkable s.1 s.2.entries) spdTwo
        (.start, emptyStore) := by
  have hnext : Throughout SpdMemOp.stepBoth SpdMemOp.NullNext spdTwo (.start, emptyStore) := by
    refine ⟨fun hne => absurd rfl hne, fun s₁ _ => ⟨?_, ?_⟩⟩
    · exact fun _ _ _ _ => rfl
    · exact fun s₂ _ => ⟨trivial, fun s₃ _ => trivial⟩
  exact ⟨by decide +kernel, ((spd_chain spdTwo).1.mpr hnext).1⟩

/-- An entry is removed, whose node stays allocated, and of the two that are added
then the second finds the address of that node in its block. -/
def spdStale : List SpdMemOp :=
  [addSpdAt 1 none (lit "a"), .remove ⟨⟨1, 0, 0⟩, ⟨1, 0, 0⟩⟩ ⟨2, default, none⟩ (lit "a"),
    addSpdAt 2 none (lit "b"), addSpdAt 3 (some 1) (lit "c")]

/-- The list then has the removed entry at its end; and where the block leads to
nothing, the addition does not return. -/
theorem spd_chain_garbage :
    (∃ m s, run SpdMemOp.stepBoth spdStale (.start, emptyStore) = some (m, s) ∧
        s.entries.map (·.name) = [lit "b", lit "c"] ∧
        (showList m).map (·.map (·.name)) = some [lit "b", lit "c", lit "a"] ∧
        getNodePtr (·.name) m (lit "a") = some (some 1)) ∧
      (∃ m s, run SpdMemOp.stepBoth [addSpdAt 1 none (lit "a")] (.start, emptyStore) = some (m, s) ∧
        (addSpdAt 2 (some 7) (lit "b")).addr ∉ m.heap ∧ (addSpdAt 2 (some 7) (lit "b")).step m = none ∧
        ((addSpdAt 2 (some 7) (lit "b")).op.step s).isSome = true) ∧
      ¬∀ ops, Always SpdMemOp.stepBoth (fun s => Represents s.1 s.2 ∧ Walkable s.1 s.2.entries) ops
        (.start, emptyStore) := by
  have hstale : (run SpdMemOp.stepBoth spdStale (.start, emptyStore)).any (fun r =>
      r.2.entries.map (·.name) = [lit "b", lit "c"] ∧
        (showList r.1).map (·.map (·.name)) = some [lit "b", lit "c", lit "a"] ∧
        getNodePtr (·.name) r.1 (lit "a") = some (some 1)) = true := by
    decide +kernel
  have hlost : (run SpdMemOp.stepBoth [addSpdAt 1 none (lit "a")] (.start, emptyStore)).any (fun r =>
      (addSpdAt 2 (some 7) (lit "b")).addr ∉ r.1.heap ∧ ((addSpdAt 2 (some 7) (lit "b")).step r.1).isNone ∧
        ((addSpdAt 2 (some 7) (lit "b")).op.step r.2).isSome = true) = true := by
    decide +kernel
  obtain ⟨⟨m, s⟩, hs, h⟩ := (Option.any_eq_true _ _).mp hstale
  obtain ⟨hnames, hshow, hget⟩ := of_decide_eq_true h
  obtain ⟨⟨m₁, s₁⟩, hs₁, h₁⟩ := (Option.any_eq_true _ _).mp hlost
  obtain ⟨hnew, hnone, hsome⟩ := of_decide_eq_true h₁
  refine ⟨⟨m, s, hs, hnames, hshow, hget⟩, ⟨m₁, s₁, hs₁, hnew, Option.isNone_iff_eq_none.mp hnone, hsome⟩, fun h => ?_⟩
  have hwalk := ((h spdStale).last hs).2.shows
  rw [hwalk, Option.map_some, hnames] at hshow
  exact absurd hshow (by decide)

end Spd

end CfgIpsec.Proof
