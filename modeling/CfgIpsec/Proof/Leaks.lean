import CfgIpsec.Proof.Memory
import CfgIpsec.Spec.Memory

/-!
# What the lists leave allocated

A removal frees as many nodes as it allocates, and an addition none: every node
that was created for an entry is there for good, in the list or not
(`nodes_lost`).
-/

namespace CfgIpsec.Proof

open Impl Spec Linked Run
open CStr (lit)

section Generic

variable {α : Type} {name : α → CStr} {create : Malloc α → Cell α} {m m' : MemStore α} {a : Addr} {x : CStr} {n : α}

/-! ## The functions on nodes -/

theorem size_createNode {b : Malloc α} (h : createNode create b m = some m') : m'.heap.size = m.heap.size + 1 := by
  obtain ⟨hb, rfl⟩ := createNode_eq_some_iff.mp h
  exact Heap.size_insert hb _

theorem size_writeNode (h : writeNode a n m = some m') : m'.heap.size = m.heap.size := by
  obtain ⟨h', hset, rfl⟩ := Option.map_eq_some_iff.mp h
  exact Heap.size_setVal hset

theorem size_addNode (h : addNode a m = some m') : m'.heap.size = m.heap.size := by
  unfold addNode at h
  split at h
  · obtain ⟨h', hset, h⟩ := Option.bind_eq_some_iff.mp h
    cases h
    exact Heap.size_setNext hset
  · obtain ⟨node, -, h⟩ := Option.bind_eq_some_iff.mp h
    obtain ⟨h', hset, h⟩ := Option.bind_eq_some_iff.mp h
    cases h
    exact Heap.size_setNext hset

/-- Taking a node out frees one for the one it creates. -/
theorem delMemNode_cases {b : Malloc α} {rc : Rc} (h : delMemNode name create b x m = some (rc, m')) :
    (rc = .error .operationFailed ∧ m.init = none ∧ m' = m) ∨
      (rc = .ok () ∧ b.addr ∉ m.heap ∧ m'.heap.size = m.heap.size) := by
  by_cases hinit : m.init = none
  · rw [delMemNode, if_pos hinit] at h
    cases h
    exact .inl ⟨rfl, hinit, rfl⟩
  · have hb := delMemNode_fresh h hinit
    rw [delMemNode, if_neg hinit] at h
    obtain ⟨m₁, hnew, h⟩ := Option.bind_eq_some_iff.mp h
    obtain ⟨⟨prev, node⟩, hseek, h⟩ := Option.bind_eq_some_iff.mp h
    obtain ⟨c, hc, h⟩ := Option.bind_eq_some_iff.mp h
    have hsize := size_createNode hnew
    split at h
    · obtain ⟨h', hfree, h⟩ := Option.bind_eq_some_iff.mp h
      cases h
      have := Heap.size_free hfree
      exact .inr ⟨rfl, hb, by show h'.size = _; omega⟩
    · -- The search has only ended at a node of the name.
      obtain ⟨c', hc', hx⟩ := Heap.test_of_seek hseek
      cases hc.symm.trans hc'
      rw [if_pos (of_decide_eq_true hx)] at h
      obtain ⟨h₁, hset, h⟩ := Option.bind_eq_some_iff.mp h
      obtain ⟨h₂, hfree, h⟩ := Option.bind_eq_some_iff.mp h
      cases h
      have := Heap.size_setNext hset
      have := Heap.size_free hfree
      exact .inr ⟨rfl, hb, by show h₂.size = _; omega⟩

/-- A node is found only in a list that has nodes. -/
theorem init_ne_none_of_getNodePtr (h : getNodePtr name m x = some (some a)) : m.init ≠ none := by
  intro hinit
  rw [getNodePtr, hinit, Heap.bound, Heap.find] at h
  cases h

end Generic

/-! ## The SAD list -/

section Sad

variable {m m' : MemStore SadEntryNode} {it it' : SrChangeIter} {xpath x : CStr} {rc : Rc}

theorem addSadMem_cases {e : AddSadMem} (h : addSadMem e m it xpath x = some (rc, it', m')) :
    e.addr ∉ m.heap ∧ m'.heap.size = m.heap.size + 1 := by
  obtain ⟨m₁, hnew, h⟩ := Option.bind_eq_some_iff.mp h
  obtain ⟨⟨rc₁, it₁, node⟩, -, h⟩ := Option.bind_eq_some_iff.mp h
  obtain ⟨m₂, hwrite, h⟩ := Option.bind_eq_some_iff.mp h
  have hsize : m₂.heap.size = m.heap.size + 1 := (size_writeNode hwrite).trans (size_createNode hnew)
  refine ⟨(createNode_eq_some_iff.mp hnew).1, ?_⟩
  cases rc₁ with
  | error err =>
    cases h
    exact hsize
  | ok u =>
    obtain ⟨m₃, hadd, h⟩ := Option.bind_eq_some_iff.mp h
    obtain ⟨c, -, h⟩ := Option.bind_eq_some_iff.mp h
    obtain ⟨add, -, h⟩ := Option.bind_eq_some_iff.mp h
    obtain ⟨get, -, h⟩ := Option.bind_eq_some_iff.mp h
    obtain ⟨m₄, hshown, h⟩ := Option.bind_eq_some_iff.mp h
    cases h
    cases shown_eq hshown
    exact (size_addNode hadd).trans hsize

theorem removeSadMem_cases {e : RemoveSadEnv} {b : Malloc SadEntryNode}
    (h : removeSadMem e b m x = some (rc, m')) :
    (rc = .error .operationFailed ∧ m' = m) ∨ (rc = .ok () ∧ b.addr ∉ m.heap ∧ m'.heap.size = m.heap.size) := by
  obtain ⟨p, hptr, h⟩ := Option.bind_eq_some_iff.mp h
  cases p with
  | none =>
    obtain ⟨m₁, hshown, h⟩ := Option.bind_eq_some_iff.mp h
    cases h
    exact .inl ⟨rfl, shown_eq hshown⟩
  | some a =>
    obtain ⟨c, -, h⟩ := Option.bind_eq_some_iff.mp h
    obtain ⟨get, -, h⟩ := Option.bind_eq_some_iff.mp h
    obtain ⟨del, -, h⟩ := Option.bind_eq_some_iff.mp h
    obtain ⟨⟨rc₁, m₁⟩, hdel, h⟩ := Option.bind_eq_some_iff.mp h
    obtain ⟨m₂, hshown, h⟩ := Option.bind_eq_some_iff.mp h
    rcases delMemNode_cases hdel with ⟨-, hinit, -⟩ | ⟨rfl, hb, hsize⟩
    · exact absurd hinit (init_ne_none_of_getNodePtr hptr)
    · cases h
      cases shown_eq hshown
      exact .inr ⟨rfl, hb, hsize⟩

/-- Of the nodes of the SAD all but those lost are in its list. -/
theorem sadMemOp_lost {n : Nat} {op : SadMemOp}
    (h : ∃ s, Represents m s ∧ m.heap.size = s.entries.length + n) (hs : op.step m = some m') :
    ∃ s', Represents m' s' ∧ m'.heap.size = s'.entries.length + (n + (op.loses m).toNat) := by
  obtain ⟨s, hrep, hsize⟩ := h
  cases op with
  | add e it xpath x =>
    obtain ⟨⟨rc, it', m₁⟩, hadd, rfl⟩ := Option.map_eq_some_iff.mp hs
    have hloses : (SadMemOp.add e it xpath x).loses m = !rc.isOk := by rw [SadMemOp.loses, hadd]; rfl
    obtain ⟨hb, hsize'⟩ := addSadMem_cases hadd
    have hrel := addSadMem_rel hrep hb it xpath x
    rw [hadd] at hrel
    generalize hl : addSadEntry e.toAddSadEnv s it xpath x = o at hrel
    cases hrel with
    | @some _ r' hr =>
      obtain ⟨rc', it'', s'⟩ := r'
      obtain ⟨rfl, rfl, hrep'⟩ := hr
      refine ⟨s', hrep', ?_⟩
      rw [hloses, hsize']
      rcases addSadEntry_cases hl with ⟨err, node, -, rfl, rfl⟩ | ⟨node, add, get, -, -, -, rfl, rfl⟩
      · simp only [Except.isOk, Except.toBool, Bool.not_false, Bool.toNat_true]
        omega
      · simp only [Except.isOk, Except.toBool, Bool.not_true, Bool.toNat_false, List.length_append,
          List.length_singleton]
        omega
  | remove e b x =>
    obtain ⟨⟨rc, m₁⟩, hrem, rfl⟩ := Option.map_eq_some_iff.mp hs
    have hloses : (SadMemOp.remove e b x).loses m = rc.isOk := by rw [SadMemOp.loses, hrem]; rfl
    rcases removeSadMem_cases hrem with ⟨rfl, rfl⟩ | ⟨rfl, hb, hsize'⟩
    · rw [hloses]
      exact ⟨s, hrep, hsize⟩
    · have hrel := removeSadMem_rel hrep e hb x
      rw [hrem] at hrel
      generalize hl : removeSadEntry e s x = o at hrel
      cases hrel with
      | @some _ r' hr =>
        obtain ⟨rc', s'⟩ := r'
        obtain ⟨rfl, hrep'⟩ := hr
        refine ⟨s', hrep', ?_⟩
        rw [hloses, hsize']
        rcases removeSadEntry_cases hl with ⟨-, hrc, -⟩ | ⟨pre, k, post, get, del, -, he, -, -, -, -, -, rfl⟩
        · cases hrc
        · rw [he, List.length_append, List.length_cons] at hsize
          simp only [Except.isOk, Except.toBool, Bool.toNat_true, List.length_append]
          omega

/-- Whatever a call does, it allocates a node that stays exactly when it is an
addition. -/
theorem size_sadMemOp {op : SadMemOp} (hs : op.step m = some m') :
    m'.heap.size = m.heap.size + (op.creates m).toNat := by
  cases op with
  | add e it xpath x =>
    obtain ⟨⟨rc, it', m₁⟩, hadd, rfl⟩ := Option.map_eq_some_iff.mp hs
    exact (addSadMem_cases hadd).2
  | remove e b x =>
    obtain ⟨⟨rc, m₁⟩, hrem, rfl⟩ := Option.map_eq_some_iff.mp hs
    rcases removeSadMem_cases hrem with ⟨-, rfl⟩ | ⟨-, -, hsize⟩
    · rfl
    · exact hsize

end Sad

/-! ## The SPD list -/

section Spd

variable {m m' : MemStore SpdEntryNode} {it it' : SrChangeIter} {xpath x : CStr} {rc : Rc}

theorem addSpdMem_cases {e : AddSpdMem} (h : addSpdMem e m it xpath x = some (rc, it', m')) :
    ((∃ a, getNodePtr (·.name) m x = some (some a)) ∧ rc = .ok () ∧ m' = m) ∨
      (getNodePtr (·.name) m x = some none ∧ e.addr ∉ m.heap ∧ m'.heap.size = m.heap.size + 1) := by
  obtain ⟨p, hptr, h⟩ := Option.bind_eq_some_iff.mp h
  cases p with
  | some a =>
    cases h
    exact .inl ⟨⟨a, hptr⟩, rfl, rfl⟩
  | none =>
    obtain ⟨m₁, hnew, h⟩ := Option.bind_eq_some_iff.mp h
    obtain ⟨⟨rc₁, it₁, node⟩, -, h⟩ := Option.bind_eq_some_iff.mp h
    obtain ⟨m₂, hwrite, h⟩ := Option.bind_eq_some_iff.mp h
    have hsize : m₂.heap.size = m.heap.size + 1 := (size_writeNode hwrite).trans (size_createNode hnew)
    refine .inr ⟨hptr, (createNode_eq_some_iff.mp hnew).1, ?_⟩
    cases rc₁ with
    | error err =>
      cases h
      exact hsize
    | ok u =>
      obtain ⟨m₃, hadd, h⟩ := Option.bind_eq_some_iff.mp h
      obtain ⟨c, -, h⟩ := Option.bind_eq_some_iff.mp h
      obtain ⟨⟨msgs, node'⟩, -, h⟩ := Option.bind_eq_some_iff.mp h
      obtain ⟨m₄, hwrite', h⟩ := Option.bind_eq_some_iff.mp h
      obtain ⟨m₅, hshown, h⟩ := Option.bind_eq_some_iff.mp h
      cases h
      cases shown_eq hshown
      exact (size_writeNode hwrite').trans ((size_addNode hadd).trans hsize)

theorem removeSpdMem_cases {e : RemoveSpdEnv} {b : Malloc SpdEntryNode}
    (h : removeSpdMem e b m x = some (rc, m')) :
    (rc = .error .operationFailed ∧ m' = m) ∨ (rc = .ok () ∧ b.addr ∉ m.heap ∧ m'.heap.size = m.heap.size) := by
  obtain ⟨p, hptr, h⟩ := Option.bind_eq_some_iff.mp h
  cases p with
  | none =>
    obtain ⟨m₁, hshown, h⟩ := Option.bind_eq_some_iff.mp h
    cases h
    exact .inl ⟨rfl, shown_eq hshown⟩
  | some a =>
    obtain ⟨c, -, h⟩ := Option.bind_eq_some_iff.mp h
    obtain ⟨⟨msgs, n⟩, -, h⟩ := Option.bind_eq_some_iff.mp h
    obtain ⟨m₁, hwrite, h⟩ := Option.bind_eq_some_iff.mp h
    obtain ⟨⟨rc₁, m₂⟩, hdel, h⟩ := Option.bind_eq_some_iff.mp h
    obtain ⟨m₃, hshown, h⟩ := Option.bind_eq_some_iff.mp h
    cases h
    cases shown_eq hshown
    have hinit : m₁.init = m.init := by
      obtain ⟨h', -, rfl⟩ := Option.map_eq_some_iff.mp hwrite
      rfl
    rcases delMemNode_cases hdel with ⟨-, hnone, -⟩ | ⟨rfl, hb, hsize⟩
    · exact absurd (hinit ▸ hnone) (init_ne_none_of_getNodePtr hptr)
    · exact .inr ⟨rfl, (writeNode_mem hwrite).not.mp hb, hsize.trans (size_writeNode hwrite)⟩

/-- Of the nodes of the SPD all but those lost are in its list, as long as it
ends. -/
theorem spdMemOp_lost {n : Nat} {op : SpdMemOp} {s s' : Store SpdEntryNode}
    (hrep : Represents m s) (hsize : m.heap.size = s.entries.length + n) (hn : SpdMemOp.NullNext (m, s) op)
    (hs : op.stepBoth (m, s) = some (m', s')) :
    Represents m' s' ∧ m'.heap.size = s'.entries.length + (n + (op.loses m).toNat) := by
  have hrep' : Represents m' s' := (represents_step_iff hrep hs).mpr hn
  refine ⟨hrep', ?_⟩
  -- A list in memory that stays as it is has the same entries.
  have hsame : m' = m → s'.entries = s.entries := by
    rintro rfl
    exact Option.some.inj ((walkable_of_represents hrep').shows.symm.trans (walkable_of_represents hrep).shows)
  obtain ⟨m₁, hm, hs⟩ := Option.bind_eq_some_iff.mp hs
  obtain ⟨s₁, hl, hs⟩ := Option.bind_eq_some_iff.mp hs
  cases hs
  cases op with
  | add e it xpath x =>
    obtain ⟨⟨rc, it', m₁⟩, hadd, rfl⟩ := Option.map_eq_some_iff.mp hm
    obtain ⟨⟨rc', it'', s₁⟩, hadd', rfl⟩ := Option.map_eq_some_iff.mp hl
    have hloses : (SpdMemOp.add e it xpath x).loses m = !rc.isOk := by rw [SpdMemOp.loses, hadd]; rfl
    rw [hloses]
    rcases addSpdMem_cases hadd with ⟨-, rfl, rfl⟩ | ⟨hptr, hb, hsize'⟩
    · rw [hsame rfl]
      exact hsize
    · obtain rfl : rc = rc' := by
        rcases addSpdMem_spec hrep hb with ⟨-, hnone⟩ | ⟨rc₂, it₂, m₂, s₂, q, hl, -, -, hm⟩
        · cases hadd'.symm.trans hnone
        · obtain ⟨m₃, -, hm⟩ := Option.map_eq_some_iff.mp (hm.symm.trans hadd)
          cases hm
          cases hl.symm.trans hadd'
          rfl
      rcases addSpdEntry_cases hadd' with
        ⟨⟨n', hget⟩, -⟩ | ⟨-, err, node, -, rfl, rfl⟩ | ⟨-, node, msgs, node', -, -, rfl, rfl⟩
      · rcases getNodePtr_cases (·.name) hrep x with ⟨hnone, -⟩ | ⟨_, a, _, _, -, hsome, -⟩
        · cases hget.symm.trans hnone
        · cases hptr.symm.trans hsome
      · simp only [hsize', Except.isOk, Except.toBool, Bool.not_false, Bool.toNat_true]
        omega
      · simp only [hsize', Except.isOk, Except.toBool, Bool.not_true, Bool.toNat_false, List.length_append,
          List.length_singleton]
        omega
  | remove e b x =>
    obtain ⟨⟨rc, m₁⟩, hrem, rfl⟩ := Option.map_eq_some_iff.mp hm
    obtain ⟨⟨rc', s₁⟩, hrem', rfl⟩ := Option.map_eq_some_iff.mp hl
    have hloses : (SpdMemOp.remove e b x).loses m = rc.isOk := by rw [SpdMemOp.loses, hrem]; rfl
    rw [hloses]
    rcases removeSpdMem_cases hrem with ⟨rfl, rfl⟩ | ⟨rfl, hb, hsize'⟩
    · rw [hsame rfl]
      exact hsize
    · have hrel := removeSpdMem_rel hrep e hb x
      rw [hrem, hrem'] at hrel
      obtain ⟨hrc, -⟩ := Option.rel_some_some.mp hrel
      rcases removeSpdEntry_cases hrem' with ⟨-, rfl, -⟩ | ⟨pre, k, post, msgs, node, -, he, -, -, -, rfl, rfl⟩
      · cases hrc
      · rw [he, List.length_append, List.length_cons] at hsize
        simp only [hsize', Except.isOk, Except.toBool, Bool.toNat_true, List.length_append]
        omega

/-- Whatever a call does, it allocates a node that stays exactly when it is an
addition of a new name. -/
theorem size_spdMemOp {op : SpdMemOp} (hs : op.step m = some m') :
    m'.heap.size = m.heap.size + (op.creates m).toNat := by
  cases op with
  | add e it xpath x =>
    obtain ⟨⟨rc, it', m₁⟩, hadd, rfl⟩ := Option.map_eq_some_iff.mp hs
    rcases addSpdMem_cases hadd with ⟨⟨a, hptr⟩, -, rfl⟩ | ⟨hptr, -, hsize⟩
    · simp [SpdMemOp.creates, hptr]
    · simpa [SpdMemOp.creates, hptr] using hsize
  | remove e b x =>
    obtain ⟨⟨rc, m₁⟩, hrem, rfl⟩ := Option.map_eq_some_iff.mp hs
    rcases removeSpdMem_cases hrem with ⟨-, rfl⟩ | ⟨-, -, hsize⟩
    · rfl
    · exact hsize

end Spd

/-! ## Runs -/

theorem accounted_of_represents {α : Type} {m : MemStore α} {s : Store α} {created lost : Nat} (h : Represents m s)
    (hc : m.heap.size = created) (hl : m.heap.size = s.entries.length + lost) : Accounted m created lost :=
  ⟨hc, s.entries, (walkable_of_represents h).shows, hl.symm.trans hc⟩

/-- In every run of additions and removals, on either list, a node stays
allocated for each that was created for an entry. The list leads to all of them
but one for each addition that was refused and each removal that was not. -/
theorem nodes_lost :
    (∀ ops m, run SadMemOp.step ops .start = some m →
      Accounted m (tally SadMemOp.step SadMemOp.creates ops .start) (tally SadMemOp.step SadMemOp.loses ops .start)) ∧
    ∀ ops m s, Along SpdMemOp.stepBoth SpdMemOp.NullNext ops (.start, emptyStore) →
      run SpdMemOp.stepBoth ops (.start, emptyStore) = some (m, s) →
      Accounted m (tally SpdMemOp.stepBoth (fun r => SpdMemOp.creates r.1) ops (.start, emptyStore))
        (tally SpdMemOp.stepBoth (fun r => SpdMemOp.loses r.1) ops (.start, emptyStore)) := by
  refine ⟨fun ops m hr => ?_, fun ops m s hn hr => ?_⟩
  · have hany : Along SadMemOp.step (fun _ _ => True) ops .start := along_of_forall (fun _ _ => trivial) ops _
    have hsize := run_tally (c := SadMemOp.creates) (R := fun n (m : MemStore SadEntryNode) => m.heap.size = n)
      (fun hR _ hs => hR ▸ size_sadMemOp hs) (n := 0) rfl hany hr
    obtain ⟨s, hrep, hlost⟩ := run_tally (c := SadMemOp.loses)
      (R := fun n m => ∃ s, Represents m s ∧ m.heap.size = s.entries.length + n)
      (fun hR _ hs => sadMemOp_lost hR hs) (n := 0) ⟨emptyStore, represents_start, rfl⟩ hany hr
    rw [Nat.zero_add] at hsize hlost
    exact accounted_of_represents hrep hsize hlost
  · have hsize := run_tally (c := fun r => SpdMemOp.creates r.1)
      (R := fun n (r : MemStore SpdEntryNode × Store SpdEntryNode) => r.1.heap.size = n)
      (fun hR _ hs => by
        obtain ⟨m', hm, hs⟩ := Option.bind_eq_some_iff.mp hs
        obtain ⟨s', -, hs⟩ := Option.bind_eq_some_iff.mp hs
        cases hs
        exact hR ▸ size_spdMemOp hm) (n := 0) rfl hn hr
    obtain ⟨hrep, hlost⟩ := run_tally (c := fun r => SpdMemOp.loses r.1)
      (R := fun n r => Represents r.1 r.2 ∧ r.1.heap.size = r.2.entries.length + n)
      (fun hR hn hs => spdMemOp_lost hR.1 hR.2 hn hs) (n := 0) ⟨represents_start, rfl⟩ hn hr
    rw [Nat.zero_add] at hsize hlost
    exact accounted_of_represents hrep hsize hlost

/-- An entry is added and removed, and one is refused: there is nothing of it to
read. -/
def gwLost : List SadMemOp :=
  [addSadAt 1 (lit "gw") addSadPrefixes, .remove ⟨⟨1, 0, 0⟩, ⟨1, 0, 0⟩⟩ ⟨2, default, some 7⟩ (lit "gw"),
    .add ⟨⟨default, ⟨1, 0, 0⟩, ⟨1, 0, 0⟩⟩, 3, some 7⟩ [] (sadEntryXpath (lit "gw")) (lit "gw")]

/-- That leaves nothing in the list, and two nodes. -/
theorem nodes_lost_gw :
    ∃ m, run SadMemOp.step gwLost .start = some m ∧ showList m = some [] ∧ m.heap.size = 2 := by
  have hrun : (run SadMemOp.step gwLost .start).any (fun m => showList m = some []) = true := by decide +kernel
  have hcreated : tally SadMemOp.step SadMemOp.creates gwLost .start = 2 := by decide +kernel
  obtain ⟨m, hm, h⟩ := (Option.any_eq_true _ _).mp hrun
  exact ⟨m, hm, of_decide_eq_true h, (nodes_lost.1 _ m hm).allocated.trans hcreated⟩

end CfgIpsec.Proof
