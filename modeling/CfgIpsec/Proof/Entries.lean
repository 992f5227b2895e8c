import CfgIpsec.Impl.Entries

/-!
# What the calls on the lists do

The first entry of a name splits a list (`getNode_eq_some_iff`); deleting and
writing work at that split. `addSadEntry_cases` and its like say once all that
a call can do.
-/

namespace CfgIpsec.Proof

open Impl

variable {α : Type} {name : α → CStr}

theorem getNode_eq_none_iff {entries : List α} {x : CStr} :
    getNode name entries x = none ↔ ∀ n ∈ entries, name n ≠ x := by
  simp [getNode]

theorem getNode_eq_some_iff {entries : List α} {x : CStr} {n : α} :
    getNode name entries x = some n ↔
      ∃ pre post, entries = pre ++ n :: post ∧ name n = x ∧ ∀ m ∈ pre, name m ≠ x := by
  simp only [getNode, List.find?_eq_some_iff_append, decide_eq_true_eq, Bool.not_eq_true', decide_eq_false_iff_not]
  constructor
  · rintro ⟨hn, pre, post, rfl, hp⟩
    exact ⟨pre, post, rfl, hn, hp⟩
  · rintro ⟨pre, post, rfl, hn, hp⟩
    exact ⟨hn, pre, post, rfl, hp⟩

theorem delNode_eq {x : CStr} {pre post : List α} {n : α} (hn : name n = x) (hp : ∀ m ∈ pre, name m ≠ x) :
    delNode name x (pre ++ n :: post) = some (pre ++ post) := by
  induction pre with
  | nil => rw [List.nil_append, delNode, if_pos hn, List.nil_append]
  | cons m pre ih =>
    obtain ⟨hm, hp⟩ := List.forall_mem_cons.mp hp
    rw [List.cons_append, delNode, if_neg hm, ih hp, Option.map_some, List.cons_append]

/-- Deleting an entry that is in the list. -/
theorem delEntry_eq {x : CStr} {pre post : List α} {n : α} (hn : name n = x) (hp : ∀ m ∈ pre, name m ≠ x) :
    delEntry name x (pre ++ n :: post) = some (.ok (), pre ++ post) := by
  have hne : pre ++ n :: post ≠ [] := by simp
  rw [delEntry]
  · rw [delNode_eq hn hp]; rfl
  · exact hne

theorem setNode_eq {x : CStr} {pre post : List α} {n node : α} (hn : name n = x)
    (hp : ∀ m ∈ pre, name m ≠ x) : setNode name x node (pre ++ n :: post) = pre ++ node :: post := by
  induction pre with
  | nil => rw [List.nil_append, setNode, if_pos hn, List.nil_append]
  | cons m pre ih =>
    obtain ⟨hm, hp⟩ := List.forall_mem_cons.mp hp
    rw [List.cons_append, setNode, if_neg hm, ih hp, List.cons_append]

/-! ## The SAD list -/

/-- What `addSAD_entry` does: nothing to the list, or it appends the node it
read after sending two messages. -/
theorem addSadEntry_cases {e : AddSadEnv} {s s' : Store SadEntryNode} {it it' : SrChangeIter}
    {xpath x : CStr} {rc : Rc} (h : addSadEntry e s it xpath x = some (rc, it', s')) :
    (∃ err node, readSadEntry it xpath ((createSadNode e.node).setName x) = some (.error err, it', node) ∧
      rc = .error err ∧ s' = s) ∨
    ∃ node add get, readSadEntry it xpath ((createSadNode e.node).setName x) = some (.ok (), it', node) ∧
      pfAddsad e.add node = some add ∧ pfGetsad e.get node = some get ∧ rc = .ok () ∧
      s' = ⟨s.entries ++ [node], s.sent ++ [add, get]⟩ := by
  rw [addSadEntry] at h
  obtain ⟨⟨rc₀, it₀, node⟩, hread, h⟩ := Option.bind_eq_some_iff.mp h
  cases rc₀ with
  | error err => cases h; exact .inl ⟨err, node, hread, rfl, rfl⟩
  | ok u =>
    obtain ⟨add, hadd, h⟩ := Option.bind_eq_some_iff.mp h
    obtain ⟨get, hget, h⟩ := Option.bind_eq_some_iff.mp h
    cases h
    exact .inr ⟨node, add, get, hread, hadd, hget, rfl, rfl⟩

/-- Removing a name that is in the list, when its requests can be made. -/
theorem removeSadEntry_eq {e : RemoveSadEnv} {s : Store SadEntryNode} {x : CStr} {pre post : List SadEntryNode}
    {n : SadEntryNode} {get del : Bytes} (hs : s.entries = pre ++ n :: post) (hx : n.name = x)
    (hp : ∀ m ∈ pre, m.name ≠ x) (hget : pfGetsad e.get n = some get) (hdel : pfDelsad e.del n = some del) :
    removeSadEntry e s x = some (.ok (), ⟨pre ++ post, s.sent ++ [get, del]⟩) := by
  have hn : getSadNode s.entries x = some n := getNode_eq_some_iff.mpr ⟨pre, post, hs, hx, hp⟩
  have hdn : delSadNode x s.entries = some (.ok (), pre ++ post) := hs ▸ delEntry_eq hx hp
  rw [removeSadEntry, hn]
  simp only [hget, hdel, Store.send, hdn, Option.bind_eq_bind, Option.bind_some]
  rfl

/-- What `removeSAD_entry` does: it fails on an absent name, and deletes the
first entry of a present one after sending two messages. -/
theorem removeSadEntry_cases {e : RemoveSadEnv} {s s' : Store SadEntryNode} {x : CStr} {rc : Rc}
    (h : removeSadEntry e s x = some (rc, s')) :
    (getSadNode s.entries x = none ∧ rc = .error .operationFailed ∧ s' = s) ∨
    ∃ pre n post get del, getSadNode s.entries x = some n ∧ s.entries = pre ++ n :: post ∧
      n.name = x ∧ (∀ m ∈ pre, m.name ≠ x) ∧ pfGetsad e.get n = some get ∧ pfDelsad e.del n = some del ∧
      rc = .ok () ∧ s' = ⟨pre ++ post, s.sent ++ [get, del]⟩ := by
  have hr := h
  rw [removeSadEntry] at h
  cases hn : getSadNode s.entries x with
  | none =>
    rw [hn] at h
    cases h; exact .inl ⟨rfl, rfl, rfl⟩
  | some n =>
    rw [hn] at h
    obtain ⟨pre, post, hs, hx, hp⟩ := getNode_eq_some_iff.mp hn
    obtain ⟨get, hget, h⟩ := Option.bind_eq_some_iff.mp h
    obtain ⟨del, hdel, -⟩ := Option.bind_eq_some_iff.mp h
    rw [removeSadEntry_eq hs hx hp hget hdel] at hr
    cases hr
    exact .inr ⟨pre, n, post, get, del, rfl, hs, hx, hp, hget, hdel, rfl, rfl⟩

/-! ## The SPD list -/

/-- What `addSPD_entry` does: nothing for a name that is taken or an entry it
cannot read; else it appends the node it read, with the index its policy was
given. -/
theorem addSpdEntry_cases {e : AddSpdEnv} {s s' : Store SpdEntryNode} {it it' : SrChangeIter}
    {xpath x : CStr} {rc : Rc} (h : addSpdEntry e s it xpath x = some (rc, it', s')) :
    ((∃ n, getSpdNode s.entries x = some n) ∧ rc = .ok () ∧ it' = it ∧ s' = s) ∨
    (getSpdNode s.entries x = none ∧ ∃ err node,
      readSpdEntry it xpath ((createSpdNode e.node).setName x) = some (.error err, it', node) ∧
      rc = .error err ∧ s' = s) ∨
    (getSpdNode s.entries x = none ∧ ∃ node msgs node',
      readSpdEntry it xpath ((createSpdNode e.node).setName x) = some (.ok (), it', node) ∧
      addPolicies e node = some (msgs, node') ∧ rc = .ok () ∧
      s' = ⟨s.entries ++ [node'], s.sent ++ msgs⟩) := by
  rw [addSpdEntry] at h
  cases hn : getSpdNode s.entries x with
  | some n =>
    rw [hn] at h
    cases h
    exact .inl ⟨⟨n, rfl⟩, rfl, rfl, rfl⟩
  | none =>
    rw [hn] at h
    obtain ⟨⟨rc₀, it₀, node⟩, hread, h⟩ := Option.bind_eq_some_iff.mp h
    cases rc₀ with
    | error err => cases h; exact .inr (.inl ⟨rfl, err, node, hread, rfl, rfl⟩)
    | ok u =>
      obtain ⟨⟨msgs, node'⟩, hpol, h⟩ := Option.bind_eq_some_iff.mp h
      cases h
      exact .inr (.inr ⟨rfl, node, msgs, node', hread, hpol, rfl, rfl⟩)

/-- The requests leave the name of their node. -/
theorem delPolicies_name {e : RemoveSpdEnv} {n n' : SpdEntryNode} {msgs : List Bytes}
    (h : delPolicies e n = some (msgs, n')) : n'.name = n.name := by
  rw [delPolicies] at h
  obtain ⟨del, -, h⟩ := Option.bind_eq_some_iff.mp h
  split at h
  · obtain ⟨fwd, -, h⟩ := Option.bind_eq_some_iff.mp h
    cases h; rfl
  · cases h; rfl

/-- What `removeSPD_entry` does: it fails on an absent name, and deletes the
first entry of a present one after sending its messages. -/
theorem removeSpdEntry_cases {e : RemoveSpdEnv} {s s' : Store SpdEntryNode} {x : CStr} {rc : Rc}
    (h : removeSpdEntry e s x = some (rc, s')) :
    (getSpdNode s.entries x = none ∧ rc = .error .operationFailed ∧ s' = s) ∨
    ∃ pre n post msgs node, getSpdNode s.entries x = some n ∧ s.entries = pre ++ n :: post ∧
      n.name = x ∧ (∀ m ∈ pre, m.name ≠ x) ∧ delPolicies e n = some (msgs, node) ∧
      rc = .ok () ∧ s' = ⟨pre ++ post, s.sent ++ msgs⟩ := by
  rw [removeSpdEntry] at h
  cases hn : getSpdNode s.entries x with
  | none =>
    rw [hn] at h
    cases h; exact .inl ⟨rfl, rfl, rfl⟩
  | some n =>
    rw [hn] at h
    obtain ⟨pre, post, hs, hx, hp⟩ := getNode_eq_some_iff.mp hn
    obtain ⟨⟨msgs, node⟩, hdel, h⟩ := Option.bind_eq_some_iff.mp h
    have hname : node.name = x := (delPolicies_name hdel).trans hx
    have hdn : delSpdNode x (setNode (·.name) x node s.entries) = some (.ok (), pre ++ post) := by
      rw [hs, setNode_eq hx hp]; exact delEntry_eq hname hp
    simp only [Store.send, hdn, Option.bind_eq_bind, Option.bind_some] at h
    cases h
    exact .inr ⟨pre, n, post, msgs, node, rfl, hs, hx, hp, hdel, rfl, rfl⟩

end CfgIpsec.Proof
