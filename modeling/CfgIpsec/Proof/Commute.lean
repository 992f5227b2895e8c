import CfgIpsec.Proof.Databases
import CfgIpsec.Proof.Restart
import CfgIpsec.Spec.Commute

/-!
# Transactions in any order

A call on a list finds the first node of its name and changes the nodes of that
name only (`opsWithin_sad`, `opsWithin_spd`). Each callback makes such calls for
the entries of a transaction, of either database, so that the transaction stays
within their names, whether it is refused or not (`within_step`). Transactions
about different names may be taken in any order (`transactions_commute`).
-/

namespace CfgIpsec.Proof

open Impl Spec Footprint Run
open CStr (lit)

/-! ## Nodes of a name -/

section Nodes

variable {α : Type} {name : α → CStr} {x y : CStr} {entries pre post : List α} {n : α}

theorem getNode_eq_head (name : α → CStr) (entries : List α) (x : CStr) :
    getNode name entries x = (ofName name x entries).head? := List.head?_filter.symm

theorem ofName_append (name : α → CStr) (x : CStr) (entries more : List α) :
    ofName name x (entries ++ more) = ofName name x entries ++ ofName name x more := List.filter_append ..

theorem ofName_remove (hn : name n = x) (hp : ∀ m ∈ pre, name m ≠ x) :
    ofName name x (pre ++ n :: post) = n :: ofName name x (pre ++ post) := by
  have hnil : pre.filter (fun m => decide (name m = x)) = [] := by simpa using hp
  simp [ofName, hn, hnil]

theorem ofName_remove_ne (hn : name n ≠ x) : ofName name x (pre ++ n :: post) = ofName name x (pre ++ post) := by
  simp [ofName, hn]

/-- Lists with the same nodes of each name have the same nodes. -/
theorem perm_of_ofName {entries entries' : List α} (h : ∀ x, ofName name x entries = ofName name x entries') :
    entries.Perm entries' := by
  classical
  refine List.perm_iff_count.mpr fun n => ?_
  have hcount : ∀ l : List α, l.count n = (ofName name (name n) l).count n := fun l => by
    rw [ofName, List.count_filter (by simp)]
  exact (hcount entries).trans ((congrArg (·.count n) (h (name n))).trans (hcount entries').symm)

end Nodes

/-! ## Calls -/

section Calls

variable {α : Type} {name : α → CStr} {x : CStr} {s t : Store α}

theorem getNode_congr (h : (listView name).Agree {x} s t) : getNode name s.entries x = getNode name t.entries x := by
  have hx : ofName name x s.entries = ofName name x t.entries := h x rfl
  rw [getNode_eq_head, getNode_eq_head, hx]

theorem out_send (entries : List α) (sent msgs : List Bytes) :
    (listView name).out ⟨entries, sent ++ msgs⟩ = (sent : Multiset Bytes) + (msgs : Multiset Bytes) :=
  (Multiset.coe_add ..).symm

/-- A call that appends nodes of a name stays within it: it makes of any list, or
of any in which the name is not taken, what it makes of the empty list. -/
theorem within_add {f : Store α → Option (Rc × Store α)} (taken : Option α → Bool)
    (htaken : ∀ s, taken (getNode name s.entries x) = true → f s = some (.ok (), s))
    (hfree : ∀ s, taken (getNode name s.entries x) = false → f s = (f emptyStore).map fun r =>
      (r.1, ⟨s.entries ++ r.2.entries, s.sent ++ r.2.sent⟩))
    (hname : ∀ {rc s'}, f emptyStore = some (rc, s') → ∀ n ∈ s'.entries, name n = x) :
    (listView name).Within f {x} := by
  constructor
  · intro s s' rc h y hy
    cases ht : taken (getNode name s.entries x) with
    | true =>
      rw [htaken s ht] at h
      cases h
      rfl
    | false =>
      rw [hfree s ht] at h
      obtain ⟨r, hr, heq⟩ := Option.map_eq_some_iff.mp h
      cases heq
      have hnil : ofName name y r.2.entries = [] :=
        List.filter_eq_nil_iff.mpr fun n hn hny => hy ((of_decide_eq_true hny).symm.trans (hname hr n hn))
      exact (ofName_append ..).trans (by rw [hnil, List.append_nil]; rfl)
  · intro s t s' rc ha h
    have hget := getNode_congr ha
    cases ht : taken (getNode name s.entries x) with
    | true =>
      rw [htaken s ht] at h
      cases h
      exact ⟨t, 0, htaken t (hget ▸ ht), ha, (add_zero _).symm, (add_zero _).symm⟩
    | false =>
      rw [hfree s ht] at h
      obtain ⟨r, hr, heq⟩ := Option.map_eq_some_iff.mp h
      cases heq
      refine ⟨⟨t.entries ++ r.2.entries, t.sent ++ r.2.sent⟩, r.2.sent, ?_, ?_, out_send .., out_send ..⟩
      · rw [hfree t (hget ▸ ht), hr]
        rfl
      · rintro y rfl
        have hy : ofName name y s.entries = ofName name y t.entries := ha y rfl
        exact (ofName_append ..).trans ((congrArg (· ++ _) hy).trans (ofName_append ..).symm)

/-- A call that takes out the first node of a name stays within it: it fails
without one, and sends what depends on the node only. -/
theorem within_remove {f : Store α → Option (Rc × Store α)} (rc : Rc) (msgs : α → Option (List Bytes))
    (hnone : ∀ s, getNode name s.entries x = none → f s = some (rc, s))
    (hsome : ∀ s pre n post, s.entries = pre ++ n :: post → name n = x → (∀ m ∈ pre, name m ≠ x) →
      f s = (msgs n).map fun ms => (.ok (), ⟨pre ++ post, s.sent ++ ms⟩)) :
    (listView name).Within f {x} := by
  constructor
  · intro s s' rc' h y hy
    cases hn : getNode name s.entries x with
    | none =>
      rw [hnone s hn] at h
      cases h
      rfl
    | some n =>
      obtain ⟨pre, post, hs, hx, hp⟩ := getNode_eq_some_iff.mp hn
      rw [hsome s pre n post hs hx hp] at h
      obtain ⟨ms, -, heq⟩ := Option.map_eq_some_iff.mp h
      cases heq
      exact ((congrArg (ofName name y) hs).trans (ofName_remove_ne fun hny => hy (hny.symm.trans hx))).symm
  · intro s t s' rc' ha h
    have hget := getNode_congr ha
    cases hn : getNode name s.entries x with
    | none =>
      rw [hnone s hn] at h
      cases h
      exact ⟨t, 0, hnone t (hget ▸ hn), ha, (add_zero _).symm, (add_zero _).symm⟩
    | some n =>
      obtain ⟨pre, post, hs, hx, hp⟩ := getNode_eq_some_iff.mp hn
      obtain ⟨pre', post', ht, -, hp'⟩ := getNode_eq_some_iff.mp (hget ▸ hn)
      rw [hsome s pre n post hs hx hp] at h
      obtain ⟨ms, hms, heq⟩ := Option.map_eq_some_iff.mp h
      cases heq
      refine ⟨⟨pre' ++ post', t.sent ++ ms⟩, ms, ?_, ?_, out_send .., out_send ..⟩
      · rw [hsome t pre' n post' ht hx hp', hms]
        rfl
      · rintro y rfl
        have hy : ofName name y s.entries = ofName name y t.entries := ha y rfl
        rw [hs, ht, ofName_remove hx hp, ofName_remove hx hp'] at hy
        exact (List.cons.inj hy).2

end Calls

/-- Calls on a list stay within the name they are about. -/
structure OpsWithin {α ρ δ : Type} (name : α → CStr) (ops : EntryOps α ρ δ) : Prop where
  add (r : ρ) (it : SrChangeIter) (x y : CStr) :
    (listView name).Within (fun s => (ops.add r s it x y).map fun r => (r.1, r.2.2)) {y}
  remove (r : δ) (y : CStr) : (listView name).Within (fun s => ops.remove r s y) {y}

/-- `addSAD_entry` appends to a list what it makes of the empty one. -/
theorem addSadEntry_append (e : AddSadEnv) (s : Store SadEntryNode) (it : SrChangeIter) (xpath x : CStr) :
    addSadEntry e s it xpath x = (addSadEntry e emptyStore it xpath x).map fun r =>
      (r.1, r.2.1, ⟨s.entries ++ r.2.2.entries, s.sent ++ r.2.2.sent⟩) := by
  rw [addSadEntry, addSadEntry]
  rcases readSadEntry it xpath ((createSadNode e.node).setName x) with _ | ⟨_ | _, it', node⟩
  · rfl
  · simp [emptyStore]
  · simp only [Option.bind_eq_bind, Option.bind_some]
    cases pfAddsad e.add node with
    | none => rfl
    | some add => cases pfGetsad e.get node <;> rfl

/-- `addSPD_entry` appends to a list without the name what it makes of the empty
one. -/
theorem addSpdEntry_append (e : AddSpdEnv) {s : Store SpdEntryNode} (it : SrChangeIter) (xpath : CStr) {x : CStr}
    (h : (getSpdNode s.entries x).isSome = false) :
    addSpdEntry e s it xpath x = (addSpdEntry e emptyStore it xpath x).map fun r =>
      (r.1, r.2.1, ⟨s.entries ++ r.2.2.entries, s.sent ++ r.2.2.sent⟩) := by
  have hempty : (getSpdNode (emptyStore : Store SpdEntryNode).entries x).isSome = false := rfl
  rw [addSpdEntry, addSpdEntry, h, hempty, if_neg Bool.false_ne_true, if_neg Bool.false_ne_true]
  dsimp only
  rcases readSpdEntry it xpath ((createSpdNode e.node).setName x) with _ | ⟨_ | _, it', node⟩
  · rfl
  · simp [emptyStore]
  · simp only [Option.bind_eq_bind, Option.bind_some]
    cases addPolicies e node <;> rfl

theorem removeSadEntry_absent {e : RemoveSadEnv} {s : Store SadEntryNode} {x : CStr}
    (h : getSadNode s.entries x = none) : removeSadEntry e s x = some (.error .operationFailed, s) := by
  rw [removeSadEntry, h]

theorem removeSpdEntry_absent {e : RemoveSpdEnv} {s : Store SpdEntryNode} {x : CStr}
    (h : getSpdNode s.entries x = none) : removeSpdEntry e s x = some (.error .operationFailed, s) := by
  rw [removeSpdEntry, h]

/-- The requests `removeSAD_entry` makes for its node. -/
def removalRequests (e : RemoveSadEnv) (n : SadEntryNode) : Option (List Bytes) :=
  (pfGetsad e.get n).bind fun get => (pfDelsad e.del n).map fun del => [get, del]

theorem removeSadEntry_found {e : RemoveSadEnv} {s : Store SadEntryNode} {x : CStr} {pre post : List SadEntryNode}
    {n : SadEntryNode} (hs : s.entries = pre ++ n :: post) (hx : n.name = x) (hp : ∀ m ∈ pre, m.name ≠ x) :
    removeSadEntry e s x = (removalRequests e n).map fun ms => (.ok (), ⟨pre ++ post, s.sent ++ ms⟩) := by
  have hn : getSadNode s.entries x = some n := getNode_eq_some_iff.mpr ⟨pre, post, hs, hx, hp⟩
  rw [removalRequests]
  rcases hget : pfGetsad e.get n with _ | get
  · rw [removeSadEntry, hn]
    simp [hget]
  · rcases hdel : pfDelsad e.del n with _ | del
    · rw [removeSadEntry, hn]
      simp [hget, hdel]
    · rw [removeSadEntry_eq hs hx hp hget hdel]
      rfl

theorem removeSpdEntry_found {e : RemoveSpdEnv} {s : Store SpdEntryNode} {x : CStr} {pre post : List SpdEntryNode}
    {n : SpdEntryNode} (hs : s.entries = pre ++ n :: post) (hx : n.name = x) (hp : ∀ m ∈ pre, m.name ≠ x) :
    removeSpdEntry e s x = (delPolicies e n).map fun r => (.ok (), ⟨pre ++ post, s.sent ++ r.1⟩) := by
  have hn : getSpdNode s.entries x = some n := getNode_eq_some_iff.mpr ⟨pre, post, hs, hx, hp⟩
  rw [removeSpdEntry, hn]
  rcases hdel : delPolicies e n with _ | ⟨msgs, node⟩
  · simp [hdel]
  · have hdn : delSpdNode x (setNode (·.name) x node s.entries) = some (.ok (), pre ++ post) := by
      rw [hs, setNode_eq hx hp]
      exact delEntry_eq ((delPolicies_name hdel).trans hx) hp
    simp [hdel, hdn, Store.send]

theorem opsWithin_sad : OpsWithin (·.name) sadOps where
  add e it xpath x := by
    refine within_add (fun _ => false) (fun _ h => (by cases h)) (fun s _ => ?_) fun {rc s'} h => ?_
    · refine (congrArg _ (addSadEntry_append e s it xpath x)).trans ?_
      rw [Option.map_map, Option.map_map]
      rfl
    · obtain ⟨⟨rc, it', s₁⟩, hadd, heq⟩ := Option.map_eq_some_iff.mp h
      cases heq
      have hadd : addSadEntry e emptyStore it xpath x = some (rc, it', s₁) := hadd
      rcases addSadEntry_cases hadd with ⟨err, node, -, -, rfl⟩ | ⟨node, add, get, hread, -, -, -, rfl⟩
      · exact fun n hn => (by cases hn)
      · exact fun n hn => List.mem_singleton.mp hn ▸ readSadEntry_name hread
  remove e x := by
    refine within_remove (.error .operationFailed) (removalRequests e) (fun s hn => ?_) fun s pre n post hs hx hp => ?_
    · exact removeSadEntry_absent hn
    · exact removeSadEntry_found hs hx hp

theorem opsWithin_spd : OpsWithin (·.name) spdOps where
  add e it xpath x := by
    refine within_add Option.isSome (fun s h => ?_) (fun s h => ?_) fun {rc s'} h => ?_
    · exact (congrArg _ (if_pos h)).trans rfl
    · refine (congrArg _ (addSpdEntry_append e it xpath h)).trans ?_
      rw [Option.map_map, Option.map_map]
      rfl
    · obtain ⟨⟨rc, it', s₁⟩, hadd, heq⟩ := Option.map_eq_some_iff.mp h
      cases heq
      have hadd : addSpdEntry e emptyStore it xpath x = some (rc, it', s₁) := hadd
      rcases addSpdEntry_cases hadd with
        ⟨-, -, -, rfl⟩ | ⟨-, err, node, -, -, rfl⟩ | ⟨-, node, msgs, node', hread, hpol, -, rfl⟩
      · exact fun n hn => (by cases hn)
      · exact fun n hn => (by cases hn)
      · have hx : node'.name = x := (congrArg (·.name) (addPolicies_spec hpol).1).trans (readSpdEntry_name hread)
        exact fun n hn => List.mem_singleton.mp hn ▸ hx
  remove e x := by
    refine within_remove (.error .operationFailed) (fun n => (delPolicies e n).map Prod.fst) (fun s hn => ?_)
      fun s pre n post hs hx hp => ?_
    · exact removeSpdEntry_absent hn
    · refine (removeSpdEntry_found hs hx hp).trans ?_
      rw [Option.map_map]
      rfl

/-! ## Items -/

section Items

variable {xpath : CStr → CStr} {α ρ δ : Type} {ops : EntryOps α ρ δ} {name : α → CStr}

theorem within_apply (h : OpsWithin name ops) (e : CallbackEnv ρ δ) (i : Item xpath) :
    (listView name).Within (fun s => i.apply ops e s) {i.block.name} := by
  cases i with
  | created b => exact h.add ..
  | deleted b => exact h.remove ..

/-- What is done after an item: `next` goes on unless it failed. -/
def afterItem (next : Store α → Option (Rc × Store α)) : Rc → Store α → Option (Rc × Store α)
  | .ok _, s => next s
  | .error _, s => some (.error .operationFailed, s)

theorem applyThen_eq (e : CallbackEnv ρ δ) (s : Store α) (i : Item xpath) (next : Store α → Option (Rc × Store α)) :
    i.applyThen ops e s next = (i.apply ops e s).bind fun p => afterItem next p.1 p.2 := by
  rw [Item.applyThen]
  refine Option.bind_congr fun p _ => ?_
  rcases p with ⟨_ | _, s₁⟩ <;> rfl

theorem applyItems_cons (e : CallbackEnv ρ δ) (s : Store α) (i : Item xpath) (items : List (Item xpath)) :
    applyItems ops e s (i :: items) = (i.apply ops e s).bind fun p =>
      afterItem (fun s => applyItems ops e.next s items) p.1 p.2 :=
  applyThen_eq ..

theorem within_afterItem {next : Store α → Option (Rc × Store α)} {X : Set CStr} (h : (listView name).Within next X)
    (rc : Rc) : (listView name).Within (afterItem next rc) X := by
  cases rc with
  | ok u => exact h
  | error err => exact within_pure _

theorem within_applyItems (h : OpsWithin name ops) (e : CallbackEnv ρ δ) (items : List (Item xpath)) :
    (listView name).Within (fun s => applyItems ops e s items) {x | x ∈ itemNames items} := by
  induction items generalizing e with
  | nil => exact within_pure (Except.ok ())
  | cons i items ih =>
    have hhead : ({i.block.name} : Set CStr) ⊆ {x | x ∈ itemNames (i :: items)} :=
      Set.singleton_subset_iff.mpr List.mem_cons_self
    simp only [applyItems_cons]
    refine ((within_apply h e i).mono hhead).bind (within_afterItem ?_)
    exact (ih e.next).mono fun x hx => List.mem_cons_of_mem _ hx

/-- Entries of either database stay within their names. -/
theorem within_applyAll (h : OpsWithin name ops) (e : CallbackEnv ρ δ) (items : List DbItem) :
    (listView name).Within (fun s => applyAll ops e s items) {x | x ∈ items.map (·.item.block.name)} := by
  induction items generalizing e with
  | nil => exact within_pure (Except.ok ())
  | cons i items ih =>
    have hhead : ({i.item.block.name} : Set CStr) ⊆ {x | x ∈ (i :: items).map (·.item.block.name)} :=
      Set.singleton_subset_iff.mpr List.mem_cons_self
    simp only [applyAll, applyThen_eq]
    refine ((within_apply h e i.item).mono hhead).bind (within_afterItem ?_)
    exact (ih e.next).mono fun x hx => List.mem_cons_of_mem _ hx

end Items

/-! ## Transactions -/

section Told

variable {t : Transaction}

/-- The SPD callback applies all entries of the transaction, or is not called. -/
theorem within_tellSpd (hi : DbItems t.items) : (listView (·.name)).Within (t.tellSpd .change) {x | x ∈ t.names} := by
  have htell : t.tellSpd .change =
      fun s => if t.spd.isEmpty then some (.ok (), s) else applyAll spdOps t.spdCalls s t.items := by
    funext s
    rw [Transaction.tellSpd, Transaction.changes, spdEntryChangeCb_dbItems hi]
  rw [htell]
  cases t.spd.isEmpty with
  | true => exact within_pure (Except.ok ())
  | false => exact within_applyAll opsWithin_spd t.spdCalls t.items

theorem within_tellSad (hi : DbItems t.items) : (listView (·.name)).Within (t.tellSad .change) {x | x ∈ t.names} := by
  have htell : t.tellSad .change =
      fun s => if t.sad.isEmpty then some (.ok (), s) else applyAll sadOps t.sadCalls s t.items := by
    funext s
    rw [Transaction.tellSad, Transaction.changes, sadEntryChangeCb_dbItems hi]
  rw [htell]
  cases t.sad.isEmpty with
  | true => exact within_pure (Except.ok ())
  | false => exact within_applyAll opsWithin_sad t.sadCalls t.items

end Told

/-- The SPD callback, on the whole system. -/
def spdPart (t : Transaction) (s : System) : Option (Rc × System) :=
  (t.tellSpd .change s.spd).map fun p => (p.1, { s with spd := p.2 })

/-- The SAD callback, on the whole system. -/
def sadPart (t : Transaction) (s : System) : Option (Rc × System) :=
  (t.tellSad .change s.sad).map fun p => (p.1, { s with sad := p.2 })

/-- What is done when both callbacks were called. -/
def commitPart (t : Transaction) : Rc → System → Option (Unit × System)
  | .ok _, s => some ((), { s with config := s.config.commit t })
  | .error _, s => some ((), s)

/-- What is done when the SPD callback was called. -/
def afterSpd (t : Transaction) : Rc → System → Option (Unit × System)
  | .ok _, s => (sadPart t s).bind fun q => commitPart t q.1 q.2
  | .error _, s => some ((), s)

theorem stepOf_parts (t : Transaction) (s : System) :
    stepOf System.step t s = (spdPart t s).bind fun p => afterSpd t p.1 p.2 := by
  rw [stepOf, System.step, spdPart]
  rcases t.tellSpd .change s.spd with _ | ⟨_ | _, spd⟩
  · rfl
  · rfl
  · simp only [Option.bind_eq_bind, Option.bind_some, Option.map_some, afterSpd, sadPart]
    rcases t.tellSad .change s.sad with _ | ⟨_ | _, sad⟩
    · rfl
    · rw [Option.bind_some, tellSpd_of_ne (show SrEvent.abort ≠ .change by decide)]
      rfl
    · simp only [Option.bind_some, tellSpd_of_ne (show SrEvent.done ≠ .change by decide),
        tellSad_of_ne (show SrEvent.done ≠ .change by decide)]
      rfl

/-- What states that agree on a name hold of it. -/
theorem held_spd {X : Set CStr} {s u : System} {x : CStr} (h : systemView.Agree X s u) (hx : x ∈ X) :
    decide (x ∈ s.config.spd) = decide (x ∈ u.config.spd) ∧
      ofName (·.name) x s.spd.entries = ofName (·.name) x u.spd.entries :=
  Prod.mk.inj (Prod.mk.inj (h x hx)).1

theorem held_sad {X : Set CStr} {s u : System} {x : CStr} (h : systemView.Agree X s u) (hx : x ∈ X) :
    decide (x ∈ s.config.sad) = decide (x ∈ u.config.sad) ∧
      ofName (·.name) x s.sad.entries = ofName (·.name) x u.sad.entries :=
  Prod.mk.inj (Prod.mk.inj (h x hx)).2

theorem within_spdPart {t : Transaction} (hi : DbItems t.items) : systemView.Within (spdPart t) {x | x ∈ t.names} := by
  have h := within_tellSpd hi
  constructor
  · intro s s' rc hs x hx
    obtain ⟨⟨rc', spd⟩, hrun, heq⟩ := Option.map_eq_some_iff.mp hs
    cases heq
    exact congrArg (fun nodes => ((_, nodes), _)) (h.frame hrun x hx)
  · intro s u s' rc ha hs
    obtain ⟨⟨rc', spd⟩, hrun, heq⟩ := Option.map_eq_some_iff.mp hs
    cases heq
    have hagree : (listView (·.name)).Agree {x | x ∈ t.names} s.spd u.spd := fun x hx => (held_spd ha hx).2
    obtain ⟨spd', m, hrun', ha', hm, hm'⟩ := h.depends hagree hrun
    refine ⟨{ u with spd := spd' }, (m, 0), Option.map_eq_some_iff.mpr ⟨_, hrun', rfl⟩, fun x hx => ?_, ?_, ?_⟩
    · exact Prod.ext (Prod.ext (held_spd ha hx).1 (ha' x hx)) (Prod.mk.inj (ha x hx)).2
    · exact Prod.ext hm (add_zero _).symm
    · exact Prod.ext hm' (add_zero _).symm

theorem within_sadPart {t : Transaction} (hi : DbItems t.items) : systemView.Within (sadPart t) {x | x ∈ t.names} := by
  have h := within_tellSad hi
  constructor
  · intro s s' rc hs x hx
    obtain ⟨⟨rc', sad⟩, hrun, heq⟩ := Option.map_eq_some_iff.mp hs
    cases heq
    exact congrArg (fun nodes => (_, (_, nodes))) (h.frame hrun x hx)
  · intro s u s' rc ha hs
    obtain ⟨⟨rc', sad⟩, hrun, heq⟩ := Option.map_eq_some_iff.mp hs
    cases heq
    have hagree : (listView (·.name)).Agree {x | x ∈ t.names} s.sad u.sad := fun x hx => (held_sad ha hx).2
    obtain ⟨sad', m, hrun', ha', hm, hm'⟩ := h.depends hagree hrun
    refine ⟨{ u with sad := sad' }, (0, m), Option.map_eq_some_iff.mpr ⟨_, hrun', rfl⟩, fun x hx => ?_, ?_, ?_⟩
    · exact Prod.ext (Prod.mk.inj (ha x hx)).1 (Prod.ext (held_sad ha hx).1 (ha' x hx))
    · exact Prod.ext (add_zero _).symm hm
    · exact Prod.ext (add_zero _).symm hm'

/-- Whether an entry is configured after a commit depends on whether it was. -/
theorem mem_foldl_congr {xpath : CStr → CStr} {cfg cfg' : Finset CStr} {x : CStr} (items : List (Item xpath))
    (h : x ∈ cfg ↔ x ∈ cfg') : x ∈ items.foldl Item.commit cfg ↔ x ∈ items.foldl Item.commit cfg' := by
  induction items generalizing cfg cfg' with
  | nil => exact h
  | cons i items ih =>
    refine ih ?_
    cases i with
    | created b => rw [Item.commit, Item.commit, Finset.mem_insert, Finset.mem_insert, h]
    | deleted b => rw [Item.commit, Item.commit, Finset.mem_erase, Finset.mem_erase, h]

/-- The entries of a transaction in one of the databases are among its entries. -/
theorem itemNames_subset (t : Transaction) : itemNames t.spd ⊆ t.names ∧ itemNames t.sad ⊆ t.names := by
  constructor
  all_goals
    intro x hx
    obtain ⟨i, hi, rfl⟩ := List.mem_map.mp hx
    obtain ⟨⟨db, j⟩, hj, hij⟩ := List.mem_filterMap.mp hi
    cases db <;> cases hij
    exact List.mem_map_of_mem (f := (·.item.block.name)) hj

theorem within_commitPart (t : Transaction) (rc : Rc) : systemView.Within (commitPart t rc) {x | x ∈ t.names} := by
  cases rc with
  | error err => exact within_pure ()
  | ok u =>
    constructor
    · intro s s' r hs x hx
      cases hs
      have hspd : x ∈ (s.config.commit t).spd ↔ x ∈ s.config.spd :=
        mem_foldl_commit fun h => hx ((itemNames_subset t).1 h)
      have hsad : x ∈ (s.config.commit t).sad ↔ x ∈ s.config.sad :=
        mem_foldl_commit fun h => hx ((itemNames_subset t).2 h)
      exact Prod.ext (Prod.ext (decide_eq_decide.mpr hspd) rfl) (Prod.ext (decide_eq_decide.mpr hsad) rfl)
    · intro s u s' r ha hs
      cases hs
      refine ⟨{ u with config := u.config.commit t }, 0, rfl, fun x hx => ?_, (add_zero _).symm, (add_zero _).symm⟩
      obtain ⟨hspd, hspdNodes⟩ := held_spd ha hx
      obtain ⟨hsad, hsadNodes⟩ := held_sad ha hx
      have hspd' := mem_foldl_congr t.spd (decide_eq_decide.mp hspd)
      have hsad' := mem_foldl_congr t.sad (decide_eq_decide.mp hsad)
      exact Prod.ext (Prod.ext (decide_eq_decide.mpr hspd') hspdNodes)
        (Prod.ext (decide_eq_decide.mpr hsad') hsadNodes)

/-- A transaction stays within the names of its entries. -/
theorem within_step {t : Transaction} (hi : DbItems t.items) :
    systemView.Within (stepOf System.step t) {x | x ∈ t.names} := by
  simp only [funext (stepOf_parts t)]
  refine (within_spdPart hi).bind fun rc => ?_
  cases rc with
  | error err => exact within_pure ()
  | ok u => exact (within_sadPart hi).bind (within_commitPart t)

/-- States that are the same name by name. -/
theorem sameByName {s t : System} (h : systemView.Same s t) : SameByName s t := by
  have hspd := fun x => held_spd (h.agree .univ) (Set.mem_univ x)
  have hsad := fun x => held_sad (h.agree .univ) (Set.mem_univ x)
  obtain ⟨hspdSent, hsadSent⟩ := Prod.mk.inj h.out
  refine ⟨?_, ⟨perm_of_ofName fun x => (hspd x).2, fun x => (hspd x).2, Multiset.coe_eq_coe.mp hspdSent⟩,
    ⟨perm_of_ofName fun x => (hsad x).2, fun x => (hsad x).2, Multiset.coe_eq_coe.mp hsadSent⟩⟩
  exact congrArg₂ Config.mk (Finset.ext fun x => decide_eq_decide.mp (hspd x).1)
    (Finset.ext fun x => decide_eq_decide.mp (hsad x).1)

/-- Transactions about entries of different names, of either database or both,
may be taken in any order, and any of them may be refused: the configuration
they leave is the same, and the lists have the same nodes, for which the same
messages were sent. -/
theorem transactions_commute {ts us : List Transaction} (hp : ts.Perm us) (hi : ∀ t ∈ ts, DbItems t.items)
    (ha : ts.Pairwise Apart) {s s' : System} (h : run System.step ts s = some s') :
    ∃ s'', run System.step us s = some s'' ∧ SameByName s' s'' := by
  obtain ⟨s'', h', hsame⟩ := run_perm hp (fun t ht => within_step (hi t ht)) ha h
  exact ⟨s'', h', sameByName hsame⟩

/-- A transaction that creates the policy `new` and deletes `gw`. -/
def newForGw : Transaction :=
  ⟨[⟨.spd, .created (spdBlockOf (lit "new"))⟩, ⟨.spd, .deleted (spdBlockOf (lit "gw"))⟩], spdCalls, sadCalls⟩

/-- The policy `gw` is configured when the daemon starts, so that the deletion
is refused; a policy and an SA are created afterwards. -/
def refusedThenBoth : System :=
  (run System.step [newForGw, creation [spdBlockOf (lit "a")] [sadBlockOf (lit "b")]] (.startOn ⟨{lit "gw"}, ∅⟩)).get
    (by decide +kernel)

/-- They may as well be created before. -/
theorem transactions_commute_refused :
    ∃ s, run System.step [creation [spdBlockOf (lit "a")] [sadBlockOf (lit "b")], newForGw]
        (.startOn ⟨{lit "gw"}, ∅⟩) = some s ∧ SameByName refusedThenBoth s := by
  have hrefused : DbItems newForGw.items := ⟨by decide +kernel, by decide +kernel, by decide +kernel⟩
  have hboth : DbItems (creation [spdBlockOf (lit "a")] [sadBlockOf (lit "b")]).items :=
    ⟨by decide +kernel, by decide +kernel, by decide +kernel⟩
  have hapart : Apart newForGw (creation [spdBlockOf (lit "a")] [sadBlockOf (lit "b")]) := by
    unfold Apart
    decide +kernel
  refine transactions_commute (.swap ..) ?_ ?_ (Option.some_get _).symm
  · simpa using ⟨hrefused, hboth⟩
  · simpa using hapart

end CfgIpsec.Proof
