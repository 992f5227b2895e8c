import CfgIpsec.Proof.Blocks
import CfgIpsec.Spec.Databases

/-!
# Batches of created and deleted entries

What a callback makes of a batch is that its entries are applied one after the
other, each as by itself, up to the first that fails (`changeLoop_items`). An
entry that fails leaves the list as it was; those before it stay applied.
-/

namespace CfgIpsec.Proof

open Impl Spec
open CStr (lit)

/-! ## Entries of the module -/

theorem quoted_entryXpath (db : Database) : Quoted db.entryXpath := by
  cases db with
  | spd => exact quoted_spd
  | sad => exact quoted_sad

/-- Before the names, the xpaths of the databases differ. -/
theorem take_entryXpath (db : Database) (x : CStr) :
    (db.entryXpath x).bytes.take 38 = (lit "/ietf-i2nsf-ikeless:ipsec-ikeless/").bytes ++
      (match db with | .spd => lit "spd/" | .sad => lit "sad/").bytes := by
  cases db with
  | spd =>
    rw [Database.entryXpath, bytes_spdEntryXpath, List.take_append_of_le_length (by decide +kernel)]
    decide +kernel
  | sad =>
    rw [Database.entryXpath, bytes_sadEntryXpath, List.take_append_of_le_length (by decide +kernel)]
    decide +kernel

/-- No xpath of an entry of the module starts another's. -/
theorem startsWith_entryXpath {db db' : Database} {x y : CStr} (hx : (0x27 : Byte) ∉ x.bytes)
    (hy : (0x27 : Byte) ∉ y.bytes) (h : startsWith (db'.entryXpath y) (db.entryXpath x) = true) :
    (db, x) = (db', y) := by
  have hdb : db = db' := by
    obtain ⟨t, ht⟩ := List.isPrefixOf_iff_prefix.mp h
    have hlen : 38 ≤ (db.entryXpath x).bytes.length := by
      have hmin : min 38 (db.entryXpath x).bytes.length = 38 := by
        rw [← List.length_take, take_entryXpath]
        cases db <;> decide +kernel
      omega
    have htake := congrArg (List.take 38) ht
    rw [List.take_append_of_le_length hlen, take_entryXpath, take_entryXpath, List.append_cancel_left_eq] at htake
    revert htake
    cases db <;> cases db' <;> decide +kernel
  subst hdb
  rw [(quoted_entryXpath db).eq_of_startsWith hx hy h]

/-- A change of another entry's list instance ends the block of an item. -/
theorem ends_dbItem {i i' : DbItem} (hi : (0x27 : Byte) ∉ i.item.block.name.bytes)
    (hi' : (0x27 : Byte) ∉ i'.item.block.name.bytes) (hne : i.key ≠ i'.key) (items : List DbItem) :
    Ends (i.db.entryXpath i.item.block.name) ((i' :: items).flatMap DbItem.changes) := by
  have hv : startsWith (i'.db.entryXpath i'.item.block.name) (i.db.entryXpath i.item.block.name) = false := by
    rw [← Bool.not_eq_true]
    exact fun h => hne (startsWith_entryXpath hi hi' h)
  rw [List.flatMap_cons]
  obtain ⟨db, b | b⟩ := i'
  · exact .other (v := b.listValue) rfl hv _
  · exact .other (v := b.listValue) rfl hv _

section Loop

variable {α ρ δ : Type} {xpath : CStr → CStr} {ops : EntryOps α ρ δ}

/-- The changes at the start of an iterator are passed over, when each is one
that does nothing at a value of an entry. -/
theorem changeLoop_skip {values : List SrVal} {op : SrVal → SrChange} {pre it : SrChangeIter} {e : CallbackEnv ρ δ}
    {s : Store α} {fuel : Nat} (hop : ∀ v ∈ values, ∀ e s it, applyChange ops e s it (op v) = some (none, it, s))
    (hpre : pre <:+ values.map fun v => .ok (op v)) (hf : (pre ++ it).length < fuel) :
    ∃ fuel', it.length < fuel' ∧ changeLoop ops fuel e s (pre ++ it) = changeLoop ops fuel' e s it := by
  induction pre generalizing fuel with
  | nil => exact ⟨fuel, hf, rfl⟩
  | cons r pre ih =>
    obtain ⟨v, hv, rfl⟩ := List.mem_map.mp (hpre.mem List.mem_cons_self)
    rw [List.cons_append, List.length_cons] at hf
    obtain ⟨fuel, rfl⟩ : ∃ k, fuel = k + 1 := ⟨fuel - 1, by omega⟩
    rw [List.cons_append, changeLoop, srGetChangeNext]
    simp only [hop v hv, Option.bind_eq_bind, Option.bind_some]
    exact ih ((List.suffix_cons _ pre).trans hpre) (by omega)

/-- The turn at the name of a created entry, and past what adding leaves of its
block. -/
theorem changeLoop_created_name {b : Block xpath} {tail : SrChangeIter} {e : CallbackEnv ρ δ} {s : Store α}
    {fuel : Nat} (hstop : StopsAt b fun it => ops.add (e.add 0) s it (xpath b.name) b.name)
    (hv : ∀ v ∈ b.values, endsInName v.xpath = some false) (ht : Ends (xpath b.name) tail)
    (hf : (.ok b.nameValue.created :: (b.body ++ tail) : SrChangeIter).length < fuel) :
    ∃ fuel' it', (it' = tail ∨ it' = tail.tail) ∧ it'.length < fuel' ∧
      changeLoop ops fuel e s (.ok b.nameValue.created :: (b.body ++ tail)) =
        (Item.created b).applyThen ops e s fun s => changeLoop ops fuel' e.next s it' := by
  obtain ⟨fuel, rfl⟩ : ∃ k, fuel = k + 1 := ⟨fuel - 1, by omega⟩
  rw [List.length_cons, List.length_append] at hf
  rw [changeLoop, srGetChangeNext]
  simp only [applyChange_created_name, Item.applyThen, Item.apply]
  cases hadd : ops.add (e.add 0) s b.body (xpath b.name) b.name with
  | none => exact ⟨fuel, tail, .inl rfl, by omega, by rw [hstop.none ht hadd]; rfl⟩
  | some r =>
    obtain ⟨rc, it, s'⟩ := r
    obtain ⟨hsuf, it', hit', hadd'⟩ := hstop.some ht hadd
    have hlen := hsuf.length_le
    rw [hadd']
    cases rc with
    | error err => exact ⟨fuel, tail, .inl rfl, by omega, rfl⟩
    | ok u =>
      rcases hit' with rfl | ⟨rfl, rfl⟩
      · obtain ⟨fuel', hf', heq⟩ := changeLoop_skip (e := e.next) (s := s')
          (fun v hmem e s it => applyChange_created e s it (hv v hmem)) hsuf
          (show (it ++ tail).length < fuel by rw [List.length_append]; omega)
        exact ⟨fuel', tail, .inl rfl, hf', heq⟩
      · exact ⟨fuel, tail.tail, .inr rfl, by rw [List.length_tail]; omega, rfl⟩

/-- The turn at the name of a deleted entry, and past its other changes. -/
theorem changeLoop_deleted_name {b : Block xpath} {it tail : SrChangeIter} {e : CallbackEnv ρ δ} {s : Store α}
    {fuel : Nat} (hv : ∀ v ∈ b.values, endsInName v.xpath = some false)
    (hit : it = b.values.map fun v => .ok v.deleted)
    (hf : (.ok b.nameValue.deleted :: (it ++ tail) : SrChangeIter).length < fuel) :
    ∃ fuel', tail.length < fuel' ∧
      changeLoop ops fuel e s (.ok b.nameValue.deleted :: (it ++ tail)) =
        (Item.deleted b).applyThen ops e s fun s => changeLoop ops fuel' e.next s tail := by
  obtain ⟨fuel, rfl⟩ : ∃ k, fuel = k + 1 := ⟨fuel - 1, by omega⟩
  rw [List.length_cons, List.length_append] at hf
  rw [changeLoop, srGetChangeNext]
  simp only [applyChange_deleted_name, Item.applyThen, Item.apply]
  rcases ops.remove (e.remove 0) s b.name with _ | ⟨err | u, s'⟩
  · exact ⟨fuel, by omega, rfl⟩
  · exact ⟨fuel, by omega, rfl⟩
  · obtain ⟨fuel', hf', heq⟩ := changeLoop_skip (e := e.next) (s := s')
      (fun v hmem e s it => applyChange_deleted e s it (hv v hmem)) (hit ▸ List.suffix_rfl)
      (show (it ++ tail).length < fuel by rw [List.length_append]; omega)
    exact ⟨fuel', hf', heq⟩

/-- From the start of an item, or past its list instance, the callback applies
the item, and goes on at the next one or past its list instance. -/
theorem changeLoop_item (hq : Quoted xpath) {i : Item xpath} {it tail : SrChangeIter} {e : CallbackEnv ρ δ}
    {s : Store α} {fuel : Nat}
    (hstop : ∀ b : Block xpath, StopsAt b fun it => ops.add (e.add 0) s it (xpath b.name) b.name)
    (hv : ∀ v ∈ i.block.values, endsInName v.xpath = some false) (ht : Ends (xpath i.block.name) tail)
    (hit : it = i.changes ++ tail ∨ it = i.changes.tail ++ tail) (hf : it.length < fuel) :
    ∃ fuel' it', (it' = tail ∨ it' = tail.tail) ∧ it'.length < fuel' ∧
      changeLoop ops fuel e s it = i.applyThen ops e s fun s => changeLoop ops fuel' e.next s it' := by
  have hlist : endsInName i.block.listValue.xpath = some false := hq.not_name i.block.name
  cases i with
  | created b =>
    rcases hit with rfl | rfl
    · obtain ⟨fuel, rfl⟩ : ∃ k, fuel = k + 1 := ⟨fuel - 1, by omega⟩
      obtain ⟨fuel', it', hit', hf', heq⟩ := changeLoop_created_name (hstop b) hv ht
        (show _ < fuel from Nat.lt_of_succ_lt_succ hf)
      refine ⟨fuel', it', hit', hf', ?_⟩
      rw [← heq, Item.changes, Block.changes, List.cons_append, changeLoop, srGetChangeNext]
      simp only [applyChange_created e s _ (show endsInName b.listValue.xpath = some false from hlist)]
      rfl
    · exact changeLoop_created_name (hstop b) hv ht hf
  | deleted b =>
    rcases hit with rfl | rfl
    · obtain ⟨fuel, rfl⟩ : ∃ k, fuel = k + 1 := ⟨fuel - 1, by omega⟩
      obtain ⟨fuel', hf', heq⟩ := changeLoop_deleted_name (b := b) (e := e) (s := s) hv rfl
        (show _ < fuel from Nat.lt_of_succ_lt_succ hf)
      refine ⟨fuel', tail, .inl rfl, hf', ?_⟩
      rw [← heq, Item.changes, Block.removal, List.cons_append, changeLoop, srGetChangeNext]
      simp only [applyChange_deleted e s _ (show endsInName b.listValue.xpath = some false from hlist)]
      rfl
    · obtain ⟨fuel', hf', heq⟩ := changeLoop_deleted_name (b := b) (e := e) (s := s) hv rfl hf
      exact ⟨fuel', tail, .inl rfl, hf', heq⟩

/-- The callback applies the items of a batch, of whichever database. -/
theorem changeLoop_dbItems
    (hstop : ∀ r s db (b : Block (Database.entryXpath db)), StopsAt b fun it => ops.add r s it (db.entryXpath b.name) b.name)
    {items : List DbItem} {e : CallbackEnv ρ δ} {s : Store α} {it : SrChangeIter} {fuel : Nat} (hi : DbItems items)
    (hit : it = items.flatMap DbItem.changes ∨ it = (items.flatMap DbItem.changes).tail) (hf : it.length < fuel) :
    changeLoop ops fuel e s it = applyAll ops e s items := by
  induction items generalizing e s it fuel with
  | nil =>
    obtain ⟨fuel, rfl⟩ : ∃ k, fuel = k + 1 := ⟨fuel - 1, by omega⟩
    rcases hit with rfl | rfl <;> rfl
  | cons i items ih =>
    obtain ⟨hqi, hquote⟩ := List.forall_mem_cons.mp hi.noQuote
    obtain ⟨hki, hkeys⟩ := List.nodup_cons.mp (List.map_cons ▸ hi.keys)
    obtain ⟨hvi, hvalues⟩ := List.forall_mem_cons.mp hi.values
    have hends : Ends (i.db.entryXpath i.item.block.name) (items.flatMap DbItem.changes) := by
      rcases items with _ | ⟨i', items⟩
      · exact .nil
      · have hne : i.key ≠ i'.key := fun heq => hki (heq ▸ List.mem_map_of_mem List.mem_cons_self)
        exact ends_dbItem hqi (hquote i' List.mem_cons_self) hne _
    have hcons : it = i.item.changes ++ items.flatMap DbItem.changes ∨
        it = i.item.changes.tail ++ items.flatMap DbItem.changes := by
      rw [List.flatMap_cons, DbItem.changes] at hit
      rcases i with ⟨db, b | b⟩ <;> exact hit
    obtain ⟨fuel', it', hit', hf', heq⟩ :=
      changeLoop_item (quoted_entryXpath i.db) (hstop (e.add 0) s i.db) hvi hends hcons hf
    rw [heq, applyAll]
    congr 1
    funext s'
    exact ih ⟨hquote, hkeys, hvalues⟩ hit' hf'

/-- The callback applies the items of a batch. -/
theorem changeLoop_items (db : Database)
    (hstop : ∀ r s db (b : Block (Database.entryXpath db)), StopsAt b fun it => ops.add r s it (db.entryXpath b.name) b.name)
    {items : List (Item db.entryXpath)} {e : CallbackEnv ρ δ} {s : Store α} {fuel : Nat} (hi : Items items)
    (hf : (items.flatMap Item.changes).length < fuel) :
    changeLoop ops fuel e s (items.flatMap Item.changes) = applyItems ops e s items := by
  have hchanges : items.flatMap Item.changes = (items.map (DbItem.mk db)).flatMap DbItem.changes := by
    rw [List.flatMap_map]; rfl
  have happly : applyAll ops e s (items.map (DbItem.mk db)) = applyItems ops e s items := by
    clear hi hf hchanges
    induction items generalizing e s with
    | nil => rfl
    | cons i items ih => simp only [List.map_cons, applyAll, applyItems, ih]
  rw [← happly, hchanges]
  rw [hchanges] at hf
  refine changeLoop_dbItems hstop ⟨?_, ?_, ?_⟩ (.inl rfl) hf
  · simpa using hi.noQuote
  · rw [List.map_map]
    have := hi.names.map (Prod.mk_right_injective db)
    rwa [List.map_map] at this
  · simpa using hi.values

/-- What adding and removing make of a list: nothing when they fail. -/
structure ChangesNames (name : α → CStr) (adds : CStr → List CStr → List CStr) (ops : EntryOps α ρ δ) : Prop where
  add_ok {r : ρ} {s s' : Store α} {it it' : SrChangeIter} {x y : CStr} :
    ops.add r s it x y = some (.ok (), it', s') → s'.entries.map name = adds y (s.entries.map name)
  add_error {r : ρ} {s s' : Store α} {it it' : SrChangeIter} {x y : CStr} {err : SrError} :
    ops.add r s it x y = some (.error err, it', s') → s' = s
  remove_ok {r : δ} {s s' : Store α} {y : CStr} :
    ops.remove r s y = some (.ok (), s') → s'.entries.map name = (s.entries.map name).erase y
  remove_error {r : δ} {s s' : Store α} {y : CStr} {err : SrError} :
    ops.remove r s y = some (.error err, s') → s' = s

variable {name : α → CStr} {adds : CStr → List CStr → List CStr}

theorem apply_ok (h : ChangesNames name adds ops) {i : Item xpath} {e : CallbackEnv ρ δ} {s s' : Store α}
    (hi : i.apply ops e s = some (.ok (), s')) :
    s'.entries.map name = i.namesAfter adds (s.entries.map name) := by
  cases i with
  | created b =>
    obtain ⟨⟨rc, it, s₁⟩, hadd, heq⟩ := Option.map_eq_some_iff.mp hi
    cases heq
    exact h.add_ok hadd
  | deleted b => exact h.remove_ok hi

theorem apply_error (h : ChangesNames name adds ops) {i : Item xpath} {e : CallbackEnv ρ δ} {s s' : Store α}
    {err : SrError} (hi : i.apply ops e s = some (.error err, s')) : s' = s := by
  cases i with
  | created b =>
    obtain ⟨⟨rc, it, s₁⟩, hadd, heq⟩ := Option.map_eq_some_iff.mp hi
    cases heq
    exact h.add_error hadd
  | deleted b => exact h.remove_error hi

/-- Of the items those before the first that fails are applied. -/
theorem applyItems_done (h : ChangesNames name adds ops) {items : List (Item xpath)} {e : CallbackEnv ρ δ}
    {s s' : Store α} {rc : Rc} (hr : applyItems ops e s items = some (rc, s')) :
    ∃ done, done <+: items ∧ applyItems ops e s done = some (.ok (), s') ∧
      s'.entries.map name = done.foldl (Item.namesAfter adds) (s.entries.map name) ∧
      (done = items ∧ rc = .ok () ∨ done ≠ items ∧ rc = .error .operationFailed) := by
  induction items generalizing e s with
  | nil => cases hr; exact ⟨[], List.prefix_rfl, rfl, rfl, .inl ⟨rfl, rfl⟩⟩
  | cons i items ih =>
    obtain ⟨⟨rc₁, s₁⟩, hi, hr⟩ := Option.bind_eq_some_iff.mp hr
    cases rc₁ with
    | ok u =>
      obtain ⟨done, hpre, hdone, hnames, hrc⟩ := ih hr
      refine ⟨i :: done, List.cons_prefix_cons.mpr ⟨rfl, hpre⟩, ?_, ?_, ?_⟩
      · exact Option.bind_eq_some_iff.mpr ⟨_, hi, hdone⟩
      · rw [hnames, apply_ok h hi, List.foldl_cons]
      · simpa using hrc
    | error err =>
      cases hr
      obtain rfl := apply_error h hi
      exact ⟨[], List.nil_prefix, rfl, rfl, .inr ⟨(List.cons_ne_nil _ _).symm, rfl⟩⟩

end Loop

/-! ## The lists -/

/-- Taking the first node of a name out takes out the first of its name. -/
theorem map_name_erase {α : Type} {name : α → CStr} {pre post : List α} {n : α} {x : CStr} (hx : name n = x)
    (hp : ∀ m ∈ pre, name m ≠ x) :
    (pre ++ post).map name = ((pre ++ n :: post).map name).erase x := by
  rw [List.map_append, List.map_append, List.map_cons, hx, List.erase_append_right, List.erase_cons_head]
  simpa using hp

theorem changesNames_sad : ChangesNames (·.name) sadAdds sadOps where
  add_ok {r s s' it it' x y} h := by
    rcases addSadEntry_cases h with ⟨err, node, -, hrc, -⟩ | ⟨node, add, get, hread, -, -, -, rfl⟩
    · cases hrc
    · rw [List.map_append, List.map_singleton, readSadEntry_name hread]; rfl
  add_error {r s s' it it' x y err} h := by
    rcases addSadEntry_cases h with ⟨err, node, -, -, rfl⟩ | ⟨node, add, get, -, -, -, hrc, -⟩
    · rfl
    · cases hrc
  remove_ok {r s s' y} h := by
    rcases removeSadEntry_cases h with ⟨-, hrc, -⟩ | ⟨pre, n, post, get, del, -, hs, hx, hp, -, -, -, rfl⟩
    · cases hrc
    · rw [hs]; exact map_name_erase hx hp
  remove_error {r s s' y err} h := by
    rcases removeSadEntry_cases h with ⟨-, -, rfl⟩ | ⟨pre, n, post, get, del, -, -, -, -, -, -, hrc, -⟩
    · rfl
    · cases hrc

theorem changesNames_spd : ChangesNames (·.name) spdAdds spdOps where
  add_ok {r s s' it it' x y} h := by
    rcases addSpdEntry_cases h with
      ⟨⟨n, hn⟩, -, -, rfl⟩ | ⟨-, err, node, -, hrc, -⟩ | ⟨hn, node, msgs, node', hread, hpol, -, rfl⟩
    · obtain ⟨pre, post, hs, hx, -⟩ := getNode_eq_some_iff.mp hn
      rw [spdAdds, if_pos]
      rw [hs, ← hx]
      simp
    · cases hrc
    · have hfresh : y ∉ s.entries.map (·.name) := by
        simpa using getNode_eq_none_iff.mp hn
      have hy : node'.name = y := (congrArg (·.name) (addPolicies_spec hpol).1).trans (readSpdEntry_name hread)
      rw [spdAdds, if_neg hfresh, List.map_append, List.map_singleton, hy]
  add_error {r s s' it it' x y err} h := by
    rcases addSpdEntry_cases h with
      ⟨-, hrc, -, -⟩ | ⟨-, err, node, -, -, rfl⟩ | ⟨-, node, msgs, node', -, -, hrc, -⟩
    · cases hrc
    · rfl
    · cases hrc
  remove_ok {r s s' y} h := by
    rcases removeSpdEntry_cases h with ⟨-, hrc, -⟩ | ⟨pre, n, post, msgs, node, -, hs, hx, hp, -, -, rfl⟩
    · cases hrc
    · rw [hs]; exact map_name_erase hx hp
  remove_error {r s s' y err} h := by
    rcases removeSpdEntry_cases h with ⟨-, -, rfl⟩ | ⟨pre, n, post, msgs, node, -, -, -, -, -, hrc, -⟩
    · rfl
    · cases hrc

theorem sadEntryChangeCb_items {items : List (Item sadEntryXpath)} (hi : Items items)
    (e : CallbackEnv AddSadEnv RemoveSadEnv) (s : Store SadEntryNode) :
    sadEntryChangeCb .change (.ok (items.flatMap Item.changes)) e s = applyItems sadOps e s items := by
  rw [sadEntryChangeCb, entryChangeCb, if_pos rfl]
  exact changeLoop_items .sad (fun r s _ => stopsAt_addSad r s) hi (Nat.lt_succ_self _)

theorem spdEntryChangeCb_items {items : List (Item spdEntryXpath)} (hi : Items items)
    (e : CallbackEnv AddSpdEnv RemoveSpdEnv) (s : Store SpdEntryNode) :
    spdEntryChangeCb .change (.ok (items.flatMap Item.changes)) e s = applyItems spdOps e s items := by
  rw [spdEntryChangeCb, entryChangeCb, if_pos rfl]
  exact changeLoop_items .spd (fun r s _ => stopsAt_addSpd r s) hi (Nat.lt_succ_self _)

/-- A callback applies the entries of a batch one after the other, each as by
itself, up to the first that fails: it then reports `SR_ERR_OPERATION_FAILED`,
and the list is as those before that entry left it. -/
theorem callback_batch :
    (∀ {e s} {items : List (Item sadEntryXpath)}, Items items →
      sadEntryChangeCb .change (.ok (items.flatMap Item.changes)) e s = applyItems sadOps e s items ∧
      ∀ {rc s'}, applyItems sadOps e s items = some (rc, s') →
        ∃ done, done <+: items ∧ applyItems sadOps e s done = some (.ok (), s') ∧
          s'.entries.map (·.name) = done.foldl (Item.namesAfter sadAdds) (s.entries.map (·.name)) ∧
          (done = items ∧ rc = .ok () ∨ done ≠ items ∧ rc = .error .operationFailed)) ∧
    ∀ {e s} {items : List (Item spdEntryXpath)}, Items items →
      spdEntryChangeCb .change (.ok (items.flatMap Item.changes)) e s = applyItems spdOps e s items ∧
      ∀ {rc s'}, applyItems spdOps e s items = some (rc, s') →
        ∃ done, done <+: items ∧ applyItems spdOps e s done = some (.ok (), s') ∧
          s'.entries.map (·.name) = done.foldl (Item.namesAfter spdAdds) (s.entries.map (·.name)) ∧
          (done = items ∧ rc = .ok () ∨ done ≠ items ∧ rc = .error .operationFailed) := by
  exact ⟨fun hi => ⟨sadEntryChangeCb_items hi _ _, applyItems_done changesNames_sad⟩,
    fun hi => ⟨spdEntryChangeCb_items hi _ _, applyItems_done changesNames_spd⟩⟩

theorem callback_batch_gw :
    (∃ s, sadEntryChangeCb .change (.ok ([Item.created (sadBlockOf (lit "gw"))].flatMap Item.changes)) sadCalls
        emptyStore = some (.ok (), s) ∧ s.entries.map (·.name) = [lit "gw"]) ∧
    ∃ s, spdEntryChangeCb .change (.ok ([Item.created (spdBlockOf (lit "gw"))].flatMap Item.changes)) spdCalls
        emptyStore = some (.ok (), s) ∧ s.entries.map (·.name) = [lit "gw"] := by
  constructor
  · obtain ⟨hcb, hdone⟩ := callback_batch.1 (e := sadCalls) (s := emptyStore)
      (⟨by decide +kernel, by decide +kernel, by decide +kernel⟩ : Items [Item.created (sadBlockOf (lit "gw"))])
    have hrun : (applyItems sadOps sadCalls emptyStore [Item.created (sadBlockOf (lit "gw"))]).any
        (fun r => r.1 = .ok ()) = true := by decide +kernel
    obtain ⟨⟨rc, s⟩, hr, h⟩ := (Option.any_eq_true _ _).mp hrun
    obtain rfl : rc = .ok () := of_decide_eq_true h
    obtain ⟨done, -, -, hnames, ⟨rfl, -⟩ | ⟨-, hrc⟩⟩ := hdone hr
    · exact ⟨s, hcb.trans hr, hnames⟩
    · cases hrc
  · obtain ⟨hcb, hdone⟩ := callback_batch.2 (e := spdCalls) (s := emptyStore)
      (⟨by decide +kernel, by decide +kernel, by decide +kernel⟩ : Items [Item.created (spdBlockOf (lit "gw"))])
    have hrun : (applyItems spdOps spdCalls emptyStore [Item.created (spdBlockOf (lit "gw"))]).any
        (fun r => r.1 = .ok ()) = true := by decide +kernel
    obtain ⟨⟨rc, s⟩, hr, h⟩ := (Option.any_eq_true _ _).mp hrun
    obtain rfl : rc = .ok () := of_decide_eq_true h
    obtain ⟨done, -, -, hnames, ⟨rfl, -⟩ | ⟨-, hrc⟩⟩ := hdone hr
    · exact ⟨s, hcb.trans hr, by rw [hnames]; decide +kernel⟩
    · cases hrc

/-- An entry that was added stays when the one after it fails. -/
theorem callback_batch_failed :
    ∃ s, sadEntryChangeCb .change (.ok ([Item.created (sadBlockOf (lit "gw")),
        .deleted (sadBlockOf (lit "old"))].flatMap Item.changes)) sadCalls emptyStore =
          some (.error .operationFailed, s) ∧
      s.entries.map (·.name) = [lit "gw"] ∧ s.entries ≠ (emptyStore : Store SadEntryNode).entries := by
  have hrun : (sadEntryChangeCb .change (.ok ([Item.created (sadBlockOf (lit "gw")),
      .deleted (sadBlockOf (lit "old"))].flatMap Item.changes)) sadCalls emptyStore).any
        (fun r => r.1 = .error .operationFailed ∧ r.2.entries.map (·.name) = [lit "gw"]) = true := by decide +kernel
  obtain ⟨⟨rc, s⟩, hr, h⟩ := (Option.any_eq_true _ _).mp hrun
  obtain ⟨rfl, hnames⟩ := of_decide_eq_true h
  refine ⟨s, hr, hnames, fun heq => ?_⟩
  rw [heq] at hnames
  cases hnames

end CfgIpsec.Proof
