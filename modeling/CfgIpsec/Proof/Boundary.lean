import CfgIpsec.Proof.Reader
import CfgIpsec.Proof.Settings
import CfgIpsec.Spec.Blocks

/-!
# Where a block ends

The reader and the callback share an iterator. With changes of another entry
after a block the reader stops where it does without them, or takes the first
of them (`StopsAt`). That they end the block is because no xpath of an entry is
a prefix of another's (`Quoted`); the change it takes is that of a list
instance, which the callback would only pass over (`applyChange_created`,
`applyChange_deleted`).
-/

namespace CfgIpsec.Proof

open Impl Spec
open CStr (lit)

/-! ## The name leaf -/

theorem bytes_slashName : (lit "/name").bytes = 0x2f :: (lit "name").bytes := by decide +kernel
theorem length_name : (lit "name").bytes.length = 4 := by decide +kernel

theorem strlen_append_name (x : CStr) : strlen (x ++ lit "/name") = strlen x + 5 := by
  rw [strlen, CStr.bytes_append, List.length_append, bytes_slashName, List.length_cons, length_name]; rfl

theorem endsInName_append (x : CStr) : endsInName (x ++ lit "/name") = some true := by
  have hdrop : (x ++ lit "/name").bytes.drop (strlen x + 5 - 4) = (lit "name").bytes := by
    rw [CStr.bytes_append, bytes_slashName, List.drop_append, List.drop_eq_nil_of_le (by rw [← strlen]; omega),
      ← strlen, show strlen x + 5 - 4 - strlen x = 1 by omega]
    rfl
  rw [endsInName, strlen_append_name, if_pos (by omega), hdrop, beq_self_eq_true]

theorem getNewXpath_append (x : CStr) : getNewXpath (x ++ lit "/name") = some x := by
  have htake : (x ++ lit "/name").bytes.take (strlen x + 5 - 5) = x.bytes := by
    rw [Nat.add_sub_cancel, CStr.bytes_append, strlen, List.take_left]
  rw [getNewXpath, strlen_append_name, if_pos (by omega), htake, CStr.ofBuf_bytes]

/-- An xpath that ends in a key does not end in `name`. -/
theorem endsInName_of_key {x : CStr} (bs : Bytes) (h : x.bytes = bs ++ [0x5d]) (hlen : 3 ≤ bs.length) :
    endsInName x = some false := by
  have hlast : (lit "name").bytes.getLast? = some 0x65 := by decide +kernel
  have hstr : strlen x = bs.length + 1 := by rw [strlen, h, List.length_append]; rfl
  have hdrop : x.bytes.drop (bs.length + 1 - 4) = bs.drop (bs.length + 1 - 4) ++ [0x5d] := by
    rw [h, List.drop_append_of_le_length (by omega)]
  rw [endsInName, hstr, if_pos (by omega), hdrop, Option.some_inj, beq_eq_false_iff_ne]
  intro heq
  rw [← heq, List.getLast?_concat] at hlast
  exact absurd (Option.some.inj hlast) (by decide)

/-! ## Xpaths of entries -/

/-- Entries are told apart by their xpaths. -/
structure Quoted (xpath : CStr → CStr) : Prop where
  eq_of_startsWith {x y : CStr} (hx : (0x27 : Byte) ∉ x.bytes) (hy : (0x27 : Byte) ∉ y.bytes) :
    startsWith (xpath y) (xpath x) = true → x = y
  not_name (x : CStr) : endsInName (xpath x) = some false

theorem quoted_of_bytes {xpath : CStr → CStr} {head : Bytes} (hhead : head ≠ [])
    (h : ∀ x, (xpath x).bytes = head ++ 0x27 :: (x.bytes ++ [0x27, 0x5d])) : Quoted xpath where
  eq_of_startsWith hx hy hs := by
    rw [startsWith, List.isPrefixOf_iff_prefix, h, h, List.prefix_append_right_inj, List.cons_prefix_cons] at hs
    exact CStr.ext (eq_of_quoted hx hy hs.2)
  not_name x := by
    have hlen := List.length_pos_iff.mpr hhead
    refine endsInName_of_key (head ++ 0x27 :: (x.bytes ++ [0x27])) (by simp [h]) ?_
    simp only [List.length_append, List.length_cons, List.length_nil]
    omega

theorem quoted_sad : Quoted sadEntryXpath := quoted_of_bytes (by decide +kernel) bytes_sadEntryXpath

theorem bytes_spdEntryXpath (name : CStr) :
    (spdEntryXpath name).bytes = (lit "/ietf-i2nsf-ikeless:ipsec-ikeless/spd/spd-entry[name=").bytes ++
      0x27 :: (name.bytes ++ [0x27, 0x5d]) := by
  have hhead : (lit "/ietf-i2nsf-ikeless:ipsec-ikeless/spd/spd-entry[name='").bytes =
      (lit "/ietf-i2nsf-ikeless:ipsec-ikeless/spd/spd-entry[name=").bytes ++ [0x27] := by decide +kernel
  have htail : (lit "']").bytes = [0x27, 0x5d] := by decide +kernel
  rw [spdEntryXpath, CStr.bytes_append, CStr.bytes_append, hhead, htail]
  simp

theorem quoted_spd : Quoted spdEntryXpath := quoted_of_bytes (by decide +kernel) bytes_spdEntryXpath

/-- A change of another entry's list instance ends a block. -/
theorem Quoted.ends {xpath : CStr → CStr} (h : Quoted xpath) {x y : CStr} {c : SrChange} {d : SrData}
    (hx : (0x27 : Byte) ∉ x.bytes) (hy : (0x27 : Byte) ∉ y.bytes) (hne : x ≠ y)
    (hc : c.value = some ⟨d, xpath y⟩) (it : SrChangeIter) : Ends (xpath x) (.ok c :: it) :=
  .other hc (by rw [← Bool.not_eq_true]; exact fun hs => hne (h.eq_of_startsWith hx hy hs)) it

/-! ## Reading a block -/

section Stops

variable {α β γ : Type} {xpath : CStr → CStr}

/-- What `f` does with the changes of a block it does with others after them
that end it: what it leaves of the block stays, and of the others it may take
the first. -/
structure StopsAt (b : Block xpath) (f : SrChangeIter → Option (Rc × SrChangeIter × β)) : Prop where
  none {tail : SrChangeIter} (ht : Ends (xpath b.name) tail) : f b.body = none → f (b.body ++ tail) = none
  some {tail it : SrChangeIter} {rc : Rc} {x : β} (ht : Ends (xpath b.name) tail) : f b.body = some (rc, it, x) →
    it <:+ b.body ∧ ∃ it', (it' = it ++ tail ∨ it = [] ∧ it' = tail.tail) ∧ f (b.body ++ tail) = some (rc, it', x)

theorem StopsAt.bind {b : Block xpath} {f : SrChangeIter → Option (Rc × SrChangeIter × β)}
    {g : SrChangeIter → Option (Rc × SrChangeIter × γ)} (h : StopsAt b f) (k : Rc → β → Option (Rc × γ))
    (hg : ∀ it, g it = (f it).bind fun r => (k r.1 r.2.2).map fun y => (y.1, r.2.1, y.2)) : StopsAt b g where
  none {tail} ht hn := by
    rw [hg] at hn ⊢
    cases hf : f b.body with
    | none => rw [h.none ht hf, Option.bind_none]
    | some r =>
      obtain ⟨-, it', -, hf'⟩ := h.some ht hf
      rw [hf, Option.bind_some, Option.map_eq_none_iff] at hn
      rw [hf', Option.bind_some, hn, Option.map_none]
  some {tail it rc y} ht hs := by
    rw [hg] at hs
    obtain ⟨⟨rc₀, it₀, x⟩, hf, hs⟩ := Option.bind_eq_some_iff.mp hs
    obtain ⟨z, hk, hz⟩ := Option.map_eq_some_iff.mp hs
    cases hz
    obtain ⟨hsuf, it', hit, hf'⟩ := h.some ht hf
    refine ⟨hsuf, it', hit, ?_⟩
    rw [hg, hf', Option.bind_some, hk, Option.map_some]

/-- A reader stops where its loop does. -/
theorem stopsAt_read (store : SrVal → α → Option (Stored α)) (fin : Stored α → Rc) (b : Block xpath) {n : α}
    {f : SrChangeIter → Option (Rc × SrChangeIter × α)}
    (hf : ∀ c it, f (.ok c :: it) = (readLoop store (xpath b.name) c it n).map fun r => (fin r.2, r.1, Stored.node r.2)) :
    StopsAt b f := by
  have hne := b.ne_nil
  have hx := b.extend
  obtain ⟨v, vs, hvs⟩ := List.exists_cons_of_ne_nil hne
  rw [hvs] at hx
  have hbody : b.body = .ok v.created :: vs.map fun w => .ok w.created := by rw [Block.body, hvs, List.map_cons]
  refine ⟨fun {tail} ht hn => ?_, fun {tail it rc m} ht hs => ?_⟩
  · rw [hbody, hf, Option.map_eq_none_iff] at hn
    rw [hbody, List.cons_append, hf, readLoop_append_none hx hn, Option.map_none]
  · rw [hbody, hf] at hs
    obtain ⟨⟨it₀, st⟩, hl, hs⟩ := Option.map_eq_some_iff.mp hs
    cases hs
    obtain ⟨hsuf, it', hit, hl'⟩ := readLoop_append hx ht hl
    refine ⟨hbody ▸ hsuf.trans (List.suffix_cons _ _), it', hit, ?_⟩
    rw [hbody, List.cons_append, hf, hl', Option.map_some]

end Stops

section Readers

variable {xpath : CStr → CStr}

theorem stopsAt_readSad (b : Block xpath) (n : SadEntryNode) :
    StopsAt b fun it => readSadEntry it (xpath b.name) n := by
  refine stopsAt_read (n := n) readSadValue (fun _ => .ok ()) b fun c it => ?_
  simp only [readSadEntry, srGetChangeNext]
  rcases readLoop readSadValue (xpath b.name) c it n with _ | ⟨it', m | m⟩ <;> rfl

theorem stopsAt_readSpd (b : Block xpath) (n : SpdEntryNode) :
    StopsAt b fun it => readSpdEntry it (xpath b.name) n := by
  refine stopsAt_read (n := n) readSpdValue
    (fun | .next _ => .ok () | .reject _ => .error .validationFailed) b fun c it => ?_
  simp only [readSpdEntry, srGetChangeNext]
  rcases readLoop readSpdValue (xpath b.name) c it n with _ | ⟨it', m | m⟩ <;> rfl

/-- Adding an entry stops where reading it does. -/
theorem stopsAt_addSad (r : AddSadEnv) (s : Store SadEntryNode) (b : Block xpath) :
    StopsAt b fun it => addSadEntry r s it (xpath b.name) b.name := by
  refine (stopsAt_readSad b ((createSadNode r.node).setName b.name)).bind
    (fun rc node => match rc with
      | .error rc => some (.error rc, s)
      | .ok () => do
        let add ← pfAddsad r.add node
        let get ← pfGetsad r.get node
        pure (.ok (), { s with entries := s.entries ++ [node] }.send [add, get])) fun it => ?_
  rw [addSadEntry]
  rcases readSadEntry it (xpath b.name) ((createSadNode r.node).setName b.name) with _ | ⟨_ | _, it', n⟩
  · rfl
  · rfl
  · simp only [Option.bind_eq_bind, Option.bind_some]
    cases pfAddsad r.add n with
    | none => rfl
    | some add => cases pfGetsad r.get n <;> rfl

/-- Nothing of a block is read for a name that is taken. -/
theorem stopsAt_addSpd (r : AddSpdEnv) (s : Store SpdEntryNode) (b : Block xpath) :
    StopsAt b fun it => addSpdEntry r s it (xpath b.name) b.name := by
  by_cases htaken : (getSpdNode s.entries b.name).isSome = true
  · have heq : (fun it => addSpdEntry r s it (xpath b.name) b.name) = fun it => some (.ok (), it, s) := by
      funext it
      rw [addSpdEntry, if_pos htaken]
    rw [heq]
    refine ⟨fun _ hn => (by cases hn), fun _ hs => ?_⟩
    cases hs
    exact ⟨List.suffix_rfl, _, .inl rfl, rfl⟩
  · refine (stopsAt_readSpd b ((createSpdNode r.node).setName b.name)).bind
      (fun rc node => match rc with
        | .error rc => some (.error rc, s)
        | .ok () => (addPolicies r node).map fun p =>
          (.ok (), { s with entries := s.entries ++ [p.2] }.send p.1)) fun it => ?_
    simp only [addSpdEntry, if_neg htaken]
    rcases readSpdEntry it (xpath b.name) ((createSpdNode r.node).setName b.name) with _ | ⟨_ | _, it', n⟩
    · rfl
    · rfl
    · simp only [Option.bind_eq_bind, Option.bind_some]
      cases addPolicies r n <;> rfl

end Readers

/-! ## The turns of the callback -/

section Turns

variable {α ρ δ : Type} {xpath : CStr → CStr} {ops : EntryOps α ρ δ}

theorem applyChange_created_name (e : CallbackEnv ρ δ) (s : Store α) (it : SrChangeIter) (b : Block xpath) :
    applyChange ops e s it b.nameValue.created =
      (ops.add (e.add 0) s it (xpath b.name) b.name).map fun r => (some r.1, r.2.1, r.2.2) := by
  have hn : newEntry b.nameValue.created = some true := endsInName_append (xpath b.name)
  rw [applyChange]
  simp only [Block.nameValue, SrVal.created] at hn ⊢
  rw [hn]
  simp only [Option.bind_eq_bind, Option.bind_some, if_true, SrData.stringVal, getNewXpath_append]
  exact Option.map_eq_bind.symm

/-- A change that is not of a name is passed over. -/
theorem applyChange_created (e : CallbackEnv ρ δ) (s : Store α) (it : SrChangeIter) {v : SrVal}
    (h : endsInName v.xpath = some false) : applyChange ops e s it v.created = some (none, it, s) := by
  have hn : newEntry v.created = some false := h
  rw [applyChange]
  simp only [SrVal.created] at hn ⊢
  rw [hn]
  rfl

theorem applyChange_deleted_name (e : CallbackEnv ρ δ) (s : Store α) (it : SrChangeIter) (b : Block xpath) :
    applyChange ops e s it b.nameValue.deleted =
      (ops.remove (e.remove 0) s b.name).map fun r => (some r.1, it, r.2) := by
  have hn : newEntry b.nameValue.deleted = some true := endsInName_append (xpath b.name)
  rw [applyChange]
  simp only [Block.nameValue, SrVal.deleted] at hn ⊢
  rw [hn]
  simp only [Option.bind_eq_bind, Option.bind_some, if_true, SrData.stringVal, getNewXpath_append]
  exact Option.map_eq_bind.symm

theorem applyChange_deleted (e : CallbackEnv ρ δ) (s : Store α) (it : SrChangeIter) {v : SrVal}
    (h : endsInName v.xpath = some false) : applyChange ops e s it v.deleted = some (none, it, s) := by
  have hn : newEntry v.deleted = some false := h
  rw [applyChange]
  simp only [SrVal.deleted] at hn ⊢
  rw [hn]
  rfl

end Turns

end CfgIpsec.Proof
