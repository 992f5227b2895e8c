import Mathlib.Data.List.Nodup
import Mathlib.Data.List.Perm.Subperm
import Mathlib.Logic.Function.Basic

/-!
# Tables behind requests

A table has at most one value for a key. Requests change it: one inserts a row
unless its key is taken, the other erases the row of a key. The table is
another party's, which gets messages and may refuse what they ask for; of it
only `Keeper.Lawful` is known. Who sends them keeps a list of entries, each of
which is to have its rows in the table, and is not told what became of a
request. The table mirrors the entries when it has their rows and no others,
each under a key of its own (`Mirrors`). Where the rows of an entry are asked
for this is kept exactly when all are accepted (`Keeper.Lawful.install_iff`),
and where its keys are asked to be erased likewise
(`Keeper.Lawful.retire_iff`). An entry of one row may be asked for with another
value, and be asked to be erased by another key: then it is not kept
(`Keeper.Lawful.install_one_iff`, `Keeper.Lawful.retire_one_iff`).
-/

namespace CfgIpsec.Tables

variable {κ υ ε : Type}

/-- A table. -/
abbrev Table (κ υ : Type) := κ → Option υ

/-- The table without rows. -/
def Table.empty : Table κ υ := fun _ => none

/-- A request to the party that keeps the table. -/
inductive Request (κ υ : Type)
  | insert (k : κ) (v : υ)
  | erase (k : κ)
deriving DecidableEq

/-- The requests for rows. -/
def inserts (rows : List (κ × υ)) : List (Request κ υ) := rows.map fun r => .insert r.1 r.2

/-- The requests to erase keys. -/
def erases (keys : List κ) : List (Request κ υ) := keys.map .erase

/-- The keys of the rows are different, and none is taken. -/
def Free (t : Table κ υ) (rows : List (κ × υ)) : Prop :=
  (rows.map Prod.fst).Nodup ∧ ∀ r ∈ rows, t r.1 = none

instance [DecidableEq κ] (t : Table κ υ) (rows : List (κ × υ)) : Decidable (Free t rows) :=
  inferInstanceAs (Decidable ((rows.map Prod.fst).Nodup ∧ ∀ r ∈ rows, t r.1 = none))

/-- The rows of the table are those of the entries, each under a key of its own. -/
structure Mirrors (rows : ε → List (κ × υ)) (t : Table κ υ) (es : List ε) : Prop where
  keys : ((es.flatMap rows).map Prod.fst).Nodup
  mem_iff : ∀ k v, t k = some v ↔ (k, v) ∈ es.flatMap rows

theorem Mirrors.nil (rows : ε → List (κ × υ)) : Mirrors rows Table.empty [] :=
  ⟨List.nodup_nil, fun _ _ => iff_of_false nofun List.not_mem_nil⟩

/-- Entries that have the same rows are mirrored alike. -/
theorem mirrors_congr {rows : ε → List (κ × υ)} {t : Table κ υ} {es es' : List ε} (h : es.map rows = es'.map rows) :
    Mirrors rows t es ↔ Mirrors rows t es' := by
  have hflat : es.flatMap rows = es'.flatMap rows := by
    rw [List.flatMap_def, List.flatMap_def, h]
  constructor
  · exact fun hm => ⟨hflat ▸ hm.keys, hflat ▸ hm.mem_iff⟩
  · exact fun hm => ⟨hflat ▸ hm.keys, hflat ▸ hm.mem_iff⟩

/-- The keys of an entry differ. -/
theorem Mirrors.nodup {rows : ε → List (κ × υ)} {t : Table κ υ} {pre post : List ε} {e : ε}
    (h : Mirrors rows t (pre ++ e :: post)) : ((rows e).map Prod.fst).Nodup := by
  have hkeys := h.keys
  rw [List.flatMap_append, List.flatMap_cons, List.map_append, List.map_append] at hkeys
  exact (hkeys.of_append_right).of_append_left

/-! ## The party that keeps the table -/

/-- Another party that keeps a table. It accepts a message or refuses it. -/
structure Keeper (σ μ κ υ : Type) where
  start : σ
  receive : σ → μ → σ × Bool
  table : σ → Table κ υ

section Keeper

variable {σ μ : Type} (K : Keeper σ μ κ υ) (request? : μ → Option (Request κ υ))

/-- The state after messages. -/
def Keeper.after (st : σ) (ms : List μ) : σ := ms.foldl (fun st m => (K.receive st m).1) st

/-- The table after messages from the start on. -/
def Keeper.tableAfter (ms : List μ) : Table κ υ := K.table (K.after K.start ms)

/-- The requests that are accepted. -/
def Keeper.accepted : σ → List μ → List (Request κ υ)
  | _, [] => []
  | st, m :: ms => (if (K.receive st m).2 then (request? m).toList else []) ++ Keeper.accepted (K.receive st m).1 ms

/-- All that the messages ask for is accepted. -/
def Keeper.Takes (st : σ) (ms : List μ) : Prop := K.accepted request? st ms = ms.filterMap request?

variable {K request?}

theorem Keeper.after_append (st : σ) (ms ms' : List μ) : K.after st (ms ++ ms') = K.after (K.after st ms) ms' :=
  List.foldl_append

variable (K request?) in
theorem Keeper.accepted_sublist (st : σ) (ms : List μ) :
    (K.accepted request? st ms).Sublist (ms.filterMap request?) := by
  induction ms generalizing st with
  | nil => exact List.nil_sublist _
  | cons m ms ih =>
    rw [Keeper.accepted, ← List.singleton_append, List.filterMap_append]
    refine List.Sublist.append ?_ (ih _)
    split
    · cases hm : request? m with
      | none => exact List.nil_sublist _
      | some r => simp [hm]
    · exact List.nil_sublist _

end Keeper

/-! ## What requests come to -/

variable [DecidableEq κ]

/-- What a request makes of a table. -/
def Request.apply (t : Table κ υ) : Request κ υ → Table κ υ
  | .insert k v => if t k = none then Function.update t k (some v) else t
  | .erase k => Function.update t k none

/-- What requests make of a table. -/
def Table.after (t : Table κ υ) (rs : List (Request κ υ)) : Table κ υ := rs.foldl Request.apply t

theorem after_append (t : Table κ υ) (rs rs' : List (Request κ υ)) :
    Table.after t (rs ++ rs') = Table.after (Table.after t rs) rs' := List.foldl_append

/-- Rows under free keys are all inserted. -/
theorem after_inserts {t : Table κ υ} {rows : List (κ × υ)} (h : Free t rows) (k : κ) (v : υ) :
    Table.after t (inserts rows) k = some v ↔ t k = some v ∨ (k, v) ∈ rows := by
  induction rows generalizing t with
  | nil => exact (or_iff_left List.not_mem_nil).symm
  | cons r rows ih =>
    obtain ⟨hnodup, hfree⟩ := h
    obtain ⟨hr, hnodup⟩ := List.nodup_cons.mp hnodup
    obtain ⟨hnone, hfree⟩ := List.forall_mem_cons.mp hfree
    have hstep : Table.after t (inserts (r :: rows)) =
        Table.after (Function.update t r.1 (some r.2)) (inserts rows) := by
      rw [inserts, List.map_cons, Table.after, List.foldl_cons, Request.apply, if_pos hnone]
      rfl
    have hfree' : Free (Function.update t r.1 (some r.2)) rows := by
      refine ⟨hnodup, fun q hq => ?_⟩
      have hne : q.1 ≠ r.1 := fun heq => hr (heq ▸ List.mem_map_of_mem hq)
      rw [Function.update_of_ne hne]
      exact hfree q hq
    rw [hstep, ih hfree', List.mem_cons]
    by_cases hk : k = r.1
    · subst hk
      rw [Function.update_self, hnone]
      simp [Prod.ext_iff, eq_comm]
    · rw [Function.update_of_ne hk]
      simp [Prod.ext_iff, hk]

/-- Of the keys that are erased no row stays. -/
theorem after_erases (t : Table κ υ) (keys : List κ) (k : κ) :
    Table.after t (erases keys) k = if k ∈ keys then none else t k := by
  induction keys generalizing t with
  | nil => rfl
  | cons k' keys ih =>
    have hstep : Table.after t (erases (k' :: keys)) = Table.after (Function.update t k' none) (erases keys) := rfl
    rw [hstep, ih]
    by_cases hk : k = k'
    · subst hk
      simp
    · simp [hk]

/-- Of rows that are asked for no others come into a table. -/
theorem mem_of_after_inserts {t : Table κ υ} {rows : List (κ × υ)} {k : κ} {v : υ}
    (h : Table.after t (inserts rows) k = some v) : t k = some v ∨ (k, v) ∈ rows := by
  induction rows generalizing t with
  | nil => exact .inl h
  | cons r rows ih =>
    have hstep : Table.after t (inserts (r :: rows)) =
        Table.after (Request.apply t (.insert r.1 r.2)) (inserts rows) := rfl
    rw [hstep] at h
    rcases ih h with hk | hmem
    · rw [Request.apply] at hk
      by_cases hr : t r.1 = none
      · rw [if_pos hr] at hk
        by_cases heq : k = r.1
        · subst heq
          rw [Function.update_self] at hk
          cases hk
          exact .inr List.mem_cons_self
        · rw [Function.update_of_ne heq] at hk
          exact .inl hk
      · rw [if_neg hr] at hk
        exact .inl hk
    · exact .inr (List.mem_cons_of_mem r hmem)

section Mirrors

variable {rows : ε → List (κ × υ)} {t : Table κ υ}

/-- An entry that is taken in is mirrored exactly when its keys are free. -/
theorem Mirrors.install_iff {es : List ε} (h : Mirrors rows t es) (e : ε) :
    Mirrors rows (Table.after t (inserts (rows e))) (es ++ [e]) ↔ Free t (rows e) := by
  have hflat : (es ++ [e]).flatMap rows = es.flatMap rows ++ rows e := by
    rw [List.flatMap_append, List.flatMap_singleton]
  constructor
  · intro h'
    have hkeys := h'.keys
    rw [hflat, List.map_append, List.nodup_append'] at hkeys
    obtain ⟨-, hnodup, hdisjoint⟩ := hkeys
    refine ⟨hnodup, fun r hr => Option.eq_none_iff_forall_ne_some.mpr fun v hv => ?_⟩
    have htaken : r.1 ∈ (es.flatMap rows).map Prod.fst := List.mem_map.mpr ⟨_, (h.mem_iff r.1 v).mp hv, rfl⟩
    exact hdisjoint htaken (List.mem_map_of_mem hr)
  · intro hfree
    refine ⟨?_, fun k v => ?_⟩
    · rw [hflat, List.map_append]
      refine h.keys.append hfree.1 fun k hk hk' => ?_
      obtain ⟨⟨k, v⟩, hmem, rfl⟩ := List.mem_map.mp hk
      obtain ⟨r, hr, heq⟩ := List.mem_map.mp hk'
      have hnone := hfree.2 r hr
      rw [heq, (h.mem_iff k v).mpr hmem] at hnone
      cases hnone
    · rw [after_inserts hfree, h.mem_iff, hflat, List.mem_append]

/-- An entry that is given up is gone from the table exactly when what is erased
are its keys, and keys that were not taken. -/
theorem Mirrors.retire_iff {pre post : List ε} {e : ε} (h : Mirrors rows t (pre ++ e :: post)) (keys : List κ) :
    Mirrors rows (Table.after t (erases keys)) (pre ++ post) ↔
      (∀ r ∈ rows e, r.1 ∈ keys) ∧ ∀ k ∈ keys, t k = none ∨ k ∈ (rows e).map Prod.fst := by
  have hperm : ((pre ++ e :: post).flatMap rows).Perm (rows e ++ (pre ++ post).flatMap rows) := by
    rw [← List.flatMap_cons]
    exact List.perm_middle.flatMap_right rows
  have hkeys := (hperm.map Prod.fst).nodup_iff.mp h.keys
  rw [List.map_append, List.nodup_append'] at hkeys
  obtain ⟨-, hnodup, hdisjoint⟩ := hkeys
  have hmem : ∀ k v, t k = some v ↔ (k, v) ∈ rows e ∨ (k, v) ∈ (pre ++ post).flatMap rows := fun k v => by
    rw [h.mem_iff, hperm.mem_iff, List.mem_append]
  -- A row of another entry is under a key that `e` does not have.
  have hother : ∀ {k v}, (k, v) ∈ (pre ++ post).flatMap rows → k ∉ (rows e).map Prod.fst := fun hv hk =>
    hdisjoint hk (List.mem_map_of_mem hv)
  constructor
  · intro h'
    have hrest : ∀ k v, (if k ∈ keys then none else t k) = some v ↔ (k, v) ∈ (pre ++ post).flatMap rows := by
      intro k v
      rw [← after_erases, h'.mem_iff]
    refine ⟨fun r hr => ?_, fun k hk => ?_⟩
    · by_contra hk
      have hrow := (hrest r.1 r.2).mp (by rw [if_neg hk]; exact (hmem _ _).mpr (.inl hr))
      exact hother hrow (List.mem_map_of_mem hr)
    · cases hv : t k with
      | none => exact .inl rfl
      | some v =>
        rcases (hmem k v).mp hv with he | hpost
        · exact .inr (List.mem_map_of_mem he)
        · have hgone := (hrest k v).mpr hpost
          rw [if_pos hk] at hgone
          cases hgone
  · rintro ⟨hall, honly⟩
    refine ⟨hnodup, fun k v => ?_⟩
    rw [after_erases]
    split
    · rename_i hk
      refine iff_of_false nofun fun hv => ?_
      rcases honly k hk with hnone | he
      · rw [(hmem k v).mpr (.inr hv)] at hnone
        cases hnone
      · exact hother hv he
    · rename_i hk
      rw [hmem]
      exact or_iff_right fun he => hk (hall _ he)

end Mirrors

variable {σ μ : Type}

/-- What is relied on. What is refused, and what asks for nothing, changes
nothing. A request that is accepted is carried out, and a row is only accepted
under a free key. -/
structure Keeper.Lawful (K : Keeper σ μ κ υ) (request? : μ → Option (Request κ υ)) : Prop where
  start : K.table K.start = .empty
  refuses : ∀ st m, (K.receive st m).2 = false → K.table (K.receive st m).1 = K.table st
  ignores : ∀ st m, request? m = none → K.table (K.receive st m).1 = K.table st
  insert : ∀ st m k v, request? m = some (.insert k v) → (K.receive st m).2 = true →
    K.table st k = none ∧ K.table (K.receive st m).1 = Function.update (K.table st) k (some v)
  erase : ∀ st m k, request? m = some (.erase k) → (K.receive st m).2 = true →
    K.table (K.receive st m).1 = Function.update (K.table st) k none

section Keeper

variable {K : Keeper σ μ κ υ} {request? : μ → Option (Request κ υ)}

namespace Keeper.Lawful

/-- A message is carried out as far as it is accepted. -/
theorem table_receive (h : K.Lawful request?) (st : σ) (m : μ) :
    K.table (K.receive st m).1 =
      Table.after (K.table st) (if (K.receive st m).2 then (request? m).toList else []) := by
  cases ha : (K.receive st m).2 with
  | false => exact h.refuses st m ha
  | true =>
    rw [if_pos rfl]
    cases hm : request? m with
    | none => exact h.ignores st m hm
    | some r =>
      cases r with
      | insert k v =>
        obtain ⟨hfree, htable⟩ := h.insert st m k v hm ha
        rw [htable]
        exact (if_pos hfree).symm
      | erase k => exact h.erase st m k hm ha

/-- So are messages. -/
theorem table_after (h : K.Lawful request?) (st : σ) (ms : List μ) :
    K.table (K.after st ms) = Table.after (K.table st) (K.accepted request? st ms) := by
  induction ms generalizing st with
  | nil => rfl
  | cons m ms ih =>
    have hstep : K.after st (m :: ms) = K.after (K.receive st m).1 ms := rfl
    rw [hstep, ih, h.table_receive, Keeper.accepted, Tables.after_append]

/-- Rows that are accepted have free keys. -/
theorem free_of_accepted (h : K.Lawful request?) {st : σ} {ms : List μ} {rows : List (κ × υ)}
    (ha : K.accepted request? st ms = inserts rows) : Free (K.table st) rows := by
  induction ms generalizing st rows with
  | nil =>
    obtain rfl : rows = [] := List.map_eq_nil_iff.mp ha.symm
    exact ⟨List.nodup_nil, List.forall_mem_nil _⟩
  | cons m ms ih =>
    rw [Keeper.accepted] at ha
    have htable := h.table_receive st m
    cases hr : (if (K.receive st m).2 then (request? m).toList else []) with
    | nil =>
      rw [hr, List.nil_append] at ha
      have hsame : K.table (K.receive st m).1 = K.table st := by rw [htable, hr]; rfl
      exact hsame ▸ ih ha
    | cons r rs =>
      obtain ⟨hacc, hm, rfl⟩ : (K.receive st m).2 = true ∧ request? m = some r ∧ rs = [] := by
        split at hr
        · rename_i hacc
          cases hm : request? m with
          | none => rw [hm] at hr; cases hr
          | some r' => rw [hm] at hr; cases hr; exact ⟨hacc, rfl, rfl⟩
        · cases hr
      rw [hr, List.singleton_append] at ha
      cases rows with
      | nil => cases ha
      | cons row rows =>
        rw [inserts, List.map_cons] at ha
        obtain ⟨rfl, htail⟩ := List.cons.inj ha
        obtain ⟨hfree, hupdate⟩ := h.insert st m row.1 row.2 hm hacc
        obtain ⟨hnodup, hrest⟩ := ih htail
        rw [hupdate] at hrest
        have hkey : ∀ q ∈ rows, q.1 ≠ row.1 := by
          intro q hq heq
          have hnone := hrest q hq
          rw [heq, Function.update_self] at hnone
          cases hnone
        refine ⟨List.nodup_cons.mpr ⟨fun hmem => ?_, hnodup⟩, List.forall_mem_cons.mpr ⟨hfree, fun q hq => ?_⟩⟩
        · obtain ⟨q, hq, heq⟩ := List.mem_map.mp hmem
          exact hkey q hq heq
        · have hnone := hrest q hq
          rwa [Function.update_of_ne (hkey q hq)] at hnone

variable {rows : ε → List (κ × υ)} {st : σ} {ms : List μ}

/-- A row that comes into the table was asked for. -/
theorem mem_of_inserts (h : K.Lawful request?) {rs : List (κ × υ)} (hreq : ms.filterMap request? = inserts rs) {k : κ}
    {v : υ} (hv : K.table (K.after st ms) k = some v) : K.table st k = some v ∨ (k, v) ∈ rs := by
  have hsub := Keeper.accepted_sublist K request? st ms
  rw [hreq] at hsub
  obtain ⟨rs', hrs', hacc⟩ := List.sublist_map_iff.mp hsub
  rw [h.table_after, hacc] at hv
  exact (mem_of_after_inserts hv).imp_right fun hmem => hrs'.subset hmem

/-- An entry whose rows are asked for is mirrored exactly when all are accepted. -/
theorem install_iff (h : K.Lawful request?) {es : List ε} (hm : Mirrors rows (K.table st) es) {e : ε}
    (hreq : ms.filterMap request? = inserts (rows e)) :
    Mirrors rows (K.table (K.after st ms)) (es ++ [e]) ↔ K.Takes request? st ms := by
  rw [Keeper.Takes, hreq, h.table_after]
  constructor
  · intro hm'
    have hsub := Keeper.accepted_sublist K request? st ms
    rw [hreq] at hsub
    obtain ⟨rs, hrs, hacc⟩ := List.sublist_map_iff.mp hsub
    rw [hacc] at hm' ⊢
    -- A row of the entry that was not accepted would have been there before, under a key of another.
    have hall : rows e ⊆ rs := by
      intro r hr
      have hrow := (hm'.mem_iff r.1 r.2).mpr (by
        rw [List.flatMap_append]; exact List.mem_append_right _ (by simpa using hr))
      refine (mem_of_after_inserts hrow).resolve_left fun hold => ?_
      have hkeys := hm'.keys
      rw [List.flatMap_append, List.flatMap_singleton, List.map_append, List.nodup_append'] at hkeys
      exact hkeys.2.2 (List.mem_map_of_mem ((hm.mem_iff r.1 r.2).mp hold)) (List.mem_map_of_mem hr)
    have hnodup : (rows e).Nodup := (@Mirrors.nodup _ _ _ _ _ es [] e hm').of_map Prod.fst
    rw [hrs.eq_of_length_le (hnodup.subperm hall).length_le]
    rfl
  · intro hacc
    rw [hacc]
    exact (hm.install_iff e).mpr (h.free_of_accepted hacc)

/-- An entry whose keys are asked to be erased is gone exactly when all are
accepted. -/
theorem retire_iff (h : K.Lawful request?) {pre post : List ε} {e : ε} (hm : Mirrors rows (K.table st) (pre ++ e :: post))
    (hreq : ms.filterMap request? = erases ((rows e).map Prod.fst)) :
    Mirrors rows (K.table (K.after st ms)) (pre ++ post) ↔ K.Takes request? st ms := by
  rw [Keeper.Takes, hreq, h.table_after]
  constructor
  · intro hm'
    have hsub := Keeper.accepted_sublist K request? st ms
    rw [hreq] at hsub
    obtain ⟨keys, hkeys, hacc⟩ := List.sublist_map_iff.mp hsub
    rw [hacc] at hm' ⊢
    have hall : (rows e).map Prod.fst ⊆ keys := by
      intro k hk
      obtain ⟨r, hr, rfl⟩ := List.mem_map.mp hk
      exact ((hm.retire_iff keys).mp hm').1 r hr
    rw [hkeys.eq_of_length_le (hm.nodup.subperm hall).length_le]
    rfl
  · intro hacc
    rw [hacc]
    exact (hm.retire_iff _).mpr ⟨fun _ hr => List.mem_map_of_mem hr, fun _ hk => .inr hk⟩

/-- Of an entry that is gone all keys were asked to be erased. -/
theorem mem_of_retired (h : K.Lawful request?) {pre post : List ε} {e : ε}
    (hm : Mirrors rows (K.table st) (pre ++ e :: post)) {keys : List κ} (hreq : ms.filterMap request? = erases keys)
    (hm' : Mirrors rows (K.table (K.after st ms)) (pre ++ post)) : ∀ r ∈ rows e, r.1 ∈ keys := by
  have hsub := Keeper.accepted_sublist K request? st ms
  rw [hreq] at hsub
  obtain ⟨keys', hkeys', hacc⟩ := List.sublist_map_iff.mp hsub
  rw [h.table_after, hacc] at hm'
  exact fun r hr => hkeys'.subset (((hm.retire_iff keys').mp hm').1 r hr)

/-- For an entry of one row another value may be asked for. -/
theorem install_one_iff (h : K.Lawful request?) {es : List ε} (hm : Mirrors rows (K.table st) es) {e : ε} {k : κ}
    {v r : υ} (hrow : rows e = [(k, v)]) (hreq : ms.filterMap request? = inserts [(k, r)]) :
    Mirrors rows (K.table (K.after st ms)) (es ++ [e]) ↔ r = v ∧ K.Takes request? st ms := by
  constructor
  · intro hm'
    -- The row of the entry is there, and no entry before it had the key.
    have hkey : K.table (K.after st ms) k = some v :=
      (hm'.mem_iff k v).mpr (by rw [List.flatMap_append]; exact List.mem_append_right _ (by simp [hrow]))
    have hnew : K.table st k ≠ some v := by
      intro hv
      have hkeys := hm'.keys
      rw [List.flatMap_append, List.flatMap_singleton, List.map_append, List.nodup_append'] at hkeys
      exact hkeys.2.2 (List.mem_map_of_mem ((hm.mem_iff k v).mp hv)) (by simp [hrow])
    obtain rfl : v = r := by simpa using (h.mem_of_inserts hreq hkey).resolve_left hnew
    exact ⟨rfl, (h.install_iff hm (hrow ▸ hreq)).mp hm'⟩
  · rintro ⟨rfl, ht⟩
    exact (h.install_iff hm (hrow ▸ hreq)).mpr ht

/-- Of an entry of one row another key may be asked to be erased. -/
theorem retire_one_iff (h : K.Lawful request?) {pre post : List ε} {e : ε}
    (hm : Mirrors rows (K.table st) (pre ++ e :: post)) {k k' : κ} {v : υ} (hrow : rows e = [(k, v)])
    (hreq : ms.filterMap request? = erases [k']) :
    Mirrors rows (K.table (K.after st ms)) (pre ++ post) ↔ k = k' ∧ K.Takes request? st ms := by
  have hkeys : (rows e).map Prod.fst = [k] := by rw [hrow]; rfl
  constructor
  · intro hm'
    obtain rfl : k = k' := by simpa using h.mem_of_retired hm hreq hm' (k, v) (by simp [hrow])
    exact ⟨rfl, (h.retire_iff hm (hkeys ▸ hreq)).mp hm'⟩
  · rintro ⟨rfl, ht⟩
    exact (h.retire_iff hm (hkeys ▸ hreq)).mpr ht

end Keeper.Lawful

/-! ## A keeper -/

/-- The party that keeps nothing but the table, and accepts what is `ok`: rows
under free keys, and the erasure of rows that it has. -/
def tableKeeper (request? : μ → Option (Request κ υ)) (ok : μ → Bool) : Keeper (Table κ υ) μ κ υ where
  start := .empty
  table t := t
  receive t m :=
    match request? m with
    | none => (t, true)
    | some (.insert k v) => if ok m = true ∧ (t k).isNone then (Function.update t k (some v), true) else (t, false)
    | some (.erase k) => if ok m = true ∧ (t k).isSome then (Function.update t k none, true) else (t, false)

theorem lawful_tableKeeper (request? : μ → Option (Request κ υ)) (ok : μ → Bool) :
    (tableKeeper request? ok).Lawful request? where
  start := rfl
  refuses t m h := by
    simp only [tableKeeper] at h ⊢
    split at h
    · cases h
    · split at h
      · cases h
      · rename_i hok; rw [if_neg hok]
    · split at h
      · cases h
      · rename_i hok; rw [if_neg hok]
  ignores t m h := by
    simp only [tableKeeper, h]
  insert t m k v h ha := by
    simp only [tableKeeper, h] at ha ⊢
    split at ha
    · rename_i hok
      rw [if_pos hok]
      exact ⟨Option.isNone_iff_eq_none.mp hok.2, rfl⟩
    · cases ha
  erase t m k h ha := by
    simp only [tableKeeper, h] at ha ⊢
    split at ha
    · rename_i hok
      rw [if_pos hok]
    · cases ha

end Keeper

end CfgIpsec.Tables
