import Mathlib.Algebra.GroupWithZero.Nat
import Mathlib.Data.List.Basic
import Mathlib.Data.List.Nodup

/-!
# Sequences of self-delimiting records

A record starts with a head that tells its length, in units, and its type
(`Format`). `Tiles F ws rs` says that `ws` is the concatenation of the records
`rs`. A reader that walks over `ws` follows `exists_tiles_iff`: the first
record of a nonempty `ws` can only be the one its head describes, so a tiling
is unique (`Tiles.unique`). `locate rs t` is where the first record of type
`t` starts; with pairwise different types it is the only one
(`locate_eq_some_iff`). `starts off rs` are the places where the records
start, one after the other from `off` on.
-/

namespace CfgIpsec.Tlv

/-- How records tell their length and type: both stand within the first unit. -/
structure Format (α τ : Type) where
  unit : Nat
  unit_pos : 0 < unit
  /-- The length of the record a list starts with, in units. -/
  size : List α → Nat
  /-- The type of the record a list starts with. -/
  type : List α → τ
  size_append : ∀ {xs : List α} (ys : List α), unit ≤ xs.length → size (xs ++ ys) = size xs
  type_append : ∀ {xs : List α} (ys : List α), unit ≤ xs.length → type (xs ++ ys) = type xs

variable {α τ : Type} {F : Format α τ}

/-- A record is at least one unit long and as long as it says. -/
def IsRecord (F : Format α τ) (e : List α) : Prop :=
  1 ≤ F.size e ∧ e.length = F.unit * F.size e

instance (F : Format α τ) (e : List α) : Decidable (IsRecord F e) :=
  inferInstanceAs (Decidable (_ ∧ _))

/-- `ws` is the concatenation of the records `rs`. -/
structure Tiles (F : Format α τ) (ws : List α) (rs : List (List α)) : Prop where
  flatten : rs.flatten = ws
  records : ∀ e ∈ rs, IsRecord F e

theorem IsRecord.unit_le {e : List α} (h : IsRecord F e) : F.unit ≤ e.length := by
  rw [h.2]; exact Nat.le_mul_of_pos_right _ h.1

theorem IsRecord.ne_nil {e : List α} (h : IsRecord F e) : e ≠ [] := by
  rintro rfl
  exact absurd h.unit_le (Nat.not_le.mpr F.unit_pos)

theorem Tiles.nil : Tiles F [] [] := ⟨rfl, by simp⟩

theorem Tiles.cons {e ws : List α} {rs : List (List α)} (he : IsRecord F e) (h : Tiles F ws rs) :
    Tiles F (e ++ ws) (e :: rs) :=
  ⟨by rw [List.flatten_cons, h.flatten], List.forall_mem_cons.mpr ⟨he, h.records⟩⟩

theorem tiles_cons_iff {e ws : List α} {rs : List (List α)} :
    Tiles F ws (e :: rs) ↔ IsRecord F e ∧ ∃ ws', ws = e ++ ws' ∧ Tiles F ws' rs := by
  constructor
  · rintro ⟨hf, hr⟩
    obtain ⟨he, hrs⟩ := List.forall_mem_cons.mp hr
    exact ⟨he, rs.flatten, by rw [← hf, List.flatten_cons], rfl, hrs⟩
  · rintro ⟨he, ws', rfl, h⟩
    exact h.cons he

theorem tiles_nil_iff {rs : List (List α)} : Tiles F [] rs ↔ rs = [] := by
  constructor
  · intro h
    cases rs with
    | nil => rfl
    | cons e rs =>
      obtain ⟨he, ws', hw, -⟩ := tiles_cons_iff.mp h
      exact absurd (List.append_eq_nil_iff.mp hw.symm).1 he.ne_nil
  · rintro rfl; exact Tiles.nil

/-- The lengths of the records, in units, sum to that of their concatenation. -/
theorem Tiles.length {ws : List α} {rs : List (List α)} (h : Tiles F ws rs) :
    ws.length = F.unit * (rs.map F.size).sum := by
  induction rs generalizing ws with
  | nil => rw [← h.flatten]; simp
  | cons e rs ih =>
    obtain ⟨he, ws', rfl, h'⟩ := tiles_cons_iff.mp h
    rw [List.length_append, he.2, ih h', List.map_cons, List.sum_cons, Nat.mul_add]

/-- A list that starts with a record starts with the one its head describes. -/
theorem IsRecord.eq_take {e : List α} (he : IsRecord F e) (ws : List α) :
    F.size (e ++ ws) = F.size e ∧ (e ++ ws).take (F.unit * F.size (e ++ ws)) = e ∧
      (e ++ ws).drop (F.unit * F.size (e ++ ws)) = ws := by
  have hs := F.size_append ws he.unit_le
  refine ⟨hs, ?_, ?_⟩
  · rw [hs, ← he.2, List.take_left]
  · rw [hs, ← he.2, List.drop_left]

/-- The record a list starts with has the type the list's head tells. -/
theorem type_take {ws : List α} (hw : F.unit ≤ ws.length) (h1 : 1 ≤ F.size ws) :
    F.type (ws.take (F.unit * F.size ws)) = F.type ws := by
  have hu : F.unit ≤ (ws.take (F.unit * F.size ws)).length := by
    rw [List.length_take]; exact Nat.le_min.mpr ⟨Nat.le_mul_of_pos_right _ h1, hw⟩
  have := F.type_append (ws.drop (F.unit * F.size ws)) hu
  rwa [List.take_append_drop, eq_comm] at this

/-- One step of a reader: a tiling of a nonempty list starts with the record
that the list's head describes, which must be whole. -/
theorem exists_tiles_iff {ws : List α} {P : List (List α) → Prop} (hw : F.unit ≤ ws.length) :
    (∃ rs, Tiles F ws rs ∧ P rs) ↔
      1 ≤ F.size ws ∧ F.unit * F.size ws ≤ ws.length ∧
        ∃ rs, Tiles F (ws.drop (F.unit * F.size ws)) rs ∧ P (ws.take (F.unit * F.size ws) :: rs) := by
  constructor
  · rintro ⟨rs, h, hP⟩
    cases rs with
    | nil =>
      have := F.unit_pos
      have : ws = [] := h.flatten.symm
      subst this
      simp only [List.length_nil] at hw; omega
    | cons e rs =>
      obtain ⟨he, ws', rfl, h'⟩ := tiles_cons_iff.mp h
      obtain ⟨hs, ht, hd⟩ := he.eq_take ws'
      refine ⟨hs ▸ he.1, ?_, rs, by rwa [hd], by rwa [ht]⟩
      rw [hs, List.length_append, he.2]; exact Nat.le_add_right _ _
  · rintro ⟨h1, h2, rs, h, hP⟩
    have hl : (ws.take (F.unit * F.size ws)).length = F.unit * F.size ws := by
      rw [List.length_take, Nat.min_eq_left h2]
    have hu : F.unit ≤ (ws.take (F.unit * F.size ws)).length := by
      rw [hl]; exact Nat.le_mul_of_pos_right _ h1
    have hs : F.size (ws.take (F.unit * F.size ws)) = F.size ws := by
      have := F.size_append (ws.drop (F.unit * F.size ws)) hu
      rwa [List.take_append_drop, eq_comm] at this
    have he : IsRecord F (ws.take (F.unit * F.size ws)) := ⟨by rw [hs]; exact h1, by rw [hl, hs]⟩
    exact ⟨_, by simpa using h.cons he, hP⟩

theorem Tiles.unique {ws : List α} {rs rs' : List (List α)} (h : Tiles F ws rs) (h' : Tiles F ws rs') :
    rs = rs' := by
  induction rs generalizing ws rs' with
  | nil =>
    obtain rfl : ws = [] := h.flatten.symm
    exact (tiles_nil_iff.mp h').symm
  | cons e rs ih =>
    obtain ⟨he, ws₁, rfl, h₁⟩ := tiles_cons_iff.mp h
    cases rs' with
    | nil =>
      exact absurd (List.append_eq_nil_iff.mp h'.flatten.symm).1 he.ne_nil
    | cons e' rs' =>
      obtain ⟨he', ws₂, hw, h₂⟩ := tiles_cons_iff.mp h'
      have ht := (he.eq_take ws₁).2
      rw [hw] at ht
      have ht' := (he'.eq_take ws₂).2
      obtain rfl : e' = e := ht'.1.symm.trans ht.1
      obtain rfl : ws₂ = ws₁ := ht'.2.symm.trans ht.2
      rw [ih h₁ h₂]

/-! ## Where a record starts -/

variable [DecidableEq τ]

/-- Where the first record of type `t` starts. -/
def locate (F : Format α τ) (t : τ) : List (List α) → Option Nat
  | [] => none
  | e :: rs => if F.type e = t then some 0 else (locate F t rs).map (e.length + ·)

theorem locate_eq_none_iff {t : τ} {rs : List (List α)} :
    locate F t rs = none ↔ ∀ e ∈ rs, F.type e ≠ t := by
  induction rs with
  | nil => simp [locate]
  | cons e rs ih =>
    simp only [locate, List.forall_mem_cons]
    split
    · rename_i h; simp [h]
    · rename_i h; rw [Option.map_eq_none_iff, ih]; simp [h]

theorem locate_append {t : τ} {pre rs : List (List α)} (h : ∀ e ∈ pre, F.type e ≠ t) :
    locate F t (pre ++ rs) = (locate F t rs).map (pre.flatten.length + ·) := by
  induction pre with
  | nil => simp
  | cons e pre ih =>
    obtain ⟨he, hp⟩ := List.forall_mem_cons.mp h
    rw [List.cons_append, locate, if_neg he, ih hp, Option.map_map, List.flatten_cons, List.length_append]
    congr 1
    funext n
    simp only [Function.comp_apply, Nat.add_assoc]

/-- With pairwise different types, `locate` finds the record of each type. -/
theorem locate_eq_some_iff {t : τ} {rs : List (List α)} {o : Nat} (hn : (rs.map F.type).Nodup) :
    locate F t rs = some o ↔
      ∃ pre e post, rs = pre ++ e :: post ∧ F.type e = t ∧ o = pre.flatten.length := by
  constructor
  · intro h
    induction rs generalizing o with
    | nil => simp [locate] at h
    | cons e rs ih =>
      rw [locate] at h
      split at h
      · rename_i he
        cases h
        exact ⟨[], e, rs, rfl, he, rfl⟩
      · obtain ⟨n, hl, rfl⟩ := Option.map_eq_some_iff.mp h
        obtain ⟨pre, e', post, rfl, ht, rfl⟩ := ih (List.nodup_cons.mp hn).2 hl
        exact ⟨e :: pre, e', post, rfl, ht, by simp⟩
  · rintro ⟨pre, e, post, rfl, rfl, rfl⟩
    have hp : ∀ e' ∈ pre, F.type e' ≠ F.type e := by
      intro e' he' heq
      rw [List.map_append, List.map_cons] at hn
      exact (List.nodup_append.mp hn).2.2 _ (List.mem_map_of_mem he') _ List.mem_cons_self heq
    rw [locate_append hp, locate, if_pos rfl]; simp

/-! ## Where the records start -/

/-- The places where records start, from `off` on. -/
def starts : Nat → List (List α) → List Nat
  | _, [] => []
  | off, e :: rs => off :: starts (off + e.length) rs

theorem mem_starts_iff {off p : Nat} {rs : List (List α)} :
    p ∈ starts off rs ↔ ∃ pre e post, rs = pre ++ e :: post ∧ p = off + pre.flatten.length := by
  induction rs generalizing off with
  | nil => simp [starts]
  | cons e rs ih =>
    rw [starts, List.mem_cons, ih]
    constructor
    · rintro (rfl | ⟨pre, e', post, rfl, rfl⟩)
      · exact ⟨[], e, rs, rfl, rfl⟩
      · exact ⟨e :: pre, e', post, rfl, by rw [List.flatten_cons, List.length_append]; omega⟩
    · rintro ⟨pre, e', post, h, rfl⟩
      cases pre with
      | nil => exact .inl rfl
      | cons e₀ pre =>
        obtain ⟨rfl, rfl⟩ := List.cons.inj h
        exact .inr ⟨pre, e', post, rfl, by rw [List.flatten_cons, List.length_append]; omega⟩

/-- The records start in their order. -/
theorem starts_sorted {rs : List (List α)} (hr : ∀ e ∈ rs, e ≠ []) (off : Nat) :
    (starts off rs).Pairwise (· < ·) := by
  induction rs generalizing off with
  | nil => exact .nil
  | cons e rs ih =>
    obtain ⟨he, hr⟩ := List.forall_mem_cons.mp hr
    have hlen := List.length_pos_iff.mpr he
    refine .cons (fun p hp => ?_) (ih hr _)
    obtain ⟨pre, e', post, -, rfl⟩ := mem_starts_iff.mp hp
    omega

/-- With pairwise different types, the places found by type are those where
records start. -/
theorem mem_starts_iff_locate {rs : List (List α)} (hn : (rs.map F.type).Nodup) {off p : Nat} :
    p ∈ starts off rs ↔ ∃ t, (locate F t rs).map (off + ·) = some p := by
  rw [mem_starts_iff]
  constructor
  · rintro ⟨pre, e, post, h, rfl⟩
    exact ⟨F.type e, by rw [(locate_eq_some_iff hn).mpr ⟨pre, e, post, h, rfl, rfl⟩, Option.map_some]⟩
  · rintro ⟨t, ht⟩
    obtain ⟨o, ho, rfl⟩ := Option.map_eq_some_iff.mp ht
    obtain ⟨pre, e, post, h, -, rfl⟩ := (locate_eq_some_iff hn).mp ho
    exact ⟨pre, e, post, h, rfl⟩

end CfgIpsec.Tlv
