import Mathlib.Data.List.Basic
import Mathlib.Data.List.Infix

/-!
# Substrings of delimited text

`hasInfix` and `fromLast` search a list for a part of it and for the last
place of an element. In text with a delimiter `q`, a part without `q` lies
between two delimiters (`infix_append_cons_iff`), and a text quoted by `q` is
not a proper prefix of another (`eq_of_quoted`).
-/

namespace CfgIpsec

variable {α : Type} [DecidableEq α]

/-- Whether `m` occurs in a list. -/
def hasInfix (m : List α) : List α → Bool
  | [] => m.isEmpty
  | x :: xs => m.isPrefixOf (x :: xs) || hasInfix m xs

theorem hasInfix_iff {m xs : List α} : hasInfix m xs = true ↔ m <:+: xs := by
  induction xs with
  | nil => simp [hasInfix]
  | cons x xs ih => rw [hasInfix, Bool.or_eq_true, List.isPrefixOf_iff_prefix, ih, List.infix_cons_iff]

/-- The part of a list from the last `q` on. -/
def fromLast (q : α) : List α → Option (List α)
  | [] => none
  | x :: xs =>
    match fromLast q xs with
    | some ys => some ys
    | none => if x = q then some (x :: xs) else none

theorem fromLast_eq_none_iff {q : α} {xs : List α} : fromLast q xs = none ↔ q ∉ xs := by
  induction xs with
  | nil => simp [fromLast]
  | cons x xs ih =>
    rw [fromLast]
    cases h : fromLast q xs with
    | some ys =>
      have hq : q ∈ xs := by
        by_contra hq
        rw [ih.mpr hq] at h; cases h
      simp [hq]
    | none => simp [ih.mp h, eq_comm]

theorem fromLast_append_cons {q : α} (xs : List α) {ys : List α} (h : q ∉ ys) :
    fromLast q (xs ++ q :: ys) = some (q :: ys) := by
  induction xs with
  | nil => rw [List.nil_append, fromLast, fromLast_eq_none_iff.mpr h]; simp
  | cons x xs ih => rw [List.cons_append, fromLast, ih]

omit [DecidableEq α] in
/-- A part without the delimiter lies on one side of it. -/
theorem infix_append_cons_iff {q : α} {m xs ys : List α} (hq : q ∉ m) :
    m <:+: xs ++ q :: ys ↔ m <:+: xs ∨ m <:+: ys := by
  rcases eq_or_ne m [] with rfl | hm
  · simp
  have hp : ∀ t, t ≠ [] → t <+: q :: ys → q ∈ t := by
    rintro (_ | ⟨a, t⟩) ht hpre
    · exact absurd rfl ht
    · rw [(List.cons_prefix_cons.mp hpre).1]; exact List.mem_cons_self
  rw [List.infix_append_iff_ne_nil, List.infix_cons_iff]
  constructor
  · rintro (h | (h | h) | ⟨t₁, t₂, -, h₂, rfl, -, h⟩)
    · exact .inl h
    · exact absurd (hp m hm h) hq
    · exact .inr h
    · exact absurd (List.mem_append_right _ (hp t₂ h₂ h)) hq
  · rintro (h | h)
    · exact .inl h
    · exact .inr (.inl (.inr h))

omit [DecidableEq α] in
/-- A part without the delimiter that starts a text ends before the delimiter. -/
theorem prefix_append_iff {q : α} {m xs ys : List α} (hm : q ∉ m) (hys : ∀ b ∈ ys.head?, b = q) :
    m <+: xs ++ ys ↔ m <+: xs := by
  refine ⟨fun h => ?_, fun h => h.trans (List.prefix_append ..)⟩
  rcases List.prefix_or_prefix_of_prefix h (List.prefix_append xs ys) with h' | ⟨t, rfl⟩
  · exact h'
  · rcases t with _ | ⟨b, t⟩
    · rw [List.append_nil]
    · obtain ⟨u, hu⟩ := (List.prefix_append_right_inj xs).mp h
      obtain rfl := hys b (by rw [← hu]; rfl)
      exact absurd (List.mem_append_right _ List.mem_cons_self) hm

omit [DecidableEq α] in
/-- In texts after delimiters, a part that starts with one and has no other
starts one of the texts. -/
theorem cons_infix_cons_append_iff {q : α} {m xs ys : List α} (hm : q ∉ m) (hxs : q ∉ xs) (hys : ∀ b ∈ ys.head?, b = q) :
    q :: m <:+: q :: (xs ++ ys) ↔ m <+: xs ∨ q :: m <:+: ys := by
  have hinfix : q :: m <:+: xs ++ ys ↔ q :: m <:+: ys := by
    induction xs with
    | nil => rfl
    | cons x xs ih =>
      obtain ⟨hx, hxs⟩ := not_or.mp (List.mem_cons.not.mp hxs)
      rw [List.cons_append, List.infix_cons_iff, ih hxs, List.cons_prefix_cons]
      exact or_iff_right fun h => hx h.1
  rw [List.infix_cons_iff, List.cons_prefix_cons, prefix_append_iff hm hys, hinfix, eq_self, true_and]

/-- Texts without the delimiter are determined by what stands before it. -/
theorem eq_of_quoted {q : α} {a b s t : List α} (ha : q ∉ a) (hb : q ∉ b)
    (h : a ++ q :: s <+: b ++ q :: t) : a = b := by
  have key : ∀ {c u : List α}, q ∉ c → (c ++ q :: u).takeWhile (· ≠ q) = c := by
    intro c u hc
    rw [List.takeWhile_append_of_pos fun x hx => by
      simpa using fun e : x = q => hc (e ▸ hx)]
    simp
  obtain ⟨r, hr⟩ := h
  rw [List.append_assoc, List.cons_append] at hr
  rw [← key ha, hr, key hb]

end CfgIpsec
