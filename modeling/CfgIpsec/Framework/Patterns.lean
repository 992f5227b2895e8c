import Mathlib.Computability.RegularExpressions

/-!
# Patterns

Regular expressions put together as a schema writes them: letters of a class
(`oneOf`), and parts that may be missing (`opt`) or occur several times (`upTo`,
`more`). The words of a pattern without repetition can be listed (`words`).
-/

namespace CfgIpsec.Pattern

open RegularExpression

variable {α : Type*} {P Q : RegularExpression α}

/-- One of the letters. -/
def oneOf : List α → RegularExpression α
  | [] => 0
  | a :: as => char a + oneOf as

/-- The letters, one after the other. -/
def text : List α → RegularExpression α
  | [] => 1
  | a :: as => char a * text as

/-- `P?` -/
def opt (P : RegularExpression α) : RegularExpression α := 1 + P

/-- `P{0,n}` -/
def upTo (P : RegularExpression α) : ℕ → RegularExpression α
  | 0 => 1
  | n + 1 => 1 + P * upTo P n

/-- `P+` -/
def more (P : RegularExpression α) : RegularExpression α := P * P.star

/-! ## Membership -/

theorem mem_oneOf {as : List α} {x : List α} : x ∈ (oneOf as).matches' ↔ ∃ a ∈ as, x = [a] := by
  induction as with
  | nil => simp [oneOf, Language.notMem_zero]
  | cons a as ih =>
    rw [oneOf, matches'_add, Language.mem_add, ih, List.exists_mem_cons_iff]
    rfl

theorem mem_text {as x : List α} : x ∈ (text as).matches' ↔ x = as := by
  induction as generalizing x with
  | nil => rfl
  | cons a as ih =>
    rw [text, matches'_mul, matches'_char, Language.mem_mul]
    constructor
    · rintro ⟨y, rfl, z, hz, rfl⟩
      rw [ih.mp hz]; rfl
    · rintro rfl
      exact ⟨[a], rfl, as, ih.mpr rfl, rfl⟩

theorem mem_seq {x y : List α} (hx : x ∈ P.matches') (hy : y ∈ Q.matches') : x ++ y ∈ (P * Q).matches' :=
  Language.mem_mul.mpr ⟨x, hx, y, hy, rfl⟩

theorem mem_left {x : List α} (hx : x ∈ P.matches') : x ∈ (P + Q).matches' := .inl hx

theorem mem_right {x : List α} (hx : x ∈ Q.matches') : x ∈ (P + Q).matches' := .inr hx

theorem nil_mem_opt : [] ∈ (opt P).matches' := .inl rfl

theorem mem_opt {x : List α} (hx : x ∈ P.matches') : x ∈ (opt P).matches' := .inr hx

theorem nil_mem_upTo (n : ℕ) : [] ∈ (upTo P n).matches' := by
  cases n with
  | zero => rfl
  | succ n => exact mem_left rfl

theorem mem_upTo_succ {n : ℕ} {x y : List α} (hx : x ∈ P.matches') (hy : y ∈ (upTo P n).matches') :
    x ++ y ∈ (upTo P (n + 1)).matches' := mem_right (mem_seq hx hy)

/-- Words one after the other. -/
theorem flatten_mem_upTo {xs : List (List α)} {n : ℕ} (h : ∀ x ∈ xs, x ∈ P.matches') (hn : xs.length ≤ n) :
    xs.flatten ∈ (upTo P n).matches' := by
  induction xs generalizing n with
  | nil => exact nil_mem_upTo n
  | cons x xs ih =>
    obtain ⟨n, rfl⟩ : ∃ k, n = k + 1 := ⟨n - 1, by simp only [List.length_cons] at hn; omega⟩
    obtain ⟨hx, hxs⟩ := List.forall_mem_cons.mp h
    exact mem_upTo_succ hx (ih hxs (by simpa using hn))

theorem flatten_mem_more {x : List α} {xs : List (List α)} (h : ∀ y ∈ x :: xs, y ∈ P.matches') :
    (x :: xs).flatten ∈ (more P).matches' := by
  obtain ⟨hx, hxs⟩ := List.forall_mem_cons.mp h
  exact mem_seq hx (Language.mem_kstar.mpr ⟨xs, rfl, hxs⟩)

theorem flatten_singletons (x : List α) : (x.map fun a => [a]).flatten = x := by
  rw [← List.flatMap_def, List.flatMap_singleton']

theorem mem_oneOf_of_map {as x y : List α} (h : ∀ a ∈ x, a ∈ as) (hy : y ∈ x.map fun a => [a]) :
    y ∈ (oneOf as).matches' := by
  obtain ⟨a, ha, rfl⟩ := List.mem_map.mp hy
  exact mem_oneOf.mpr ⟨a, h a ha, rfl⟩

/-- Letters of a class, one after the other. -/
theorem mem_upTo_oneOf {as x : List α} {n : ℕ} (h : ∀ a ∈ x, a ∈ as) (hn : x.length ≤ n) :
    x ∈ (upTo (oneOf as) n).matches' := by
  have hlen : (x.map fun a => [a]).length ≤ n := by rwa [List.length_map]
  have hflat := flatten_mem_upTo (fun y hy => mem_oneOf_of_map h hy) hlen
  rwa [flatten_singletons] at hflat

theorem mem_more_oneOf {as : List α} {a : α} {x : List α} (h : ∀ b ∈ a :: x, b ∈ as) :
    a :: x ∈ (more (oneOf as)).matches' := by
  have hone : ∀ y ∈ [a] :: x.map fun b => [b], y ∈ (oneOf as).matches' := fun y hy => mem_oneOf_of_map h hy
  have hflat := flatten_mem_more hone
  rwa [List.flatten_cons, flatten_singletons] at hflat

/-- The letters of such a word are of the class. -/
theorem mem_of_mem_upTo {as x : List α} {n : ℕ} (h : x ∈ (upTo (oneOf as) n).matches') {a : α} (ha : a ∈ x) :
    a ∈ as := by
  induction n generalizing x with
  | zero =>
    rw [(Language.mem_one x).mp h] at ha
    cases ha
  | succ n ih =>
    rcases (Language.mem_add _ _ x).mp h with h | h
    · rw [(Language.mem_one x).mp h] at ha
      cases ha
    · obtain ⟨y, hy, z, hz, rfl⟩ := Language.mem_mul.mp h
      obtain ⟨b, hb, rfl⟩ := mem_oneOf.mp hy
      rcases List.mem_append.mp ha with ha | ha
      · rwa [List.mem_singleton.mp ha]
      · exact ih hz ha

/-- A word put together from parts. -/
theorem mem_of_eq {x y : List α} (h : x ∈ P.matches') (hxy : x = y) : y ∈ P.matches' := hxy ▸ h

/-! ## Words -/

/-- The words of a pattern without repetition. -/
def words : RegularExpression α → List (List α)
  | .zero => []
  | .epsilon => [[]]
  | .char a => [[a]]
  | .plus P Q => words P ++ words Q
  | .comp P Q => (words P).flatMap fun x => (words Q).map (x ++ ·)
  | .star _ => []

def starFree : RegularExpression α → Bool
  | .plus P Q | .comp P Q => starFree P && starFree Q
  | .star _ => false
  | _ => true

theorem mem_words {x : List α} (hP : starFree P = true) (h : x ∈ P.matches') : x ∈ words P := by
  induction P generalizing x with
  | zero => exact h.elim
  | epsilon => exact List.mem_singleton.mpr h
  | char a => exact List.mem_singleton.mpr h
  | plus P Q ihP ihQ =>
    obtain ⟨hp, hq⟩ := Bool.and_eq_true_iff.mp hP
    exact List.mem_append.mpr (h.imp (ihP hp) (ihQ hq))
  | comp P Q ihP ihQ =>
    obtain ⟨hp, hq⟩ := Bool.and_eq_true_iff.mp hP
    obtain ⟨y, hy, z, hz, rfl⟩ := Language.mem_mul.mp h
    exact List.mem_flatMap.mpr ⟨y, ihP hp hy, List.mem_map_of_mem (ihQ hq hz)⟩
  | star P => cases hP

theorem of_mem_words {x : List α} (h : x ∈ words P) : x ∈ P.matches' := by
  induction P generalizing x with
  | zero => cases h
  | epsilon => exact List.mem_singleton.mp h
  | char a => exact List.mem_singleton.mp h
  | plus P Q ihP ihQ => exact (List.mem_append.mp h).imp ihP ihQ
  | comp P Q ihP ihQ =>
    obtain ⟨y, hy, hx⟩ := List.mem_flatMap.mp h
    obtain ⟨z, hz, rfl⟩ := List.mem_map.mp hx
    exact mem_seq (ihP hy) (ihQ hz)
  | star P => cases h

theorem mem_words_iff {x : List α} (hP : starFree P = true) : x ∈ P.matches' ↔ x ∈ words P :=
  ⟨mem_words hP, of_mem_words⟩

end CfgIpsec.Pattern
