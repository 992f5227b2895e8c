import Mathlib.Data.List.Basic

/-!
# Writes to a buffer

A run of writes to a buffer, each with its position (`applyWrites`). Writes
below `n` leave what lies from `n` on (`drop_applyWrites`), and a buffer that is
filled from its start begins with what it is filled with (`applyWrites_fill`).
-/

namespace CfgIpsec

variable {α : Type}

/-- A buffer after writes, in their order. -/
def applyWrites (ws : List (Nat × α)) (buf : List α) : List α := ws.foldl (fun b w => b.set w.1 w.2) buf

/-- All writes are below position `n`. -/
def WritesBelow (n : Nat) (ws : List (Nat × α)) : Prop := ∀ w ∈ ws, w.1 < n

/-- The writes that fill a buffer with `xs` from position `i` on. -/
def fillWrites (i : Nat) : List α → List (Nat × α)
  | [] => []
  | x :: xs => (i, x) :: fillWrites (i + 1) xs

@[simp] theorem applyWrites_nil (buf : List α) : applyWrites [] buf = buf := rfl

@[simp] theorem applyWrites_cons (w : Nat × α) (ws : List (Nat × α)) (buf : List α) :
    applyWrites (w :: ws) buf = applyWrites ws (buf.set w.1 w.2) := rfl

theorem applyWrites_append (ws ws' : List (Nat × α)) (buf : List α) :
    applyWrites (ws ++ ws') buf = applyWrites ws' (applyWrites ws buf) := List.foldl_append

theorem writesBelow_cons {n : Nat} {w : Nat × α} {ws : List (Nat × α)} :
    WritesBelow n (w :: ws) ↔ w.1 < n ∧ WritesBelow n ws := List.forall_mem_cons

theorem drop_applyWrites {n : Nat} {ws : List (Nat × α)} (h : WritesBelow n ws) (buf : List α) :
    (applyWrites ws buf).drop n = buf.drop n := by
  induction ws generalizing buf with
  | nil => rfl
  | cons w ws ih =>
    obtain ⟨hw, hws⟩ := writesBelow_cons.mp h
    rw [applyWrites_cons, ih hws, List.drop_set_of_lt hw]

theorem fillWrites_below (i : Nat) (xs : List α) : WritesBelow (i + xs.length) (fillWrites i xs) := by
  induction xs generalizing i with
  | nil => intro w hw; cases hw
  | cons x xs ih =>
    refine writesBelow_cons.mpr ⟨by simp only [List.length_cons]; omega, fun w hw => ?_⟩
    have := ih (i + 1) w hw
    simp only [List.length_cons]
    omega

theorem applyWrites_fill (xs : List α) {i : Nat} {buf : List α} (h : i + xs.length ≤ buf.length) :
    applyWrites (fillWrites i xs) buf = buf.take i ++ xs ++ buf.drop (i + xs.length) := by
  induction xs generalizing i buf with
  | nil => simp [fillWrites]
  | cons x xs ih =>
    rw [List.length_cons] at h
    rw [fillWrites, applyWrites_cons, ih (by rw [List.length_set]; omega), List.drop_set_of_lt (by omega),
      List.set_eq_take_append_cons_drop, if_pos (by omega), List.take_append, List.length_take_of_le (by omega),
      List.take_of_length_le (by rw [List.length_take]; omega), List.length_cons, Nat.add_comm xs.length 1,
      ← Nat.add_assoc]
    simp

end CfgIpsec
