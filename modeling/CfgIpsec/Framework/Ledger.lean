import Mathlib.Algebra.Order.Group.Multiset
import Mathlib.Algebra.BigOperators.Group.List.Basic

/-!
# Books of entries and the requests sent for them

A store keeps a list of entries and, for each entry it takes in or gives up,
sends requests to another party, which only sees the requests. `Book` is the
list with the multisets of what was asked to be added and to be deleted. It is
`InBalance` when what was added and not deleted is what the entries kept ask
for. Taking in an entry keeps the balance (`InBalance.install`); giving one up
keeps it exactly when the entry is revoked by the requests that installed it
(`balanced_retire_iff`).
-/

namespace CfgIpsec.Ledger

variable {ε ι : Type}

/-- The entries kept, and the requests sent so far. -/
@[ext] structure Book (ε ι : Type) where
  entries : List ε
  added : Multiset ι
  deleted : Multiset ι

/-- `e` is taken in at the end, with the requests `w`. -/
def Book.install (b : Book ε ι) (e : ε) (w : Multiset ι) : Book ε ι :=
  ⟨b.entries ++ [e], b.added + w, b.deleted⟩

/-- What `es` ask for, when each entry asks for `wants e`. -/
def demand (wants : ε → Multiset ι) (es : List ε) : Multiset ι := (es.map wants).sum

/-- What was added and not deleted is what the entries ask for. -/
def InBalance (wants : ε → Multiset ι) (b : Book ε ι) : Prop :=
  b.added = b.deleted + demand wants b.entries

variable {wants : ε → Multiset ι}

@[simp] theorem demand_nil : demand wants [] = 0 := rfl

theorem demand_append (es es' : List ε) :
    demand wants (es ++ es') = demand wants es + demand wants es' := by
  rw [demand, List.map_append, List.sum_append]; rfl

theorem demand_cons (e : ε) (es : List ε) : demand wants (e :: es) = wants e + demand wants es := by
  rw [demand, List.map_cons, List.sum_cons]; rfl

theorem InBalance.nil : InBalance wants (⟨[], 0, 0⟩ : Book ε ι) := by
  simp [InBalance]

theorem InBalance.install {b : Book ε ι} (h : InBalance wants b) (e : ε) :
    InBalance wants (b.install e (wants e)) := by
  simp only [InBalance, Book.install] at h ⊢
  rw [h, demand_append, demand_cons, demand_nil, add_zero, add_assoc]

/-- Giving up an entry keeps the balance exactly when the requests sent for it
are those that installed it. -/
theorem balanced_retire_iff {pre post : List ε} {e : ε} {added deleted r : Multiset ι}
    (h : InBalance wants ⟨pre ++ e :: post, added, deleted⟩) :
    InBalance wants ⟨pre ++ post, added, deleted + r⟩ ↔ r = wants e := by
  simp only [InBalance] at h ⊢
  rw [h, demand_append, demand_cons, demand_append]
  constructor
  · intro heq
    have : deleted + (demand wants pre + demand wants post) + wants e =
        deleted + (demand wants pre + demand wants post) + r := by
      rw [show deleted + (demand wants pre + demand wants post) + wants e =
        deleted + (demand wants pre + (wants e + demand wants post)) by ac_rfl, heq]
      ac_rfl
    exact (add_left_cancel this).symm
  · rintro rfl; ac_rfl

end CfgIpsec.Ledger
