import Mathlib.Data.List.Basic
import Mathlib.Data.List.Pairwise

/-!
# Values that are set part by part

Settings of different parts of a value commute (`Parts`), and so do runs of
settings without a common part (`assign_comm`). A function that is undefined
everywhere, or a fixed run of settings, can be swapped with another that sets
other parts (`Assigns.comm`), and a run of such functions is the same in every
order (`foldlM_perm`).
-/

namespace CfgIpsec

/-- The parts `ι` of an `α`, with what each can be set to. -/
structure Parts (ι : Type) (V : ι → Type) (α : Type) where
  set : (i : ι) → V i → α → α
  set_comm : ∀ {i j : ι}, i ≠ j → ∀ x y a, set i x (set j y a) = set j y (set i x a)

namespace Parts

variable {ι α : Type} {V : ι → Type} (P : Parts ι V α)

/-- A value after settings, in their order. -/
def assign (as : List (Sigma V)) (a : α) : α := as.foldl (fun a p => P.set p.1 p.2 a) a

@[simp] theorem assign_cons (p : Sigma V) (as : List (Sigma V)) (a : α) :
    P.assign (p :: as) a = P.assign as (P.set p.1 p.2 a) := rfl

theorem assign_append (as bs : List (Sigma V)) (a : α) : P.assign (as ++ bs) a = P.assign bs (P.assign as a) :=
  List.foldl_append

theorem assign_set {i : ι} {as : List (Sigma V)} (h : ∀ p ∈ as, p.1 ≠ i) (x : V i) (a : α) :
    P.assign as (P.set i x a) = P.set i x (P.assign as a) := by
  induction as generalizing a with
  | nil => rfl
  | cons p as ih =>
    obtain ⟨hp, has⟩ := List.forall_mem_cons.mp h
    rw [assign_cons, assign_cons, P.set_comm hp, ih has]

theorem assign_comm {as bs : List (Sigma V)} (h : ∀ p ∈ as, ∀ q ∈ bs, p.1 ≠ q.1) (a : α) :
    P.assign as (P.assign bs a) = P.assign bs (P.assign as a) := by
  induction bs generalizing a with
  | nil => rfl
  | cons q bs ih =>
    have hq : ∀ p ∈ as, p.1 ≠ q.1 := fun p hp => h p hp q List.mem_cons_self
    have hbs : ∀ p ∈ as, ∀ r ∈ bs, p.1 ≠ r.1 := fun p hp r hr => h p hp r (List.mem_cons_of_mem _ hr)
    rw [assign_cons, assign_cons, ih hbs, P.assign_set hq]

/-- The function is undefined everywhere, or sets some of the parts `is`,
whatever value they are parts of. -/
def Assigns (f : α → Option α) (is : List ι) : Prop :=
  (∀ a, f a = none) ∨ ∃ as : List (Sigma V), (∀ p ∈ as, p.1 ∈ is) ∧ ∀ a, f a = some (P.assign as a)

variable {P}

theorem Assigns.keep {is : List ι} : P.Assigns some is := .inr ⟨[], List.forall_mem_nil _, fun _ => rfl⟩

theorem Assigns.set {is : List ι} {i : ι} (hi : i ∈ is) (x : V i) : P.Assigns (fun a => some (P.set i x a)) is :=
  .inr ⟨[⟨i, x⟩], fun p hp => by rw [List.mem_singleton.mp hp]; exact hi, fun _ => rfl⟩

theorem Assigns.bind {β : Type} (o : Option β) {f : β → α → Option α} {is : List ι} (h : ∀ b, P.Assigns (f b) is) :
    P.Assigns (fun a => o.bind fun b => f b a) is := by
  cases o with
  | none => exact .inl fun _ => rfl
  | some b => exact h b

theorem Assigns.ite {p : Prop} [Decidable p] {f g : α → Option α} {is : List ι} (hf : p → P.Assigns f is)
    (hg : ¬p → P.Assigns g is) : P.Assigns (fun a => if p then f a else g a) is := by
  by_cases h : p
  · simpa only [if_pos h] using hf h
  · simpa only [if_neg h] using hg h

theorem Assigns.comp {f g : α → Option α} {is js : List ι} (hf : P.Assigns f is) (hg : P.Assigns g js) :
    P.Assigns (fun a => (f a).bind g) (is ++ js) := by
  rcases hf with hf | ⟨as, has, hf⟩
  · exact .inl fun a => by simp only [hf, Option.bind_none]
  rcases hg with hg | ⟨bs, hbs, hg⟩
  · exact .inl fun a => by simp only [hf, Option.bind_some, hg]
  · refine .inr ⟨as ++ bs, fun p hp => ?_, fun a => by simp only [hf, Option.bind_some, hg, assign_append]⟩
    rcases List.mem_append.mp hp with hp | hp
    · exact List.mem_append_left _ (has p hp)
    · exact List.mem_append_right _ (hbs p hp)

theorem Assigns.comm {f g : α → Option α} {is js : List ι} (hf : P.Assigns f is) (hg : P.Assigns g js)
    (h : is.Disjoint js) (a : α) : (f a).bind g = (g a).bind f := by
  rcases hf with hf | ⟨as, has, hf⟩ <;> rcases hg with hg | ⟨bs, hbs, hg⟩
  · rw [hf, hg]; rfl
  · rw [hf, hg, Option.bind_none, Option.bind_some, hf]
  · rw [hf, hg, Option.bind_none, Option.bind_some, hg]
  · have hne : ∀ q ∈ bs, ∀ p ∈ as, q.1 ≠ p.1 := fun q hq p hp heq => h (has p hp) (heq ▸ hbs q hq)
    rw [hf, hg, Option.bind_some, Option.bind_some, hf, hg, P.assign_comm hne]

end Parts

/-- A run over a list of functions, of which any two can be swapped, is the same
in every order. -/
theorem foldlM_perm {κ α : Type} {f : κ → α → Option α} {ks ls : List κ} (hp : ks.Perm ls)
    (h : ks.Pairwise fun k l => ∀ a, (f k a).bind (f l) = (f l a).bind (f k)) (a : α) :
    ks.foldlM (fun a k => f k a) a = ls.foldlM (fun a k => f k a) a := by
  have hfold : ∀ (ks : List κ) (o : Option α),
      o.bind (fun a => ks.foldlM (fun a k => f k a) a) = ks.foldl (fun o k => o.bind (f k)) o := by
    intro ks
    induction ks with
    | nil => intro o; cases o <;> rfl
    | cons k ks ih =>
      intro o
      rw [List.foldl_cons, ← ih]
      cases o <;> rfl
  have hall := List.Pairwise.forall_of_forall_of_flip (fun k _ a => rfl) h (h.imp fun hkl a => (hkl a).symm)
  have hperm : ks.foldl (fun o k => o.bind (f k)) (some a) = ls.foldl (fun o k => o.bind (f k)) (some a) := by
    refine hp.foldl_eq' (fun k hk l hl o => ?_) _
    cases o with
    | none => rfl
    | some a => exact hall hk hl a
  rwa [← hfold, ← hfold, Option.bind_some, Option.bind_some] at hperm

end CfgIpsec
