import Mathlib.Algebra.Group.Basic
import Mathlib.Data.Set.Basic
import CfgIpsec.Framework.Run

/-!
# Footprints

A state holds something at each place, and of what was put out so far only the
sum counts (`View`). A computation stays within places when it changes no
others, and when what it does, what it puts out included, depends on them only
(`View.Within`). What is computed one after the other stays within the places
of both (`View.Within.bind`); computations within places that are apart may be
swapped (`View.Within.swap`), so that steps of which any two are apart may be
taken in any order (`run_perm`).
-/

namespace CfgIpsec.Footprint

variable {σ κ μ ρ τ α : Type} {ω : κ → Type}

/-- What a state holds at each place, and what was put out. -/
structure View (σ κ μ : Type) (ω : κ → Type) where
  held : σ → (x : κ) → ω x
  out : σ → μ

/-- The states hold the same at the places of `X`. -/
def View.Agree (v : View σ κ μ ω) (X : Set κ) (s t : σ) : Prop := ∀ x ∈ X, v.held s x = v.held t x

/-- The states hold the same, and the same was put out. -/
structure View.Same (v : View σ κ μ ω) (s t : σ) : Prop where
  held : ∀ x, v.held s x = v.held t x
  out : v.out s = v.out t

/-- No place is in both sets. -/
def Separate (X Y : Set κ) : Prop := ∀ x ∈ X, x ∉ Y

/-- The computation changes only the places of `X`, and depends only on them. -/
structure View.Within [Add μ] (v : View σ κ μ ω) (f : σ → Option (ρ × σ)) (X : Set κ) : Prop where
  frame {s s' : σ} {r : ρ} : f s = some (r, s') → ∀ x ∉ X, v.held s' x = v.held s x
  depends {s t s' : σ} {r : ρ} : v.Agree X s t → f s = some (r, s') → ∃ t' m, f t = some (r, t') ∧ v.Agree X s' t' ∧
    v.out s' = v.out s + m ∧ v.out t' = v.out t + m

variable {v : View σ κ μ ω} {X Y : Set κ} {s t u : σ}

theorem Separate.symm (h : Separate X Y) : Separate Y X := fun x hy hx => h x hx hy

theorem View.Agree.symm (h : v.Agree X s t) : v.Agree X t s := fun x hx => (h x hx).symm

theorem View.Agree.trans (h : v.Agree X s t) (h' : v.Agree X t u) : v.Agree X s u :=
  fun x hx => (h x hx).trans (h' x hx)

theorem View.Agree.mono (h : v.Agree Y s t) (hxy : X ⊆ Y) : v.Agree X s t := fun x hx => h x (hxy hx)

theorem View.Same.agree (h : v.Same s t) (X : Set κ) : v.Agree X s t := fun x _ => h.held x

theorem View.Same.refl (s : σ) : v.Same s s := ⟨fun _ => rfl, rfl⟩

theorem View.Same.trans (h : v.Same s t) (h' : v.Same t u) : v.Same s u :=
  ⟨fun x => (h.held x).trans (h'.held x), h.out.trans h'.out⟩

/-- What is apart from its places, a computation leaves. -/
theorem View.Within.agree [Add μ] {f : σ → Option (ρ × σ)} (h : v.Within f X) {s s' : σ} {r : ρ} (hs : f s = some (r, s'))
    (hd : Separate X Y) : v.Agree Y s' s :=
  fun x hy => h.frame hs x fun hx => hd x hx hy

/-! ## Composition -/

/-- A computation stays within more places. -/
theorem View.Within.mono [Add μ] {f : σ → Option (ρ × σ)} (h : v.Within f X) (hxy : X ⊆ Y) : v.Within f Y where
  frame hs x hx := h.frame hs x fun hx' => hx (hxy hx')
  depends {s t s' r} ha hs := by
    obtain ⟨t', m, ht, ha', hout, hout'⟩ := h.depends (ha.mono hxy) hs
    refine ⟨t', m, ht, fun x hx => ?_, hout, hout'⟩
    by_cases hx' : x ∈ X
    · exact ha' x hx'
    · rw [h.frame hs x hx', h.frame ht x hx', ha x hx]

variable [AddCommMonoid μ]

/-- Nothing is done. -/
theorem within_pure (r : ρ) : v.Within (fun s => some (r, s)) X where
  frame hs _ _ := by cases hs; rfl
  depends {s t s' r} ha hs := by
    cases hs
    exact ⟨t, 0, rfl, ha, (add_zero _).symm, (add_zero _).symm⟩

/-- One computation after the other. -/
theorem View.Within.bind {f : σ → Option (ρ × σ)} {g : ρ → σ → Option (τ × σ)} (hf : v.Within f X)
    (hg : ∀ r, v.Within (g r) X) : v.Within (fun s => (f s).bind fun p => g p.1 p.2) X where
  frame {s s' r} hs x hx := by
    obtain ⟨⟨q, s₁⟩, hs₁, hs'⟩ := Option.bind_eq_some_iff.mp hs
    rw [(hg q).frame hs' x hx, hf.frame hs₁ x hx]
  depends {s t s' r} ha hs := by
    obtain ⟨⟨q, s₁⟩, hs₁, hs'⟩ := Option.bind_eq_some_iff.mp hs
    obtain ⟨t₁, m, ht₁, ha₁, hm, hm'⟩ := hf.depends ha hs₁
    obtain ⟨t', n, ht', ha', hn, hn'⟩ := (hg q).depends ha₁ hs'
    refine ⟨t', m + n, ?_, ha', ?_, ?_⟩
    · exact Option.bind_eq_some_iff.mpr ⟨_, ht₁, ht'⟩
    · rw [hn, hm, add_assoc]
    · rw [hn', hm', add_assoc]

/-! ## Order -/

/-- A computation does the same to states that are the same. -/
theorem View.Within.same {f : σ → Option (ρ × σ)} (h : v.Within f X) {s t s' : σ} {r : ρ} (hst : v.Same s t)
    (hs : f s = some (r, s')) : ∃ t', f t = some (r, t') ∧ v.Same s' t' := by
  obtain ⟨t', m, ht, ha, hout, hout'⟩ := h.depends (hst.agree X) hs
  refine ⟨t', ht, fun x => ?_, by rw [hout, hout', hst.out]⟩
  by_cases hx : x ∈ X
  · exact ha x hx
  · rw [h.frame hs x hx, h.frame ht x hx, hst.held x]

/-- Computations within places that are apart may be swapped. -/
theorem View.Within.swap {f : σ → Option (ρ × σ)} {g : σ → Option (τ × σ)} (hf : v.Within f X) (hg : v.Within g Y)
    (hd : Separate X Y) {s s₁ s₂ : σ} {r : ρ} {q : τ} (h₁ : f s = some (r, s₁)) (h₂ : g s₁ = some (q, s₂)) :
    ∃ t₁ t₂, g s = some (q, t₁) ∧ f t₁ = some (r, t₂) ∧ v.Same s₂ t₂ := by
  -- `g` does at `s` what it did at `s₁`, and `f` then what it did at `s`.
  obtain ⟨t₁, n, ht₁, hay, hn, hn'⟩ := hg.depends (hf.agree h₁ hd) h₂
  obtain ⟨t₂, m, ht₂, hax, hm, hm'⟩ := hf.depends (hg.agree ht₁ hd.symm).symm h₁
  refine ⟨t₁, t₂, ht₁, ht₂, fun x => ?_, by rw [hn, hm, hm', hn', add_right_comm]⟩
  by_cases hx : x ∈ X
  · rw [hg.agree h₂ hd.symm x hx, hax x hx]
  · rw [hf.frame ht₂ x hx]
    by_cases hy : x ∈ Y
    · exact hay x hy
    · rw [hg.frame h₂ x hy, hf.frame h₁ x hx, hg.frame ht₁ x hy]

variable {step : σ → α → Option σ} {places : α → Set κ}

/-- A step is a computation that has no result. -/
abbrev stepOf (step : σ → α → Option σ) (a : α) : σ → Option (Unit × σ) := fun s => (step s a).map fun s' => ((), s')

theorem stepOf_eq_some_iff {a : α} {s' : σ} : stepOf step a s = some ((), s') ↔ step s a = some s' := by
  simp [stepOf]

/-- Steps within places do the same to states that are the same. -/
theorem run_same {as : List α} (h : ∀ a ∈ as, v.Within (stepOf step a) (places a)) {s t s' : σ} (hst : v.Same s t)
    (hr : Run.run step as s = some s') : ∃ t', Run.run step as t = some t' ∧ v.Same s' t' := by
  induction as generalizing s t with
  | nil => cases hr; exact ⟨t, rfl, hst⟩
  | cons a as ih =>
    obtain ⟨ha, has⟩ := List.forall_mem_cons.mp h
    obtain ⟨s₁, hs, hr⟩ := Option.bind_eq_some_iff.mp hr
    obtain ⟨t₁, ht, hst₁⟩ := ha.same hst (stepOf_eq_some_iff.mpr hs)
    obtain ⟨t', hr', hst'⟩ := ih has hst₁ hr
    exact ⟨t', Option.bind_eq_some_iff.mpr ⟨t₁, stepOf_eq_some_iff.mp ht, hr'⟩, hst'⟩

/-- Steps of which any two are apart may be taken in any order. -/
theorem run_perm {as bs : List α} (hp : as.Perm bs) (h : ∀ a ∈ as, v.Within (stepOf step a) (places a))
    (hd : as.Pairwise fun a b => Separate (places a) (places b)) {s s' : σ} (hr : Run.run step as s = some s') :
    ∃ t', Run.run step bs s = some t' ∧ v.Same s' t' := by
  induction hp generalizing s s' with
  | nil => exact ⟨s', hr, .refl s'⟩
  | cons a hp ih =>
    obtain ⟨-, has⟩ := List.forall_mem_cons.mp h
    obtain ⟨s₁, hs, hr⟩ := Option.bind_eq_some_iff.mp hr
    obtain ⟨t', hr', hst⟩ := ih has (List.pairwise_cons.mp hd).2 hr
    exact ⟨t', Option.bind_eq_some_iff.mpr ⟨s₁, hs, hr'⟩, hst⟩
  | swap a b as =>
    obtain ⟨hb, h⟩ := List.forall_mem_cons.mp h
    obtain ⟨ha, has⟩ := List.forall_mem_cons.mp h
    obtain ⟨s₁, hs₁, hr⟩ := Option.bind_eq_some_iff.mp hr
    obtain ⟨s₂, hs₂, hr⟩ := Option.bind_eq_some_iff.mp hr
    have hba : Separate (places b) (places a) := (List.pairwise_cons.mp hd).1 a List.mem_cons_self
    obtain ⟨t₁, t₂, ht₁, ht₂, hst⟩ := hb.swap ha hba (stepOf_eq_some_iff.mpr hs₁) (stepOf_eq_some_iff.mpr hs₂)
    obtain ⟨t', hr', hst'⟩ := run_same has hst hr
    refine ⟨t', ?_, hst'⟩
    rw [Run.run, stepOf_eq_some_iff.mp ht₁, Option.bind_some, Run.run, stepOf_eq_some_iff.mp ht₂, Option.bind_some, hr']
  | @trans as bs cs hp hq ihp ihq =>
    obtain ⟨t, hr, hst⟩ := ihp h hd hr
    have hd' : bs.Pairwise fun a b => Separate (places a) (places b) := (hp.pairwise_iff fun hab => hab.symm).mp hd
    obtain ⟨t', hr', hst'⟩ := ihq (fun a ha => h a (hp.mem_iff.mpr ha)) hd' hr
    exact ⟨t', hr', hst.trans hst'⟩

end CfgIpsec.Footprint
