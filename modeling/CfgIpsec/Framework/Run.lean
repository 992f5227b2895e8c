import Mathlib.Data.List.Basic

/-!
# Runs

A machine takes a step for each of a list of operations; a step may fail, and
the run then ends without a state. `Always P` says that `P` holds in every
state of a run, `Along C` that every step taken meets `C`, and `Throughout C` that
every step tried does. When a step keeps `P` exactly where it meets `C`, the
first two agree (`always_iff_along`); when it keeps `P` where it meets `C`, the
second gives the first (`always_of_along`). Where a step that meets `C` also does
not fail, `always_and_throughout_iff` has that too.
`run_fold` and `run_follows` relate a run to what is computed, and to the run
of another machine, beside it, and `run_tally` to how many of its steps were of
a kind.
-/

namespace CfgIpsec.Run

variable {σ α : Type} (step : σ → α → Option σ)

/-- The state a run ends in. -/
def run : List α → σ → Option σ
  | [], s => some s
  | a :: as, s => (step s a).bind (run as)

/-- `P` holds in every state of the run. -/
def Always (P : σ → Prop) : List α → σ → Prop
  | [], s => P s
  | a :: as, s => P s ∧ ∀ s', step s a = some s' → Always P as s'

/-- Every step of the run meets `C`. -/
def Along (C : σ → α → Prop) : List α → σ → Prop
  | [], _ => True
  | a :: as, s => ∀ s', step s a = some s' → C s a ∧ Along C as s'

/-- Every step that the run comes to meets `C`, also one that fails. -/
def Throughout (C : σ → α → Prop) : List α → σ → Prop
  | [], _ => True
  | a :: as, s => C s a ∧ ∀ s', step s a = some s' → Throughout C as s'

/-- How many of the steps of a run meet `c`. -/
def tally (c : σ → α → Bool) : List α → σ → Nat
  | [], _ => 0
  | a :: as, s => (c s a).toNat + (step s a).elim 0 (tally c as)

variable {step} {P : σ → Prop} {C : σ → α → Prop}

instance decidableAlong [∀ s a, Decidable (C s a)] : ∀ (as : List α) (s : σ), Decidable (Along step C as s)
  | [], _ => isTrue trivial
  | a :: as, s =>
    have := decidableAlong as
    decidable_of_iff (∀ s' ∈ step s a, C s a ∧ Along step C as s') Iff.rfl

theorem Always.head {as : List α} {s : σ} (h : Always step P as s) : P s := by
  cases as with
  | nil => exact h
  | cons a as => exact h.1

/-- What holds in every state of a run holds in the last. -/
theorem Always.last {as : List α} {s s' : σ} (h : Always step P as s) (hr : run step as s = some s') : P s' := by
  induction as generalizing s with
  | nil => cases hr; exact h
  | cons a as ih =>
    obtain ⟨s₁, hs, hr⟩ := Option.bind_eq_some_iff.mp hr
    exact ih (h.2 s₁ hs) hr

theorem Always.mono {Q : σ → Prop} {as : List α} {s : σ} (h : Always step P as s) (hpq : ∀ s, P s → Q s) :
    Always step Q as s := by
  induction as generalizing s with
  | nil => exact hpq s h
  | cons a as ih => exact ⟨hpq s h.1, fun s' hs => ih (h.2 s' hs)⟩

/-- What follows from what each step meets. -/
theorem Throughout.imp {D : σ → α → Prop} {as : List α} {s : σ} (h : Throughout step C as s)
    (hcd : ∀ s, ∀ a ∈ as, C s a → D s a) : Throughout step D as s := by
  induction as generalizing s with
  | nil => trivial
  | cons a as ih =>
    obtain ⟨ha, has⟩ := h
    exact ⟨hcd s a List.mem_cons_self ha, fun s' hs => ih (has s' hs) fun s b hb => hcd s b (List.mem_cons_of_mem a hb)⟩

theorem along_of_forall (h : ∀ s a, C s a) (as : List α) (s : σ) : Along step C as s := by
  induction as generalizing s with
  | nil => trivial
  | cons a as ih => exact fun s' _ => ⟨h s a, ih s'⟩

/-- Where the steps that meet `D` keep `P` exactly when they meet `C`, so do the
runs of such steps. -/
theorem always_iff_along_of {D : σ → α → Prop}
    (hstep : ∀ {s a s'}, P s → D s a → step s a = some s' → (P s' ↔ C s a)) {as : List α} {s : σ} (h : P s)
    (hd : Along step D as s) : Always step P as s ↔ Along step C as s := by
  induction as generalizing s with
  | nil => exact iff_of_true h trivial
  | cons a as ih =>
    constructor
    · rintro ⟨-, ha⟩ s' hs
      obtain ⟨hda, hds⟩ := hd s' hs
      have hs' := (ha s' hs).head
      exact ⟨(hstep h hda hs).mp hs', (ih hs' hds).mp (ha s' hs)⟩
    · refine fun ha => ⟨h, fun s' hs => ?_⟩
      obtain ⟨hda, hds⟩ := hd s' hs
      obtain ⟨hc, has⟩ := ha s' hs
      exact (ih ((hstep h hda hs).mpr hc) hds).mpr has

/-- Where a step keeps `P` exactly when it meets `C`, so does a run. -/
theorem always_iff_along (hstep : ∀ {s a s'}, P s → step s a = some s' → (P s' ↔ C s a)) {as : List α}
    {s : σ} (h : P s) : Always step P as s ↔ Along step C as s :=
  always_iff_along_of (D := fun _ _ => True) (fun hp _ => hstep hp) h (along_of_forall (fun _ _ => trivial) as s)

/-- Where the steps that meet `C` keep `P`, so do the runs of such steps. -/
theorem always_of_along (hstep : ∀ {s a s'}, P s → C s a → step s a = some s' → P s') {as : List α} {s : σ}
    (h : P s) (hc : Along step C as s) : Always step P as s :=
  (always_iff_along_of (C := fun _ _ => True) (fun hp hca hs => iff_of_true (hstep hp hca hs) trivial) h hc).mpr
    (along_of_forall (fun _ _ => trivial) as s)

/-- Where a step meets `D` and keeps `P` exactly when it meets `C`, so do all that
a run comes to. -/
theorem always_and_throughout_iff {D : σ → α → Prop}
    (hstep : ∀ {s a}, P s → (D s a ∧ (∀ s', step s a = some s' → P s') ↔ C s a)) {as : List α} {s : σ} (h : P s) :
    Always step P as s ∧ Throughout step D as s ↔ Throughout step C as s := by
  induction as generalizing s with
  | nil => exact iff_of_true ⟨h, trivial⟩ trivial
  | cons a as ih =>
    constructor
    · rintro ⟨⟨-, ha⟩, hd, hds⟩
      refine ⟨(hstep h).mp ⟨hd, fun s' hs => (ha s' hs).head⟩, fun s' hs => ?_⟩
      exact (ih (ha s' hs).head).mp ⟨ha s' hs, hds s' hs⟩
    · rintro ⟨hc, hcs⟩
      obtain ⟨hd, hp⟩ := (hstep h).mpr hc
      have hs' := fun s' hs => (ih (hp s' hs)).mpr (hcs s' hs)
      exact ⟨⟨h, fun s' hs => (hs' s' hs).1⟩, hd, fun s' hs => (hs' s' hs).2⟩

/-- Where `I` holds throughout a run, properties that are the same under `I` are. -/
theorem always_congr {I Q : σ → Prop} (h : ∀ s, I s → (P s ↔ Q s)) {as : List α} {s : σ} (hi : Always step I as s) :
    Always step P as s ↔ Always step Q as s := by
  induction as generalizing s with
  | nil => exact h s hi
  | cons a as ih => exact and_congr (h s hi.1) (forall₂_congr fun s' hs => ih (hi.2 s' hs))

/-- Where `P` holds throughout a run, its steps meet what follows from it and from
what they meet. -/
theorem Along.imp_of_always {D : σ → α → Prop} (h : ∀ {s a}, P s → C s a → D s a) {as : List α} {s : σ}
    (hp : Always step P as s) (hc : Along step C as s) : Along step D as s := by
  induction as generalizing s with
  | nil => trivial
  | cons a as ih => exact fun s' hs => ⟨h hp.1 (hc s' hs).1, ih (hp.2 s' hs) (hc s' hs).2⟩

/-- Where each step keeps a relation to what `f` computes beside it, so does a
run. -/
theorem run_fold {τ : Type} {f : τ → α → τ} {R : τ → σ → Prop}
    (hstep : ∀ {t s a s'}, R t s → step s a = some s' → R (f t a) s') {as : List α} {t : τ} {s s' : σ}
    (h : R t s) (hr : run step as s = some s') : R (as.foldl f t) s' := by
  induction as generalizing t s with
  | nil => cases hr; exact h
  | cons a as ih =>
    obtain ⟨s₁, hs, hr⟩ := Option.bind_eq_some_iff.mp hr
    exact ih (hstep h hs) hr

/-- Where each step that meets `C` keeps a relation to what `f` computes beside
it, so does a run of such steps. -/
theorem run_fold_along {τ : Type} {f : τ → α → τ} {R : τ → σ → Prop}
    (hstep : ∀ {t s a s'}, R t s → C s a → step s a = some s' → R (f t a) s') {as : List α} {t : τ} {s s' : σ}
    (h : R t s) (hc : Along step C as s) (hr : run step as s = some s') : R (as.foldl f t) s' := by
  induction as generalizing t s with
  | nil => cases hr; exact h
  | cons a as ih =>
    obtain ⟨s₁, hs, hr⟩ := Option.bind_eq_some_iff.mp hr
    obtain ⟨ha, has⟩ := hc s₁ hs
    exact ih (hstep h ha hs) has hr

/-- Where each step that meets `C` keeps a relation to a count, which it raises
when it meets `c`, a run of such steps raises it by as many as meet `c`. -/
theorem run_tally {c : σ → α → Bool} {R : Nat → σ → Prop}
    (hstep : ∀ {n s a s'}, R n s → C s a → step s a = some s' → R (n + (c s a).toNat) s') {as : List α} {n : Nat}
    {s s' : σ} (h : R n s) (hc : Along step C as s) (hr : run step as s = some s') : R (n + tally step c as s) s' := by
  induction as generalizing n s with
  | nil => cases hr; exact h
  | cons a as ih =>
    obtain ⟨s₁, hs, hr⟩ := Option.bind_eq_some_iff.mp hr
    obtain ⟨ha, has⟩ := hc s₁ hs
    rw [tally, hs, Option.elim_some, ← Nat.add_assoc]
    exact ih (hstep h ha hs) has hr

/-- Where each step of a machine is followed by a step of another that keeps
them related, so is a run. -/
theorem run_follows {τ β : Type} {step' : τ → β → Option τ} {f : α → β} {R : σ → τ → Prop}
    (hstep : ∀ {s t a s'}, R s t → step s a = some s' → ∃ t', step' t (f a) = some t' ∧ R s' t') {as : List α}
    {s s' : σ} {t : τ} (h : R s t) (hr : run step as s = some s') :
    ∃ t', run step' (as.map f) t = some t' ∧ R s' t' := by
  induction as generalizing s t with
  | nil => cases hr; exact ⟨t, rfl, h⟩
  | cons a as ih =>
    obtain ⟨s₁, hs, hr⟩ := Option.bind_eq_some_iff.mp hr
    obtain ⟨t₁, ht, h₁⟩ := hstep h hs
    obtain ⟨t', ht', h'⟩ := ih h₁ hr
    exact ⟨t', by rw [List.map_cons, run, ht, Option.bind_some, ht'], h'⟩

/-- Where the steps of a machine that meet `p` are followed by another, and the
others keep the two related as they are, a run is followed by the run of the
steps that meet `p`. -/
theorem run_filter {τ : Type} {step' : τ → α → Option τ} {p : α → Bool} {R : σ → τ → Prop}
    (hkeep : ∀ {s t a s'}, p a = true → R s t → step s a = some s' → ∃ t', step' t a = some t' ∧ R s' t')
    (hskip : ∀ {s t a s'}, p a = false → R s t → step s a = some s' → R s' t) {as : List α} {s s' : σ} {t : τ}
    (h : R s t) (hr : run step as s = some s') : ∃ t', run step' (as.filter p) t = some t' ∧ R s' t' := by
  induction as generalizing s t with
  | nil => cases hr; exact ⟨t, rfl, h⟩
  | cons a as ih =>
    obtain ⟨s₁, hs, hr⟩ := Option.bind_eq_some_iff.mp hr
    cases hp : p a with
    | true =>
      obtain ⟨t₁, ht, h₁⟩ := hkeep hp h hs
      obtain ⟨t', ht', h'⟩ := ih h₁ hr
      exact ⟨t', by rw [List.filter_cons_of_pos hp, run, ht, Option.bind_some, ht'], h'⟩
    | false =>
      rw [List.filter_cons_of_neg (by rw [hp]; decide)]
      exact ih (hskip hp h hs) hr

end CfgIpsec.Run
