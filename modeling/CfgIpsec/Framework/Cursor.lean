import Mathlib.Data.Option.Basic

/-!
# Loops that move on by what they find

A loop stands at a place, does something there, and moves on by the length
`hop` it finds there, while it is before `stop`. With the work done at a place
ending when the place is `ok`, the loop ends (`Ends`) exactly when every place
it reaches is `ok` and tells a length (`ends_iff`), since it passes a place
with a length only once. `loop` is such a loop with a bound on its turns: some
bound is enough exactly when it ends (`exists_loop_iff`), and then so is one
turn for each place (`loop_isSome_iff`).
-/

namespace CfgIpsec.Cursor

variable {σ : Type} {hop : Nat → Nat} {ok : Nat → Prop} {stop : Nat}

/-- From `p` on, the loop comes to `q`. -/
inductive Reached (hop : Nat → Nat) (stop : Nat) : Nat → Nat → Prop
  | here (p : Nat) : Reached hop stop p p
  | hop {p q : Nat} (h : p < stop) (rest : Reached hop stop (p + hop p) q) : Reached hop stop p q

/-- From `p` on, the loop takes finitely many turns, all at places that are `ok`. -/
inductive Ends (hop : Nat → Nat) (ok : Nat → Prop) (stop : Nat) : Nat → Prop
  | stop {p : Nat} (h : stop ≤ p) : Ends hop ok stop p
  | turn {p : Nat} (h : p < stop) (hp : ok p) (rest : Ends hop ok stop (p + hop p)) : Ends hop ok stop p

/-- The loop ends exactly when every place it comes to is `ok` and tells a length. -/
theorem ends_iff {p : Nat} :
    Ends hop ok stop p ↔ ∀ q, Reached hop stop p q → q < stop → ok q ∧ hop q ≠ 0 := by
  constructor
  · intro h
    induction h with
    | stop h =>
      intro q hq hlt
      cases hq with
      | here => omega
      | hop hp => omega
    | @turn p h hp rest ih =>
      -- a place without a length would be reached again from the next one
      have hlen : hop p ≠ 0 := by
        intro h0
        refine (ih p ?_ h).2 h0
        rw [h0]
        exact .here p
      intro q hq hlt
      cases hq with
      | here => exact ⟨hp, hlen⟩
      | hop _ hrest => exact ih q hrest hlt
  · intro h
    induction hn : stop - p using Nat.strongRecOn generalizing p with
    | ind n ih =>
      by_cases hp : p < stop
      · obtain ⟨hok, hlen⟩ := h p (.here p) hp
        exact .turn hp hok (ih _ (by omega) (fun q hq => h q (.hop hp hq)) rfl)
      · exact .stop (by omega)

/-- The loop, with at most so many turns, and what it does at a place. -/
def loop (hop : Nat → Nat) (body : Nat → σ → Option σ) (stop : Nat) : Nat → Nat → σ → Option σ
  | 0, p, st => if p < stop then none else some st
  | fuel + 1, p, st =>
    if p < stop then (body p st).bind (loop hop body stop fuel (p + hop p)) else some st

variable {body : Nat → σ → Option σ}

theorem ends_of_loop (hbody : ∀ p < stop, ∀ st, (body p st).isSome → ok p) {fuel p : Nat} {st : σ}
    (h : (loop hop body stop fuel p st).isSome) : Ends hop ok stop p := by
  induction fuel generalizing p st with
  | zero =>
    rw [loop] at h
    split at h
    · cases h
    · exact .stop (by omega)
  | succ fuel ih =>
    rw [loop] at h
    split at h
    · rename_i hp
      cases hb : body p st with
      | none => rw [hb] at h; cases h
      | some st' =>
        rw [hb] at h
        exact .turn hp (hbody p hp st (by rw [hb]; rfl)) (ih h)
    · exact .stop (by omega)

/-- A loop that ends takes no more turns than there are places. -/
theorem loop_isSome (hbody : ∀ p < stop, ∀ st, ok p → (body p st).isSome) {p : Nat} (h : Ends hop ok stop p)
    {fuel : Nat} (hf : stop ≤ p + fuel) (st : σ) : (loop hop body stop fuel p st).isSome := by
  induction fuel generalizing p st with
  | zero => rw [loop, if_neg (by omega)]; rfl
  | succ fuel ih =>
    rw [loop]
    split
    · rename_i hp
      obtain ⟨hok, hlen⟩ := ends_iff.mp h p (.here p) hp
      obtain ⟨st', hst⟩ := Option.isSome_iff_exists.mp (hbody p hp st hok)
      rw [hst]
      refine ih (ends_iff.mpr fun q hq => ends_iff.mp h q (.hop hp hq)) (by omega) st'
    · rfl

/-- Some number of turns is enough exactly when the loop ends. -/
theorem exists_loop_iff (hbody : ∀ p < stop, ∀ st, (body p st).isSome ↔ ok p) {p : Nat} {st : σ} :
    (∃ fuel, (loop hop body stop fuel p st).isSome) ↔ Ends hop ok stop p :=
  ⟨fun ⟨_, h⟩ => ends_of_loop (fun p hp st => (hbody p hp st).mp) h,
    fun h => ⟨stop, loop_isSome (fun p hp st => (hbody p hp st).mpr) h (by omega) st⟩⟩

end CfgIpsec.Cursor
