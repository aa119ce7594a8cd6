import Esp32Ota.Lib.Halting

-- Bounded response: a run with enough ticks gets to its goal.
namespace Halting

variable {ε σ ι : Type} (step : ι → EStateM ε σ PUnit)

-- The steps of a run that count.
def ticks (tick : σ → ι → Bool) : List ι → σ → Nat
  | [], _ => 0
  | i :: is, s =>
    (if tick s i then 1 else 0) +
      match step i s with
      | .ok _ t => ticks tick is t
      | .error _ _ => 0

-- Short of the goal no step raises the rank, and one that counts lowers it. The goal stays.
structure Responds (tick : σ → ι → Bool) (rank : σ → Nat) (I G : σ → Prop) : Prop where
  lowers : ∀ i s, I s →
    wp (step i) (fun _ t => G t ∨ I t ∧ rank t + (if tick s i then 1 else 0) ≤ rank s) (fun _ _ => True) s
  stays : ∀ i s, G s → wp (step i) (fun _ => G) (fun _ _ => True) s

variable {step} {tick : σ → ι → Bool} {rank : σ → Nat} {I G : σ → Prop}

theorem Responds.run_stays (h : Responds step tick rank I G) (is : List ι) {s : σ} (hs : G s) :
    wp (run step is) (fun _ => G) (fun _ _ => True) s :=
  run_invariant step (P := fun _ _ => True) (fun i s hs _ => h.stays i s hs) is s hs (along_true step is s)

-- The rank bounds the ticks short of the goal.
theorem Responds.run_reaches (h : Responds step tick rank I G) (is : List ι) {s : σ} (hs : I s)
    (hticks : rank s < ticks step tick is s) :
    wp (run step is) (fun _ => G) (fun _ _ => True) s := by
  induction is generalizing s with
  | nil => exact absurd hticks (Nat.not_lt_zero _)
  | cons i is ih =>
      rw [run, wp_bind]
      have hlowers := h.lowers i s hs
      refine wp_of_runs (fun _ t ht => ?_) (fun _ _ _ => trivial)
      rcases wp_ok hlowers ht with hgoal | hlower
      · exact h.run_stays is hgoal
      · obtain ⟨hI, hrank⟩ := hlower
        apply ih hI
        simp only [ticks, ht] at hticks
        omega

-- The same towards a step instead of a state, in an environment that keeps to `P`.
structure Approaches (step : ι → EStateM ε σ PUnit) (tick : σ → ι → Bool) (rank : σ → Nat) (P : σ → ι → Prop)
    (I : σ → Prop) (F : σ → ι → Prop) : Prop where
  lowers : ∀ i s, P s i → I s → F s i ∨
    wp (step i) (fun _ t => I t ∧ rank t + (if tick s i then 1 else 0) ≤ rank s) (fun _ _ => False) s

theorem Approaches.run_meets {P : σ → ι → Prop} {F : σ → ι → Prop} (h : Approaches step tick rank P I F) (is : List ι)
    {s : σ} (hs : I s) (halong : Along step P is s) (hticks : rank s < ticks step tick is s) :
    ∃ before i after t, is = before ++ i :: after ∧ run step before s = .ok ⟨⟩ t ∧ I t ∧ P t i ∧ F t i := by
  induction is generalizing s with
  | nil => exact absurd hticks (Nat.not_lt_zero _)
  | cons i is ih =>
      obtain ⟨hp, hrest⟩ := halong
      rcases h.lowers i s hp hs with hgoal | hlower
      · exact ⟨[], i, is, s, rfl, rfl, hs, hp, hgoal⟩
      · obtain ⟨_, t, ht, hI, hrank⟩ := exists_ok_of_wp hlower
        simp only [ticks, ht] at hticks
        have halong : Along step P is t := wp_ok (x := step i) hrest ht
        obtain ⟨before, j, after, u, rfl, hrun, hmet⟩ := ih hI halong (by omega)
        exact ⟨i :: before, j, after, u, rfl, run_append_ok step (run_singleton_ok step ht) hrun, hmet⟩

end Halting
