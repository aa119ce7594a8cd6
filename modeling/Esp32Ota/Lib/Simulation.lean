import Esp32Ota.Lib.Halting

-- Programs on two state types that make the same exits, in related states.
namespace Halting

variable {ε σ τ σ' τ' α β ι κ : Type}

-- From `s` on, `x` makes the exit that `y` makes from `u` on.
def Simulates (R : σ → τ → Prop) (x : EStateM ε σ α) (y : EStateM ε τ α) (s : σ) (u : τ) : Prop :=
  wp x (fun a t => ∃ v, y u = .ok a v ∧ R t v) (fun e t => ∃ v, y u = .error e v ∧ R t v) s

section Rules

variable {R : σ → τ → Prop} {s : σ} {u : τ}

theorem simulates_pure (h : R s u) (a : α) : Simulates (ε := ε) R (pure a) (pure a) s u := ⟨u, rfl, h⟩

theorem simulates_throw (h : R s u) (e : ε) :
    Simulates R (throw e : EStateM ε σ α) (throw e) s u := ⟨u, rfl, h⟩

theorem simulates_bind {x : EStateM ε σ α} {y : EStateM ε τ α} {k : α → EStateM ε σ β}
    {l : α → EStateM ε τ β} (hx : Simulates R x y s u)
    (hk : ∀ a t v, R t v → Simulates R (k a) (l a) t v) :
    Simulates R (x >>= k) (y >>= l) s u := by
  unfold Simulates at hx ⊢
  rw [wp_bind]
  apply wp_mono hx
  · intro a t ht
    obtain ⟨v, hy, hv⟩ := ht
    have hrest : (y >>= l) u = l a v := by simp only [bind, EStateM.bind, hy]
    rw [hrest]
    exact hk a t v hv
  · intro e t ht
    obtain ⟨v, hy, hv⟩ := ht
    exact ⟨v, by simp only [bind, EStateM.bind, hy], hv⟩

-- The two programs go on with the states that they are in.
theorem simulates_get {k : σ → EStateM ε σ β} {l : τ → EStateM ε τ β}
    (h : Simulates R (k s) (l u) s u) : Simulates R (get >>= k) (get >>= l) s u := h

theorem simulates_set {t : σ} {v : τ} (h : R t v) : Simulates (ε := ε) R (set t) (set v) s u := ⟨v, rfl, h⟩

theorem simulates_modify {g : σ → σ} {h : τ → τ} (hR : R (g s) (h u)) :
    Simulates (ε := ε) R (modify g) (modify h) s u := ⟨h u, rfl, hR⟩

theorem simulates_ite {c : Prop} [Decidable c] {x x' : EStateM ε σ α} {y y' : EStateM ε τ α}
    (h : c → Simulates R x y s u) (h' : ¬c → Simulates R x' y' s u) :
    Simulates R (if c then x else x') (if c then y else y') s u := by
  by_cases hc : c
  · rw [if_pos hc, if_pos hc]
    exact h hc
  · rw [if_neg hc, if_neg hc]
    exact h' hc

-- A program of a component, where related components make related states.
theorem simulates_zoom {get : σ → σ'} {put : σ' → σ → σ} {get' : τ → τ'} {put' : τ' → τ → τ}
    {C : σ' → τ' → Prop} {x : EStateM ε σ' α} {y : EStateM ε τ' α}
    (h : Simulates C x y (get s) (get' u)) (hput : ∀ t v, C t v → R (put t s) (put' v u)) :
    Simulates R (zoom get put x) (zoom get' put' y) s u := by
  unfold Simulates at h ⊢
  rw [wp_zoom]
  apply wp_mono h
  · intro a t ht
    obtain ⟨v, hy, hv⟩ := ht
    exact ⟨put' v u, by simp only [zoom, hy], hput t v hv⟩
  · intro e t ht
    obtain ⟨v, hy, hv⟩ := ht
    exact ⟨put' v u, by simp only [zoom, hy], hput t v hv⟩

-- A program in one and the same state.
theorem simulates_self {x : EStateM ε σ α} (s : σ) : Simulates Eq x x s s :=
  wp_of_runs (fun _ t hx => ⟨t, hx, rfl⟩) (fun _ t hx => ⟨t, hx, rfl⟩)

end Rules

section Refinement

-- From `s` on, `x` makes the exit that `y` makes from `u` on. The answers may be different ones,
-- and a program that halts need not leave as much behind.
def Refines (S : α → β → σ → τ → Prop) (E : σ → τ → Prop) (x : EStateM ε σ α) (y : EStateM ε τ β)
    (s : σ) (u : τ) : Prop :=
  wp x (fun a t => ∃ b v, y u = .ok b v ∧ S a b t v) (fun e t => ∃ v, y u = .error e v ∧ E t v) s

variable {ρ α' β' : Type} {S : α → β → σ → τ → Prop} {S' : α' → β' → σ → τ → Prop} {E : σ → τ → Prop} {s : σ} {u : τ}

theorem refines_pure {a : α} {b : β} (h : S a b s u) :
    Refines (ε := ε) S E (pure a) (pure b) s u := ⟨b, u, rfl, h⟩

theorem refines_throw (h : E s u) (e : ε) :
    Refines S E (throw e : EStateM ε σ α) (throw e : EStateM ε τ β) s u := ⟨u, rfl, h⟩

theorem refines_bind {x : EStateM ε σ α} {y : EStateM ε τ β} {k : α → EStateM ε σ α'} {l : β → EStateM ε τ β'}
    (hx : Refines S E x y s u) (hk : ∀ a b t v, S a b t v → Refines S' E (k a) (l b) t v) :
    Refines S' E (x >>= k) (y >>= l) s u := by
  unfold Refines at hx ⊢
  rw [wp_bind]
  apply wp_mono hx
  · intro a t ht
    obtain ⟨b, v, hy, hv⟩ := ht
    have hrest : (y >>= l) u = l b v := by simp only [bind, EStateM.bind, hy]
    rw [hrest]
    exact hk a b t v hv
  · intro e t ht
    obtain ⟨v, hy, hv⟩ := ht
    exact ⟨v, by simp only [bind, EStateM.bind, hy], hv⟩

-- Where the exit of the second program is known, the first one has to make it.
theorem refines_of_ok {x : EStateM ε σ α} {y : EStateM ε τ β} {b : β} {v : τ} (hy : y u = .ok b v)
    (h : wp x (fun a t => S a b t v) (fun _ _ => False) s) : Refines S E x y s u :=
  wp_mono h (fun _ _ ht => ⟨b, v, hy, ht⟩) (fun _ _ hfalse => hfalse.elim)

theorem refines_of_error {x : EStateM ε σ α} {y : EStateM ε τ β} {e : ε} {v : τ} (hy : y u = .error e v)
    (h : wp x (fun _ _ => False) (fun e' t => e' = e ∧ E t v) s) : Refines S E x y s u :=
  wp_mono h (fun _ _ hfalse => hfalse.elim) (fun _ _ ht => by obtain ⟨rfl, hE⟩ := ht; exact ⟨v, hy, hE⟩)

-- What only the first program does.
theorem refines_left {x : EStateM ε σ α'} {k : α' → EStateM ε σ α} {y : EStateM ε τ β}
    (h : wp x (fun a t => Refines S E (k a) y t u) (fun _ _ => False) s) : Refines S E (x >>= k) y s u := by
  unfold Refines at h ⊢
  rw [wp_bind]
  exact wp_mono h (fun _ _ ht => ht) (fun _ _ hfalse => hfalse.elim)

theorem refines_ite {c : Prop} [Decidable c] {x x' : EStateM ε σ α} {y y' : EStateM ε τ β}
    (h : c → Refines S E x y s u) (h' : ¬c → Refines S E x' y' s u) :
    Refines S E (if c then x else x') (if c then y else y') s u := by
  by_cases hc : c
  · rw [if_pos hc, if_pos hc]
    exact h hc
  · rw [if_neg hc, if_neg hc]
    exact h' hc

-- A program of a component does there what it does on its own.
theorem refines_zoom {S : α → α → σ → τ → Prop} {get : σ → τ} {put : τ → σ → σ} {x : EStateM ε τ α} (hget : get s = u)
    (hput : ∀ a t, S a a (put t s) t) (hE : ∀ t, E (put t s) t) : Refines S E (zoom get put x) x s u := by
  subst hget
  unfold Refines
  rw [wp_zoom]
  exact wp_of_runs (fun a t hx => ⟨a, t, hx, hput a t⟩) (fun _ t hx => ⟨t, hx, hE t⟩)

-- The state around the component of the first program plays no part.
theorem refines_zoom_left {get : ρ → σ} {put : σ → ρ → ρ} {x : EStateM ε σ α} {y : EStateM ε τ β} {r : ρ}
    {S' : α → β → ρ → τ → Prop} {E' : ρ → τ → Prop} (h : Refines S E x y (get r) u)
    (hS : ∀ a b t v, S a b t v → S' a b (put t r) v) (hE : ∀ t v, E t v → E' (put t r) v) :
    Refines S' E' (zoom get put x) y r u := by
  unfold Refines
  rw [wp_zoom]
  exact wp_mono h (fun a t ht => by obtain ⟨b, v, hy, hv⟩ := ht; exact ⟨b, v, hy, hS a b t v hv⟩)
    (fun _ t ht => by obtain ⟨v, hy, hv⟩ := ht; exact ⟨v, hy, hE t v hv⟩)

theorem refines_run {step : ι → EStateM ε σ PUnit} {other : ι → EStateM ε τ PUnit} {R : σ → τ → Prop}
    (hstep : ∀ i s u, R s u → Refines (fun _ _ => R) E (step i) (other i) s u) (is : List ι) {s : σ} {u : τ}
    (hsu : R s u) : Refines (fun _ _ => R) E (run step is) (run other is) s u := by
  induction is generalizing s u with
  | nil => exact refines_pure hsu
  | cons i is ih => exact refines_bind (hstep i s u hsu) fun _ _ _ _ htv => ih htv

end Refinement

section Images

-- From `s` on, `y` does to the images what `x` does to the states.
def Maps (f : σ → τ) (x : EStateM ε σ α) (y : EStateM ε τ α) (s : σ) : Prop :=
  wp x (fun a t => y (f s) = .ok a (f t)) (fun e t => y (f s) = .error e (f t)) s

variable {f : σ → τ} {s : σ} {x : EStateM ε σ α} {y : EStateM ε τ α}

theorem maps_of_simulates (h : Simulates (fun t v => v = f t) x y s (f s)) : Maps f x y s :=
  wp_mono h (fun _ _ ht => by obtain ⟨_, hy, rfl⟩ := ht; exact hy)
    (fun _ _ ht => by obtain ⟨_, hy, rfl⟩ := ht; exact hy)

theorem Maps.ok {a : α} {t : σ} (h : Maps f x y s) (hx : x s = .ok a t) : y (f s) = .ok a (f t) := by
  simpa only [Maps, wp, hx] using h

theorem Maps.error {e : ε} {t : σ} (h : Maps f x y s) (hx : x s = .error e t) :
    y (f s) = .error e (f t) := by
  simpa only [Maps, wp, hx] using h

theorem Maps.final_eq (h : Maps f x y s) : final y (f s) = f (final x s) := by
  unfold final
  cases hx : x s with
  | ok a t => simp only [h.ok hx]
  | error e t => simp only [h.error hx]

end Images

section Runs

variable (step : ι → EStateM ε σ PUnit) (other : κ → EStateM ε τ PUnit) (matching : σ → ι → Option κ)

-- The steps of the other system that a run makes.
def matchingSteps : List ι → σ → List κ
  | [], _ => []
  | i :: is, s =>
    (matching s i).toList ++
      match step i s with
      | .ok _ t => matchingSteps is t
      | .error _ _ => []

-- Every step makes one of the other system or none. Where that system halts with `wait`,
-- this one goes on, without further steps of it.
structure Matching (R : σ → τ → Prop) (Held : σ → Prop) (wait : ε) : Prop where
  quiet : ∀ i s u, matching s i = none → R s u →
    wp (step i) (fun _ t => R t u ∧ (Held s → Held t)) (fun _ _ => False) s
  makes : ∀ i k s u, matching s i = some k → R s u →
    wp (step i)
      (fun _ t => wp (other k) (fun _ v => R t v ∧ ¬Held t) (fun e v => e = wait ∧ R t v ∧ Held t) u)
      (fun e t => wp (other k) (fun _ _ => False) (fun e' v => e' = e ∧ R t v) u) s
  held : ∀ i s, Held s → matching s i = none

variable {step other matching} {R : σ → τ → Prop} {Held : σ → Prop} {wait : ε}

theorem Matching.run_held (h : Matching step other matching R Held wait) (is : List ι) {s : σ} {u : τ}
    (hs : Held s) (hsu : R s u) :
    wp (run step is) (fun _ t => Held t ∧ R t u) (fun _ _ => False) s := by
  refine run_invariant step (I := fun t => Held t ∧ R t u) ?_ is s ⟨hs, hsu⟩ (along_true step is s)
  intro i t ht _
  obtain ⟨hheld, hR⟩ := ht
  exact wp_mono (h.quiet i t u (h.held i t hheld) hR) (fun _ _ hv => ⟨hv.2 hheld, hv.1⟩)
    (fun _ _ hfalse => hfalse)

-- A run does to the one system what the steps that it makes do to the other.
theorem Matching.run_matches (h : Matching step other matching R Held wait) (is : List ι) {s : σ} {u : τ}
    (hsu : R s u) :
    wp (run step is)
      (fun _ t => wp (run other (matchingSteps step matching is s)) (fun _ v => R t v)
        (fun e v => e = wait ∧ R t v ∧ Held t) u)
      (fun e t => wp (run other (matchingSteps step matching is s)) (fun _ _ => False)
        (fun e' v => e' = e ∧ R t v) u) s := by
  induction is generalizing s u with
  | nil => exact hsu
  | cons i is ih =>
      rw [run, wp_bind]
      cases hi : matching s i with
      | none =>
          have hquiet := h.quiet i s u hi hsu
          refine wp_of_runs (fun _ t ht => ?_) (fun e t ht => (wp_error hquiet ht).elim)
          have hsteps : matchingSteps step matching (i :: is) s = matchingSteps step matching is t := by
            simp only [matchingSteps, hi, ht, Option.toList_none, List.nil_append]
          rw [hsteps]
          exact ih (wp_ok hquiet ht).1
      | some k =>
          have hmakes := h.makes i k s u hi hsu
          refine wp_of_runs (fun _ t ht => ?_) (fun e t ht => ?_)
          · have hsteps : matchingSteps step matching (i :: is) s = k :: matchingSteps step matching is t := by
              simp only [matchingSteps, hi, ht, Option.toList_some, List.singleton_append]
            have hmade := wp_ok hmakes ht
            rw [hsteps]
            simp only [run, wp_bind]
            cases hu : other k u with
            | ok _ v =>
                refine wp_mono (ih (wp_ok hmade hu).1) (fun _ w hw => ?_) (fun _ w hw => ?_)
                · rw [wp, hu]
                  exact hw
                · rw [wp, hu]
                  exact hw
            | error e v =>
                obtain ⟨hwait, hR, hheld⟩ := wp_error hmade hu
                refine wp_mono (h.run_held is hheld hR) (fun _ w hw => ?_) (fun _ _ hfalse => hfalse.elim)
                rw [wp, hu]
                exact ⟨hwait, hw.2, hw.1⟩
          · have hsteps : matchingSteps step matching (i :: is) s = [k] := by
              simp only [matchingSteps, hi, ht, Option.toList_some, List.append_nil]
            have hmade := wp_error hmakes ht
            rw [hsteps]
            simpa only [run, wp_bind, wp_pure] using hmade

-- The runs end together, unless the last step of the other one waits.
theorem Matching.run_exits (h : Matching step other matching R Held wait) (is : List ι) {s : σ} {u : τ}
    (hsu : R s u) :
    (∀ t, run step is s = .ok ⟨⟩ t → ∃ v, R t v ∧
      (run other (matchingSteps step matching is s) u = .ok ⟨⟩ v ∨
        run other (matchingSteps step matching is s) u = .error wait v ∧ Held t)) ∧
    ∀ e t, run step is s = .error e t → ∃ v, R t v ∧
      run other (matchingSteps step matching is s) u = .error e v := by
  have hmatches := h.run_matches is hsu
  constructor
  · intro t ht
    have hother := wp_ok (x := run step is) hmatches ht
    rcases hresult : run other (matchingSteps step matching is s) u with ⟨_, v⟩ | ⟨e, v⟩
    · exact ⟨v, wp_ok (x := run other _) hother hresult, .inl rfl⟩
    · obtain ⟨rfl, hv, hheld⟩ := wp_error (x := run other _) hother hresult
      exact ⟨v, hv, .inr ⟨rfl, hheld⟩⟩
  · intro e t ht
    have hother := wp_error (x := run step is) hmatches ht
    rcases hresult : run other (matchingSteps step matching is s) u with ⟨_, v⟩ | ⟨e', v⟩
    · exact (wp_ok (x := run other _) hother hresult).elim
    · obtain ⟨rfl, hv⟩ := wp_error (x := run other _) hother hresult
      exact ⟨v, hv, rfl⟩

-- Where nothing is ever held up, every run simulates the steps that it makes.
theorem Matching.run_simulates (h : Matching step other matching R (fun _ => False) wait) (is : List ι)
    {s : σ} {u : τ} (hsu : R s u) :
    Simulates R (run step is) (run other (matchingSteps step matching is s)) s u := by
  obtain ⟨hok, herror⟩ := h.run_exits is hsu
  refine wp_of_runs (fun _ t ht => ?_) (fun e t ht => ?_)
  · obtain ⟨v, hv, hrun | ⟨-, hheld⟩⟩ := hok t ht
    · exact ⟨v, hrun, hv⟩
    · exact hheld.elim
  · obtain ⟨v, hv, hrun⟩ := herror e t ht
    exact ⟨v, hrun, hv⟩

-- What the other system keeps in its steps, this one keeps where it is not held up.
theorem Matching.run_keeps (h : Matching step other matching R Held wait) {P : τ → κ → Prop} {I : τ → Prop}
    (hstep : ∀ k u, I u → P u k → wp (other k) (fun _ => I) (fun _ _ => True) u) (is : List ι) {s : σ} {u : τ}
    (hsu : R s u) (hu : I u) (hp : Along other P (matchingSteps step matching is s) u) :
    wp (run step is) (fun _ t => ¬Held t → ∃ v, R t v ∧ I v) (fun _ _ => True) s := by
  have hother := run_invariant other hstep (matchingSteps step matching is s) u hu hp
  refine wp_of_runs (fun _ t ht hfree => ?_) (fun _ _ _ => trivial)
  obtain ⟨v, hv, hrun | ⟨-, hheld⟩⟩ := (h.run_exits is hsu).1 t ht
  · exact ⟨v, hv, wp_ok (x := run other _) hother hrun⟩
  · exact absurd hheld hfree

-- Each of these steps is made by a step of the run.
theorem exists_of_matchingSteps (is : List ι) {s : σ} {before after : List κ} {k : κ}
    (h : matchingSteps step matching is s = before ++ k :: after) :
    ∃ js i later t, is = js ++ i :: later ∧ run step js s = .ok ⟨⟩ t ∧ matching t i = some k ∧
      matchingSteps step matching js s = before := by
  induction is generalizing s before with
  | nil => simp [matchingSteps] at h
  | cons i is ih =>
      have hlater : ∀ rest : List κ, (matching s i).toList ++ rest = before →
          (match step i s with
            | .ok _ t => matchingSteps step matching is t
            | .error _ _ => []) = rest ++ k :: after →
          ∃ js j later t, i :: is = js ++ j :: later ∧ run step js s = .ok ⟨⟩ t ∧ matching t j = some k ∧
            matchingSteps step matching js s = before := by
        intro rest hbefore hrest
        cases ht : step i s with
        | error e t => simp [ht] at hrest
        | ok _ t =>
            rw [ht] at hrest
            obtain ⟨js, j, later, u, rfl, hrun, hj, hjs⟩ := ih hrest
            refine ⟨i :: js, j, later, u, rfl, run_append_ok step (run_singleton_ok step ht) hrun, hj, ?_⟩
            rw [matchingSteps, ht, ← hbefore, ← hjs]
      rw [matchingSteps] at h
      cases hi : matching s i with
      | none =>
          rw [hi] at h hlater
          exact hlater before rfl h
      | some first =>
          rw [hi, Option.toList_some, List.singleton_append] at h
          cases before with
          | nil =>
              obtain ⟨rfl, -⟩ := List.cons.inj h
              exact ⟨[], i, is, s, rfl, rfl, hi, rfl⟩
          | cons b before =>
              obtain ⟨rfl, hrest⟩ := List.cons.inj h
              exact hlater before (by rw [hi]; rfl) hrest

end Runs

end Halting
