import Mathlib.Data.List.Basic

-- Weakest preconditions of programs that can halt: an `EStateM` program keeps
-- its state on both exits, so `wp` takes one postcondition for each of them.
namespace Halting

variable {ε σ τ α β ι : Type}

def wp (x : EStateM ε σ α) (Q : α → σ → Prop) (E : ε → σ → Prop) (s : σ) : Prop :=
  match x s with
  | .ok a t => Q a t
  | .error e t => E e t

instance {x : EStateM ε σ α} {Q : α → σ → Prop} {E : ε → σ → Prop} {s : σ}
    [∀ a t, Decidable (Q a t)] [∀ e t, Decidable (E e t)] : Decidable (wp x Q E s) :=
  match hx : x s with
  | .ok a t => decidable_of_iff (Q a t) (by rw [wp, hx])
  | .error e t => decidable_of_iff (E e t) (by rw [wp, hx])

-- The state a program leaves behind, on whichever exit it takes.
def final (x : EStateM ε σ α) (s : σ) : σ :=
  match x s with
  | .ok _ t => t
  | .error _ t => t

@[simp] theorem wp_pure (a : α) (Q : α → σ → Prop) (E : ε → σ → Prop) (s : σ) :
    wp (pure a) Q E s ↔ Q a s := Iff.rfl

@[simp] theorem wp_throw (e : ε) (Q : α → σ → Prop) (E : ε → σ → Prop) (s : σ) :
    wp (throw e) Q E s ↔ E e s := Iff.rfl

@[simp] theorem wp_get (Q : σ → σ → Prop) (E : ε → σ → Prop) (s : σ) :
    wp get Q E s ↔ Q s s := Iff.rfl

@[simp] theorem wp_set (t : σ) (Q : PUnit → σ → Prop) (E : ε → σ → Prop) (s : σ) :
    wp (set t) Q E s ↔ Q ⟨⟩ t := Iff.rfl

@[simp] theorem wp_modify (f : σ → σ) (Q : PUnit → σ → Prop) (E : ε → σ → Prop) (s : σ) :
    wp (modify f) Q E s ↔ Q ⟨⟩ (f s) := Iff.rfl

@[simp] theorem wp_bind (x : EStateM ε σ α) (f : α → EStateM ε σ β)
    (Q : β → σ → Prop) (E : ε → σ → Prop) (s : σ) :
    wp (x >>= f) Q E s ↔ wp x (fun a t => wp (f a) Q E t) E s := by
  simp only [wp, bind, EStateM.bind]
  cases x s <;> rfl

@[simp] theorem wp_map (f : α → β) (x : EStateM ε σ α)
    (Q : β → σ → Prop) (E : ε → σ → Prop) (s : σ) :
    wp (f <$> x) Q E s ↔ wp x (fun a => Q (f a)) E s := by
  simp only [wp, Functor.map, EStateM.map]
  cases x s <;> rfl

@[simp] theorem wp_ite (c : Prop) [Decidable c] (x y : EStateM ε σ α)
    (Q : α → σ → Prop) (E : ε → σ → Prop) (s : σ) :
    wp (if c then x else y) Q E s ↔ (c → wp x Q E s) ∧ (¬c → wp y Q E s) := by
  by_cases h : c <;> simp [h]

theorem wp_mono {x : EStateM ε σ α} {Q Q' : α → σ → Prop} {E E' : ε → σ → Prop} {s : σ}
    (h : wp x Q E s) (hQ : ∀ a t, Q a t → Q' a t) (hE : ∀ e t, E e t → E' e t) :
    wp x Q' E' s := by
  unfold wp at *
  cases hx : x s with
  | ok a t => rw [hx] at h; exact hQ a t h
  | error e t => rw [hx] at h; exact hE e t h

-- The rule for what holds however the program ends.
theorem wp_weaken {x : EStateM ε σ α} {P Q : σ → Prop} {s : σ} (h : wp x (fun _ => P) (fun _ => P) s)
    (himp : ∀ t, P t → Q t) : wp x (fun _ => Q) (fun _ => Q) s :=
  wp_mono h (fun _ t ht => himp t ht) (fun _ t ht => himp t ht)

theorem wp_and {x : EStateM ε σ α} {Q Q' : α → σ → Prop} {E E' : ε → σ → Prop} {s : σ}
    (h : wp x Q E s) (h' : wp x Q' E' s) :
    wp x (fun a t => Q a t ∧ Q' a t) (fun e t => E e t ∧ E' e t) s := by
  unfold wp at *
  cases hx : x s with
  | ok a t => rw [hx] at h h'; exact ⟨h, h'⟩
  | error e t => rw [hx] at h h'; exact ⟨h, h'⟩

-- What holds of every outcome holds without a look at the program.
theorem wp_of_forall {x : EStateM ε σ α} {Q : α → σ → Prop} {E : ε → σ → Prop} {s : σ}
    (hQ : ∀ a t, Q a t) (hE : ∀ e t, E e t) : wp x Q E s := by
  unfold wp
  cases x s with
  | ok a t => exact hQ a t
  | error e t => exact hE e t

theorem wp_contra {x : EStateM ε σ α} {Q : α → σ → Prop} {E : ε → σ → Prop} {s : σ}
    (h : wp x Q E s) (h' : wp x (fun a t => ¬Q a t) (fun e t => ¬E e t) s) : False := by
  unfold wp at *
  cases hx : x s with
  | ok a t => rw [hx] at h h'; exact h' h
  | error e t => rw [hx] at h h'; exact h' h

theorem wp_ok {x : EStateM ε σ α} {Q : α → σ → Prop} {E : ε → σ → Prop} {s t : σ} {a : α}
    (h : wp x Q E s) (hx : x s = .ok a t) : Q a t := by
  simpa only [wp, hx] using h

theorem wp_error {x : EStateM ε σ α} {Q : α → σ → Prop} {E : ε → σ → Prop} {s t : σ} {e : ε}
    (h : wp x Q E s) (hx : x s = .error e t) : E e t := by
  simpa only [wp, hx] using h

-- The program may be looked at after all.
theorem wp_of_runs {x : EStateM ε σ α} {Q : α → σ → Prop} {E : ε → σ → Prop} {s : σ}
    (hQ : ∀ a t, x s = .ok a t → Q a t) (hE : ∀ e t, x s = .error e t → E e t) : wp x Q E s := by
  unfold wp
  cases hx : x s with
  | ok a t => exact hQ a t hx
  | error e t => exact hE e t hx

-- Two programs agree where they start alike and go on alike from what that leaves.
theorem bind_congr_runs {x y : EStateM ε σ α} {f g : α → EStateM ε σ β} {s : σ} (hx : x s = y s)
    (h : ∀ a t, y s = .ok a t → f a t = g a t) : (x >>= f) s = (y >>= g) s := by
  simp only [bind, EStateM.bind, hx]
  cases hy : y s with
  | ok a t => exact h a t hy
  | error _ _ => rfl

theorem exists_ok_of_wp {x : EStateM ε σ α} {Q : α → σ → Prop} {s : σ}
    (h : wp x Q (fun _ _ => False) s) : ∃ a t, x s = .ok a t ∧ Q a t := by
  unfold wp at h
  cases hx : x s with
  | ok a t => exact ⟨a, t, rfl, by simpa only [hx] using h⟩
  | error e t => rw [hx] at h; exact h.elim

-- A condition on both exits is a condition on the state left behind.
theorem final_of_wp {x : EStateM ε σ α} {P : σ → Prop} {s : σ}
    (h : wp x (fun _ => P) (fun _ => P) s) : P (final x s) := by
  unfold wp at h
  unfold final
  cases hx : x s <;> simpa only [hx] using h

theorem wp_of_final {x : EStateM ε σ α} {P : σ → Prop} {s : σ} (h : P (final x s)) :
    wp x (fun _ => P) (fun _ => P) s := by
  unfold final at h
  unfold wp
  cases hx : x s <;> simpa only [hx] using h

theorem wp_final {x : EStateM ε σ α} {Q : α → σ → Prop} {E : ε → σ → Prop} {s : σ}
    (h : wp x (fun a t => final x s = t → Q a t) (fun e t => final x s = t → E e t) s) : wp x Q E s := by
  unfold wp final at *
  cases hx : x s with
  | ok a t => rw [hx] at h; exact h rfl
  | error e t => rw [hx] at h; exact h rfl

theorem final_bind (x : EStateM ε σ α) (f : α → EStateM ε σ β) (s : σ) :
    final (x >>= f) s = match x s with
      | .ok a t => final (f a) t
      | .error _ t => t := by
  simp only [final, bind, EStateM.bind]
  cases x s <;> rfl

section Zoom

-- Run a program of a component inside the state that contains the component.
def zoom (get : σ → τ) (put : τ → σ → σ) (x : EStateM ε τ α) : EStateM ε σ α := fun s =>
  match x (get s) with
  | .ok a t => .ok a (put t s)
  | .error e t => .error e (put t s)

@[simp] theorem wp_zoom (get : σ → τ) (put : τ → σ → σ) (x : EStateM ε τ α)
    (Q : α → σ → Prop) (E : ε → σ → Prop) (s : σ) :
    wp (zoom get put x) Q E s ↔
      wp x (fun a t => Q a (put t s)) (fun e t => E e (put t s)) (get s) := by
  simp only [wp, zoom]
  cases x (get s) <;> rfl

end Zoom

section Runs

variable (step : ι → EStateM ε σ PUnit)

-- A run makes the steps in turn and stops at the first one that halts.
def run : List ι → EStateM ε σ PUnit
  | [] => pure ⟨⟩
  | i :: is => do
    step i
    run is

theorem wp_run_append (is js : List ι) (Q : PUnit → σ → Prop) (E : ε → σ → Prop) (s : σ) :
    wp (run step (is ++ js)) Q E s ↔ wp (run step is) (fun _ t => wp (run step js) Q E t) E s := by
  induction is generalizing s with
  | nil => rfl
  | cons i is ih => simp only [List.cons_append, run, wp_bind, ih]

-- `P` holds of every step of the run, in the state that the step starts from.
def Along (P : σ → ι → Prop) : List ι → σ → Prop
  | [], _ => True
  | i :: is, s => P s i ∧ wp (step i) (fun _ t => Along P is t) (fun _ _ => True) s

instance decidableAlong {P : σ → ι → Prop} [∀ s i, Decidable (P s i)] :
    (is : List ι) → (s : σ) → Decidable (Along step P is s)
  | [], _ => isTrue trivial
  | i :: is, s =>
      have : ∀ t, Decidable (Along step P is t) := decidableAlong is
      inferInstanceAs (Decidable (P s i ∧ wp (step i) (fun _ t => Along step P is t) (fun _ _ => True) s))

-- `I` is kept by the steps that meet `P`; `J` is what a halted step still guarantees.
theorem run_invariant {P : σ → ι → Prop} {I : σ → Prop} {J : ε → σ → Prop}
    (hstep : ∀ i s, I s → P s i → wp (step i) (fun _ => I) J s)
    (is : List ι) (s : σ) (hs : I s) (hp : Along step P is s) :
    wp (run step is) (fun _ => I) J s := by
  induction is generalizing s with
  | nil => exact hs
  | cons i is ih =>
      simp only [run, wp_bind]
      apply wp_mono (wp_and (hstep i s hs hp.1) hp.2)
      · intro _ t hpost
        obtain ⟨ht, hrest⟩ := hpost
        exact ih t ht hrest
      · intro e t hpost
        obtain ⟨ht, -⟩ := hpost
        exact ht

theorem along_singleton {P : σ → ι → Prop} {i : ι} {s : σ} (h : P s i) : Along step P [i] s :=
  ⟨h, wp_of_forall (fun _ _ => trivial) (fun _ _ => trivial)⟩

theorem along_of_forall {R : ι → Prop} (is : List ι) (s : σ) (h : ∀ i ∈ is, R i) :
    Along step (fun _ i => R i) is s := by
  induction is generalizing s with
  | nil => trivial
  | cons i is ih =>
      refine ⟨h i List.mem_cons_self, ?_⟩
      have hrest : ∀ t, Along step (fun _ i => R i) is t :=
        fun t => ih t fun j hj => h j (List.mem_cons_of_mem i hj)
      exact wp_of_forall (fun _ t => hrest t) (fun _ _ => trivial)

theorem along_true (is : List ι) (s : σ) : Along step (fun _ _ => True) is s :=
  along_of_forall step is s fun _ _ => trivial

theorem along_and {P R : σ → ι → Prop} (is : List ι) (s : σ) (hp : Along step P is s)
    (hr : Along step R is s) : Along step (fun s i => P s i ∧ R s i) is s := by
  induction is generalizing s with
  | nil => trivial
  | cons i is ih =>
      refine ⟨⟨hp.1, hr.1⟩, wp_mono (wp_and hp.2 hr.2) ?_ (fun _ _ _ => trivial)⟩
      intro _ t ht
      exact ih t ht.1 ht.2

theorem along_take {P : σ → ι → Prop} (n : Nat) (is : List ι) (s : σ) (h : Along step P is s) :
    Along step P (is.take n) s := by
  induction n generalizing is s with
  | zero => trivial
  | succ n ih =>
      cases is with
      | nil => trivial
      | cons i is => exact ⟨h.1, wp_mono h.2 (fun _ t ht => ih is t ht) (fun _ _ _ => trivial)⟩

-- Where a step that fails `P` breaks `J` or `E`, the runs that keep them throughout
-- are those that meet `P` at every step, under what holds of the steps anyway.
theorem run_iff_along {P R : σ → ι → Prop} {I J : σ → Prop} {E : ε → σ → Prop}
    (hstep : ∀ i s, I s → R s i → P s i → wp (step i) (fun _ => I) E s)
    (hbreak : ∀ i s, I s → ¬P s i → wp (step i) (fun _ t => ¬J t) (fun e t => ¬E e t) s)
    (hkeeps : ∀ s, I s → J s) (is : List ι) (s : σ) (hs : I s) (hr : Along step R is s) :
    (∀ n, wp (run step (is.take n)) (fun _ => J) E s) ↔ Along step P is s := by
  constructor
  · intro hrun
    induction is generalizing s with
    | nil => trivial
    | cons i is ih =>
        have hp : P s i := by
          by_contra hp
          have hone := hrun 1
          simp only [List.take_succ_cons, List.take_zero, run, wp_bind, wp_pure] at hone
          exact wp_contra hone (hbreak i s hs hp)
        refine ⟨hp, ?_⟩
        apply wp_of_runs
        · intro a t hx
          have ht : I t := wp_ok (hstep i s hs hr.1 hp) hx
          have hrest : Along step R is t := wp_ok (x := step i) hr.2 hx
          refine ih t ht hrest fun n => ?_
          have hn := hrun (n + 1)
          simp only [List.take_succ_cons, run, wp_bind] at hn
          exact wp_ok (x := step i) hn hx
        · exact fun _ _ _ => trivial
  · intro hp n
    have hsteps := along_take step n is s (along_and step is s hp hr)
    exact wp_mono (run_invariant step (fun i s hs h => hstep i s hs h.2 h.1) (is.take n) s hs hsteps)
      (fun _ t ht => hkeeps t ht) (fun _ _ h => h)

-- Under an invariant two conditions may be the same.
theorem along_congr {P R : σ → ι → Prop} {I : σ → Prop} (hiff : ∀ i s, I s → (P s i ↔ R s i))
    (hstep : ∀ i s, I s → P s i → wp (step i) (fun _ => I) (fun _ _ => True) s) (is : List ι) {s : σ}
    (hs : I s) : Along step P is s ↔ Along step R is s := by
  induction is generalizing s with
  | nil => exact Iff.rfl
  | cons i is ih =>
      unfold Along
      rw [← hiff i s hs]
      refine and_congr_right fun hp => ?_
      have hI := hstep i s hs hp
      unfold wp at hI ⊢
      cases hx : step i s with
      | ok a t =>
          rw [hx] at hI
          exact ih hI
      | error _ _ => exact Iff.rfl

theorem along_mono {P R : σ → ι → Prop} (himp : ∀ s i, P s i → R s i) (is : List ι) {s : σ}
    (h : Along step P is s) : Along step R is s := by
  induction is generalizing s with
  | nil => trivial
  | cons i is ih => exact ⟨himp s i h.1, wp_mono h.2 (fun _ _ => ih) (fun _ _ _ => trivial)⟩

theorem run_singleton_ok {i : ι} {s t : σ} (h : step i s = .ok ⟨⟩ t) : run step [i] s = .ok ⟨⟩ t := by
  have hrun : wp (run step [i]) (fun _ v => v = t) (fun _ _ => False) s := by
    simp only [run, wp_bind, wp_pure]
    simp only [wp, h]
  obtain ⟨_, v, hv, rfl⟩ := exists_ok_of_wp hrun
  exact hv

theorem run_append_ok {is js : List ι} {s t u : σ} (h : run step is s = .ok ⟨⟩ t) (h' : run step js t = .ok ⟨⟩ u) :
    run step (is ++ js) s = .ok ⟨⟩ u := by
  have happend : wp (run step (is ++ js)) (fun _ v => v = u) (fun _ _ => False) s := by
    rw [wp_run_append]
    simp only [wp, h, h']
  obtain ⟨_, v, hv, rfl⟩ := exists_ok_of_wp happend
  exact hv

end Runs

end Halting
