import Esp32Ota.Lib.Scan
import Esp32Ota.Lib.Simulation

-- Programs that note whether one of their accesses has left its memory.
namespace CLib

open Halting

structure Watched (σ : Type) where
  state : σ
  outOfRange : Bool

section Watched

variable {σ α : Type}

-- A program without accesses of its own.
def watch (x : EStateM Halt σ α) : EStateM Halt (Watched σ) α :=
  zoom Watched.state (fun t w => { w with state := t }) x

def access (x : Access α) : EStateM Halt (Watched σ) α :=
  match x with
  | .ok a => pure a
  | .error e => do
    modify fun w => { w with outOfRange := true }
    throw e

@[simp] theorem wp_watch (x : EStateM Halt σ α) (Q : α → Watched σ → Prop) (E : Halt → Watched σ → Prop)
    (w : Watched σ) : wp (watch x) Q E w ↔
      wp x (fun a t => Q a { w with state := t }) (fun e t => E e { w with state := t }) w.state :=
  wp_zoom _ _ _ _ _ _

theorem watch_pure (a : α) : watch (σ := σ) (pure a) = pure a := rfl

theorem watch_bind {β : Type} (x : EStateM Halt σ α) (f : α → EStateM Halt σ β) :
    watch (x >>= f) = watch x >>= fun a => watch (f a) := by
  funext w
  simp only [watch, zoom, bind, EStateM.bind]
  cases x w.state <;> rfl

theorem watch_ite {c : Prop} [Decidable c] (x y : EStateM Halt σ α) :
    watch (if c then x else y) = if c then watch x else watch y := apply_ite watch c x y

@[simp] theorem access_ok (a : α) : access (σ := σ) (.ok a) = pure a := rfl

@[simp] theorem wp_access_error (e : Halt) (Q : α → Watched σ → Prop) (E : Halt → Watched σ → Prop)
    (w : Watched σ) : wp (access (.error e)) Q E w ↔ E e { w with outOfRange := true } := Iff.rfl

-- No access has left its memory.
def Inside (w : Watched σ) (s : σ) : Prop := w = ⟨s, false⟩

theorem watch_inside (x : EStateM Halt σ α) {w : Watched σ} {s : σ} (h : Inside w s) :
    Simulates Inside (watch x) x w s := by
  obtain rfl := h
  exact wp_of_runs (x := watch x) (fun a t hx => by
    unfold watch zoom at hx
    split at hx
    · rename_i hrun
      cases hx
      exact ⟨_, hrun, rfl⟩
    · cases hx) (fun e t hx => by
    unfold watch zoom at hx
    split at hx
    · cases hx
    · rename_i hrun
      cases hx
      exact ⟨_, hrun, rfl⟩)

end Watched

end CLib
