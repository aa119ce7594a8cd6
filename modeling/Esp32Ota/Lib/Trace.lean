-- Traces of events, the most recent one first.
namespace Trace

variable {ε : Type} {P : ε → List ε → Prop} {event : ε} {events trace : List ε}

-- `P` holds of every event and the trace that it was added to.
def Justified (P : ε → List ε → Prop) (trace : List ε) : Prop :=
  ∀ later event earlier, trace = later ++ event :: earlier → P event earlier

theorem justified_nil : Justified P [] := by
  intro later event earlier h
  cases later <;> cases h

theorem Justified.cons (h : Justified P trace) (hevent : P event trace) : Justified P (event :: trace) := by
  intro later e earlier heq
  cases later with
  | nil =>
      obtain ⟨rfl, rfl⟩ := List.cons.inj heq
      exact hevent
  | cons first later =>
      obtain ⟨rfl, rfl⟩ := List.cons.inj heq
      exact h later e earlier rfl

-- Events that need no justification.
theorem Justified.append (h : Justified P trace) (hevents : ∀ event ∈ events, ∀ earlier, P event earlier) :
    Justified P (events ++ trace) := by
  induction events with
  | nil => exact h
  | cons event events ih =>
      apply (ih fun e he => hevents e (List.mem_cons_of_mem _ he)).cons
      exact hevents event List.mem_cons_self _

theorem Justified.mono {R : ε → List ε → Prop} (h : Justified P trace)
    (hP : ∀ event earlier, P event earlier → R event earlier) : Justified R trace :=
  fun later event earlier heq => hP event earlier (h later event earlier heq)

end Trace
