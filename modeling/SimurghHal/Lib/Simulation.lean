import Mathlib.Init

/-!
# Runs of deterministic machines and simulation

A machine takes an input in a state and returns an output and a next state. `run`
feeds it a list of inputs and collects the outputs. Two machines related step by
step produce the same outputs and stay related (`run_simulation`).

`Every` says of a run that all its steps have a property. Two properties that agree on
the states with an invariant agree on runs, when the invariant is kept by the steps that
have the first one (`every_congr`).
-/

namespace Simulation

variable {σ τ ι ο : Type*}

/-- Outputs and final state for a list of inputs. -/
def run (step : σ → ι → ο × σ) : σ → List ι → List ο × σ
  | s, [] => ([], s)
  | s, i :: is =>
    let (o, s') := step s i
    let (os, s'') := run step s' is
    (o :: os, s'')

variable {step : σ → ι → ο × σ} {step' : τ → ι → ο × τ}

theorem run_cons (s : σ) (i : ι) (is : List ι) :
    run step s (i :: is) =
      ((step s i).1 :: (run step (step s i).2 is).1, (run step (step s i).2 is).2) := rfl

/-- Forward simulation with equal outputs. -/
theorem run_simulation {R : σ → τ → Prop}
    (hstep : ∀ s t i, R s t → (step s i).1 = (step' t i).1 ∧ R (step s i).2 (step' t i).2) :
    ∀ (is : List ι) (s : σ) (t : τ), R s t →
      (run step s is).1 = (run step' t is).1 ∧ R (run step s is).2 (run step' t is).2 := by
  intro is
  induction is with
  | nil => exact fun s t hst => ⟨rfl, hst⟩
  | cons i is ih =>
    intro s t hst
    obtain ⟨hout, hnext⟩ := hstep s t i hst
    obtain ⟨houts, hfinal⟩ := ih _ _ hnext
    rw [run_cons, run_cons]
    exact ⟨by rw [hout, houts], hfinal⟩

theorem run_append (s : σ) (is js : List ι) :
    (run step s (is ++ js)).2 = (run step (run step s is).2 js).2 := by
  induction is generalizing s with
  | nil => rfl
  | cons i is ih => exact ih _

/-- Every step of the run from `s` has the property. -/
def Every (next : σ → ι → σ) (P : σ → ι → Prop) : σ → List ι → Prop
  | _, [] => True
  | s, i :: is => P s i ∧ Every next P (next s i) is

/-- A property of steps that follows from another one while an invariant holds. -/
theorem every_imp {next : σ → ι → σ} {P Q : σ → ι → Prop} {Inv : σ → Prop}
    (hstep : ∀ s i, Inv s → P s i → Q s i ∧ Inv (next s i)) :
    ∀ (is : List ι) (s : σ), Inv s → Every next P s is → Every next Q s is := by
  intro is
  induction is with
  | nil => exact fun s _ _ => trivial
  | cons i is ih =>
    rintro s hs ⟨hP, hrest⟩
    obtain ⟨hQ, hnext⟩ := hstep s i hs hP
    exact ⟨hQ, ih _ hnext hrest⟩

theorem every_mono {next : σ → ι → σ} {P Q : σ → ι → Prop} (h : ∀ s i, P s i → Q s i)
    (is : List ι) (s : σ) (hP : Every next P s is) : Every next Q s is :=
  @every_imp σ ι next P Q (fun _ => True) (fun s i _ hP => ⟨h s i hP, trivial⟩) is s trivial hP

theorem every_congr {next : σ → ι → σ} {P Q : σ → ι → Prop} {Inv : σ → Prop}
    (hkept : ∀ s i, Inv s → P s i → Inv (next s i)) (hiff : ∀ s i, Inv s → (P s i ↔ Q s i))
    (is : List ι) (s : σ) (hs : Inv s) : Every next P s is ↔ Every next Q s is := by
  constructor
  · exact every_imp (fun s i hs hP => ⟨(hiff s i hs).mp hP, hkept s i hs hP⟩) is s hs
  · refine every_imp (fun s i hs hQ => ?_) is s hs
    have hP := (hiff s i hs).mpr hQ
    exact ⟨hP, hkept s i hs hP⟩

end Simulation
