import Mathlib.Data.List.Basic
import Mathlib.Data.List.Forall2
import Mathlib.Logic.Relation

/-!
# Loops that can be left early

The body of a loop returns the next state as `.ok`, or as `.error` to leave the loop
and every loop around it. `loop_collect` is the rule for loops over a list that gather
a list: what the body adds for one element, the loop adds for all of them in order.

A loop without a bound is run with fuel. It returns when some amount of fuel is enough,
and what it returns does not depend on the amount (`whileLoop_mono`, `Returns.unique`).
-/

namespace Loop

variable {α β ρ σ : Type*}

/-- Runs the body over a list. -/
def loop (body : σ → α → Except σ σ) : List α → σ → Except σ σ
  | [], s => .ok s
  | a :: as, s =>
    match body s a with
    | .ok s' => loop body as s'
    | .error s' => .error s'

/-- The state at the end, whether the loop was left early or not. -/
def final : Except σ σ → σ
  | .ok s => s
  | .error s => s

/-- `I` holds when the loop goes on, `B` when it is left. -/
def Outcome (I B : σ → List β → Prop) (xs : List β) : Except σ σ → Prop
  | .ok s => I s xs
  | .error s => B s xs

theorem Outcome.final {I B : σ → List β → Prop} {P : σ → Prop} {xs : List β} {r : Except σ σ}
    (h : Outcome I B xs r) (hI : ∀ s, I s xs → P s) (hB : ∀ s, B s xs → P s) :
    P (final r) := by
  cases r with
  | ok s => exact hI s h
  | error s => exact hB s h

/-- A body that adds `g a` to the list for each `a`, until it leaves the loop in a state
that no longer depends on the rest of the list. -/
theorem loop_collect {body : σ → α → Except σ σ} {I B : σ → List β → Prop} {g : α → List β}
    (hbody : ∀ s a xs, I s xs → Outcome I B (xs ++ g a) (body s a))
    (hleft : ∀ s xs ys, B s xs → B s (xs ++ ys)) :
    ∀ (as : List α) (s : σ) (xs : List β), I s xs →
      Outcome I B (xs ++ as.flatMap g) (loop body as s) := by
  intro as
  induction as with
  | nil =>
    intro s xs hs
    rw [List.flatMap_nil, List.append_nil]
    exact hs
  | cons a as ih =>
    intro s xs hs
    have hstep := hbody s a xs hs
    rw [List.flatMap_cons, ← List.append_assoc, loop]
    cases hr : body s a with
    | ok s' =>
      rw [hr] at hstep
      exact ih s' _ hstep
    | error s' =>
      rw [hr] at hstep
      exact hleft s' _ _ hstep

/-- What the body keeps, whether it goes on or leaves, the loop keeps. -/
theorem final_loop {body : σ → α → Except σ σ} {P : σ → Prop}
    (hbody : ∀ s a, P s → P (final (body s a))) :
    ∀ (as : List α) (s : σ), P s → P (final (loop body as s)) := by
  intro as
  induction as with
  | nil => exact fun _ hs => hs
  | cons a as ih =>
    intro s hs
    have hstep := hbody s a hs
    rw [loop]
    cases hr : body s a with
    | ok s' =>
      rw [hr] at hstep
      exact ih s' hstep
    | error s' =>
      rw [hr] at hstep
      exact hstep

/-! ### Loops without a bound -/

/-- Runs the body until it leaves the loop with a result. `none` stands for a body that
does not come back. -/
def whileLoop (body : σ → Option (Except ρ σ)) : ℕ → σ → Option ρ
  | 0, _ => none
  | fuel + 1, s =>
    match body s with
    | none => none
    | some (.error r) => some r
    | some (.ok s') => whileLoop body fuel s'

/-- The loop comes to an end with this result. -/
def Returns (body : σ → Option (Except ρ σ)) (s : σ) (r : ρ) : Prop :=
  ∃ fuel, whileLoop body fuel s = some r

/-- Some number of iterations lead from one state to the other. -/
def Reaches (body : σ → Option (Except ρ σ)) : σ → σ → Prop :=
  Relation.ReflTransGen fun s s' => body s = some (.ok s')

section Unbounded

variable {body : σ → Option (Except ρ σ)} {s s' : σ} {r r' : ρ}

theorem returns_of_leave (h : body s = some (.error r)) : Returns body s r :=
  ⟨1, by rw [whileLoop, h]⟩

theorem Returns.of_reaches (h : Reaches body s s') (hr : Returns body s' r) :
    Returns body s r := by
  induction h using Relation.ReflTransGen.head_induction_on with
  | refl => exact hr
  | head hstep _ ih =>
    obtain ⟨fuel, hfuel⟩ := ih
    exact ⟨fuel + 1, by rw [whileLoop, hstep]; exact hfuel⟩

/-- A loop that comes to an end leaves from a state that it reaches. -/
theorem Returns.exists_leave (h : Returns body s r) :
    ∃ s', Reaches body s s' ∧ body s' = some (.error r) := by
  obtain ⟨fuel, hfuel⟩ := h
  induction fuel generalizing s with
  | zero => cases hfuel
  | succ fuel ih =>
    rw [whileLoop] at hfuel
    cases hbody : body s with
    | none =>
      rw [hbody] at hfuel
      cases hfuel
    | some next =>
      rw [hbody] at hfuel
      cases next with
      | error r₀ =>
        obtain rfl : r₀ = r := Option.some.inj hfuel
        exact ⟨s, .refl, hbody⟩
      | ok s₁ =>
        obtain ⟨s', hreach, hleave⟩ := ih hfuel
        exact ⟨s', .head hbody hreach, hleave⟩

/-- What the body keeps holds in every state that is reached. -/
theorem Reaches.invariant {I : σ → Prop} (hI : ∀ s s', I s → body s = some (.ok s') → I s')
    (hs : I s) (h : Reaches body s s') : I s' := by
  induction h with
  | refl => exact hs
  | tail _ hstep ih => exact hI _ _ ih hstep

/-- More fuel does not change the result. -/
theorem whileLoop_mono : ∀ {m n : ℕ} {s : σ}, m ≤ n → whileLoop body m s = some r →
    whileLoop body n s = some r := by
  intro m
  induction m with
  | zero =>
    intro n s _ hm
    cases hm
  | succ m ih =>
    intro n s hmn hm
    obtain ⟨n, rfl⟩ := Nat.exists_eq_add_of_lt hmn
    rw [whileLoop] at hm ⊢
    cases hbody : body s with
    | none =>
      rw [hbody] at hm
      cases hm
    | some next =>
      rw [hbody] at hm
      cases next with
      | error r₀ => exact hm
      | ok s₁ => exact ih (Nat.le_add_right m n) hm

theorem Returns.unique (h : Returns body s r) (h' : Returns body s r') : r = r' := by
  obtain ⟨m, hm⟩ := h
  obtain ⟨n, hn⟩ := h'
  have hm' := whileLoop_mono (Nat.le_max_left m n) hm
  have hn' := whileLoop_mono (Nat.le_max_right m n) hn
  exact Option.some.inj (hm'.symm.trans hn')

/-- Only what the body does in the states that are reached matters. -/
theorem whileLoop_congr {body' : σ → Option (Except ρ σ)} : ∀ (fuel : ℕ) (s : σ),
    (∀ s', Reaches body s s' → body' s' = body s') →
      whileLoop body' fuel s = whileLoop body fuel s := by
  intro fuel
  induction fuel with
  | zero => exact fun _ _ => rfl
  | succ fuel ih =>
    intro s h
    rw [whileLoop, whileLoop, h s .refl]
    cases hbody : body s with
    | none => rfl
    | some next =>
      cases next with
      | error r => rfl
      | ok s₁ => exact ih s₁ fun s' hs' => h s' (.head hbody hs')

/-- A loop that goes on from every state of an invariant never comes to an end. -/
theorem whileLoop_eq_none {I : σ → Prop} (hI : ∀ s, I s → ∃ s', body s = some (.ok s') ∧ I s') :
    ∀ (fuel : ℕ) (s : σ), I s → whileLoop body fuel s = none := by
  intro fuel
  induction fuel with
  | zero => exact fun _ _ => rfl
  | succ fuel ih =>
    intro s hs
    obtain ⟨s', hbody, hs'⟩ := hI s hs
    rw [whileLoop, hbody]
    exact ih s' hs'

/-- A loop whose body always comes back, and makes a measure smaller when it goes on,
comes to an end. -/
theorem exists_returns (measure : σ → ℕ)
    (hbody : ∀ s', Reaches body s s' → (∃ r, body s' = some (.error r)) ∨
      ∃ s'', body s' = some (.ok s'') ∧ measure s'' < measure s') :
    ∃ r, Returns body s r := by
  suffices h : ∀ m s', measure s' = m → Reaches body s s' → ∃ r, Returns body s' r from
    h _ s rfl .refl
  intro m
  induction m using Nat.strongRecOn with
  | ind m ih =>
    intro s' hm hs'
    subst hm
    obtain ⟨r, hr⟩ | ⟨s'', hs'', hlt⟩ := hbody s' hs'
    · exact ⟨r, returns_of_leave hr⟩
    · obtain ⟨r, hr⟩ := ih _ hlt s'' rfl (hs'.tail hs'')
      exact ⟨r, hr.of_reaches (.single hs'')⟩

end Unbounded

/-! ### Enough fuel -/

/-- A computation with fuel has this result from some amount of fuel on. -/
def Settles (f : ℕ → Option α) (a : α) : Prop := ∃ enough, ∀ fuel, enough ≤ fuel → f fuel = some a

theorem Returns.settles {body : σ → Option (Except ρ σ)} {s : σ} {r : ρ} (h : Returns body s r) :
    Settles (fun fuel => whileLoop body fuel s) r := by
  obtain ⟨enough, henough⟩ := h
  exact ⟨enough, fun fuel hfuel => whileLoop_mono hfuel henough⟩

theorem Settles.pure (a : α) : Settles (fun _ => some a) a := ⟨0, fun _ _ => rfl⟩

theorem Settles.bind {f : ℕ → Option α} {g : ℕ → α → Option β} {a : α} {b : β}
    (hf : Settles f a) (hg : Settles (fun fuel => g fuel a) b) :
    Settles (fun fuel => (f fuel).bind (g fuel)) b := by
  obtain ⟨m, hm⟩ := hf
  obtain ⟨n, hn⟩ := hg
  refine ⟨max m n, fun fuel hfuel => ?_⟩
  show (f fuel).bind (g fuel) = some b
  rw [hm fuel (by omega)]
  exact hn fuel (by omega)

theorem Settles.map {f : ℕ → Option α} {a : α} (hf : Settles f a) (g : α → β) :
    Settles (fun fuel => (f fuel).map g) (g a) := by
  obtain ⟨enough, henough⟩ := hf
  refine ⟨enough, fun fuel hfuel => ?_⟩
  show (f fuel).map g = some (g a)
  rw [henough fuel hfuel, Option.map_some]

theorem Settles.unique {f : ℕ → Option α} {a b : α} (ha : Settles f a) (hb : Settles f b) :
    a = b := by
  obtain ⟨m, hm⟩ := ha
  obtain ⟨n, hn⟩ := hb
  exact Option.some.inj ((hm _ (Nat.le_max_left m n)).symm.trans (hn _ (Nat.le_max_right m n)))

/-- A fold settles when all its steps do. -/
theorem exists_settles_foldlM {step : ℕ → σ → α → Option σ} :
    ∀ (as : List α) (s : σ),
      (∀ a ∈ as, ∀ s, ∃ s', Settles (fun fuel => step fuel s a) s') →
        ∃ s', Settles (fun fuel => as.foldlM (step fuel) s) s' := by
  intro as
  induction as with
  | nil => exact fun s _ => ⟨s, .pure s⟩
  | cons a as ih =>
    intro s hstep
    obtain ⟨s₁, hs₁⟩ := hstep a (List.mem_cons_self ..) s
    obtain ⟨s', hs'⟩ := ih s₁ fun b hb => hstep b (List.mem_cons_of_mem _ hb)
    exact ⟨s', hs₁.bind hs'⟩

/-- Steps that settle for related elements make a fold that settles with the fold of what
the steps settle with. -/
theorem Settles.foldlM {step : ℕ → σ → α → Option σ} {f : σ → β → σ} {R : α → β → Prop}
    (hstep : ∀ a b s, R a b → Settles (fun fuel => step fuel s a) (f s b))
    {as : List α} {bs : List β} (h : List.Forall₂ R as bs) :
    ∀ s, Settles (fun fuel => as.foldlM (step fuel) s) (bs.foldl f s) := by
  induction h with
  | nil => exact fun s => .pure s
  | cons hab _ ih => exact fun s => (hstep _ _ s hab).bind (ih _)

end Loop
