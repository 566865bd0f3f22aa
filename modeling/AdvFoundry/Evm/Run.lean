import AdvFoundry.Evm.Tx
import Mathlib.Algebra.BigOperators.Group.List.Basic
import Mathlib.Data.List.Induction

/-!
# Runs

A run is a finite sequence of labelled steps from a state. A reverted call
leaves every contract as it was, so the steps of a run are the calls that
returned.

`Run.accounting` is the one induction every whole-run result below goes
through: an invariant that also tracks a number, to which each step adds what
its label says. `Run.invariant` is the case where nothing is tracked.
-/

namespace AdvFoundry

variable {σ ℓ : Type}

/-- `Run step s labels s'`: the steps with these labels lead from `s` to `s'`. -/
inductive Run (step : σ → ℓ → σ → Prop) : σ → List ℓ → σ → Prop
  | nil (s : σ) : Run step s [] s
  | snoc {s s₁ s₂ : σ} {labels : List ℓ} {l : ℓ} :
      Run step s labels s₁ → step s₁ l s₂ → Run step s (labels ++ [l]) s₂

namespace Run

variable {step : σ → ℓ → σ → Prop} {s s' : σ} {labels : List ℓ}

/-- An invariant over the labels `C` allows, with a running total of `f`. -/
theorem accounting {I : σ → Nat → Prop} {C : ℓ → Prop} {f : ℓ → Nat} {n : Nat}
    (hstep : ∀ s l s' n, C l → I s n → step s l s' → I s' (n + f l))
    (hrun : Run step s labels s') (hC : ∀ l ∈ labels, C l) (h : I s n) :
    I s' (n + (labels.map f).sum) := by
  induction hrun with
  | nil => simpa using h
  | @snoc s₁ s₂ labels l _ hl ih =>
    have hbefore := ih (fun l' hl' => hC l' (List.mem_append_left _ hl'))
    have hafter := hstep _ l _ _ (hC l (by simp)) hbefore hl
    simpa [Nat.add_assoc] using hafter

theorem invariant {I : σ → Prop} {C : ℓ → Prop}
    (hstep : ∀ s l s', C l → I s → step s l s' → I s')
    (hrun : Run step s labels s') (hC : ∀ l ∈ labels, C l) (h : I s) : I s' :=
  accounting (I := fun s _ => I s) (f := fun _ => 0) (n := 0)
    (fun s l s' _ hl hs hst => hstep s l s' hl hs hst) hrun hC h

/-- Steps of one kind that are all of another. -/
theorem mono {step' : σ → ℓ → σ → Prop} (hsub : ∀ s l s', step s l s' → step' s l s')
    (hrun : Run step s labels s') : Run step' s labels s' := by
  induction hrun with
  | nil => exact .nil _
  | snoc _ hl ih => exact .snoc ih (hsub _ _ _ hl)

/-- The steps of a run are steps with its labels. -/
theorem restrict {C : ℓ → Prop} (hrun : Run step s labels s') (hC : ∀ l ∈ labels, C l) :
    Run (fun s l s' => step s l s' ∧ C l) s labels s' := by
  induction hrun with
  | nil => exact .nil _
  | snoc _ hl ih =>
    exact .snoc (ih fun l h => hC l (List.mem_append_left _ h)) ⟨hl, hC _ (by simp)⟩

/-- A run from an executable step function. -/
theorem of_foldlM {next : σ → ℓ → Option σ}
    (hnext : ∀ s l s', next s l = some s' → step s l s')
    (h : labels.foldlM next s = some s') : Run step s labels s' := by
  induction labels using List.reverseRecOn generalizing s' with
  | nil =>
    cases h
    exact .nil s
  | append_singleton labels l ih =>
    simp only [List.foldlM_append, List.foldlM_cons, List.foldlM_nil, Option.bind_eq_bind,
      Option.bind_eq_some_iff, Option.pure_def, Option.some.injEq] at h
    obtain ⟨s₁, hs₁, _, hl, rfl⟩ := h
    exact .snoc (ih hs₁) (hnext _ _ _ hl)

/-- The labels of a run of such a function determine where it ends. -/
theorem foldlM_eq {next : σ → ℓ → Option σ} (hnext : ∀ s l s', step s l s' → next s l = some s')
    (hrun : Run step s labels s') : labels.foldlM next s = some s' := by
  induction hrun with
  | nil => rfl
  | snoc _ hl ih =>
    rw [List.foldlM_append, ih]
    simp [hnext _ _ _ hl]

end Run

namespace Tx

variable {ε : Type} {x : Tx ε σ Unit} {s : σ}

/-- The storage after a call: the new one, or the old one when it reverted. -/
def after (x : Tx ε σ Unit) (s : σ) : σ :=
  match x s with
  | .ok (_, s') => s'
  | .error _ => s

/-- Whether a call returns. -/
def succeeds (x : Tx ε σ Unit) (s : σ) : Bool :=
  match x s with
  | .ok _ => true
  | .error _ => false

theorem ok_after (h : x.succeeds s = true) : x s = .ok ((), x.after s) := by
  unfold succeeds at h
  unfold after
  split at h
  · next p hp =>
    obtain ⟨⟨⟩, s'⟩ := p
    rw [hp]
  · cases h

theorem of_ok {s' : σ} (h : x s = .ok ((), s')) : x.succeeds s = true ∧ x.after s = s' := by
  unfold succeeds after
  rw [h]
  exact ⟨rfl, rfl⟩

/-- A call returns, or it reverts and changes nothing. -/
theorem after_cases (x : Tx ε σ Unit) (s : σ) :
    x s = .ok ((), x.after s) ∨ x.succeeds s = false ∧ x.after s = s := by
  cases hsucceeds : x.succeeds s with
  | true => exact .inl (ok_after hsucceeds)
  | false =>
    refine .inr ⟨rfl, ?_⟩
    unfold succeeds at hsucceeds
    unfold after
    split at hsucceeds
    · cases hsucceeds
    · next he => rw [he]

end Tx

end AdvFoundry
