import RaftKv.Core.Outcome

/-!
# Runs of a machine

A machine is a function from a state and an action to the state after it, or to a crash.

* `RunOf` — the runs in which every action meets a condition on the state before it.
* `RunOf.invariant` — **what one action preserves, a run preserves**.
* `RunOf.simulates` — **what simulates one action, simulates a run**.
* `RunOf.of_exec` — a list of actions that executes is a run, so a concrete run is a computation.
-/

namespace RaftKv

/-- A run in which every action meets a condition on the state before it. -/
inductive RunOf {σ α : Type} (act : σ → α → Outcome σ) (P : σ → α → Prop) : σ → σ → Prop
  | refl (s : σ) : RunOf act P s s
  | step {s s' s'' : σ} (a : α) (hrun : RunOf act P s s') (ha : P s' a)
      (hact : act s' a = Except.ok s'') : RunOf act P s s''

namespace RunOf

variable {σ α : Type} {act : σ → α → Outcome σ} {P : σ → α → Prop} {s s' s'' : σ}

/-- What holds at the start of a run and is kept by each of its actions holds at its end. -/
theorem invariant {I : σ → Prop}
    (hstep : ∀ s a s', I s → P s a → act s a = Except.ok s' → I s') (hs : I s)
    (hrun : RunOf act P s s') : I s' := by
  induction hrun with
  | refl => exact hs
  | step a _ ha hact ih => exact hstep _ a _ ih ha hact

theorem trans (h₁ : RunOf act P s s') (h₂ : RunOf act P s' s'') : RunOf act P s s'' := by
  induction h₂ with
  | refl => exact h₁
  | step a _ ha hact ih => exact ih.step a ha hact

/-- A weaker condition has more runs. -/
theorem mono {Q : σ → α → Prop} (hrun : RunOf act P s s') (h : ∀ s a, P s a → Q s a) :
    RunOf act Q s s' := by
  induction hrun with
  | refl => exact refl _
  | step a _ ha hact ih => exact ih.step a (h _ _ ha) hact

/-- A condition that is weaker wherever an invariant holds has more runs. -/
theorem mono_of_invariant {I : σ → Prop} {Q : σ → α → Prop}
    (hstep : ∀ s a s', I s → P s a → act s a = Except.ok s' → I s') (hs : I s)
    (hrun : RunOf act P s s') (h : ∀ s a, I s → P s a → Q s a) : RunOf act Q s s' := by
  induction hrun with
  | refl => exact refl _
  | step a hrun ha hact ih => exact ih.step a (h _ _ (hrun.invariant hstep hs) ha) hact

/-- **Simulation**: where each action of one machine is matched by a run of another, a run is. -/
theorem simulates {τ β : Type} {act' : τ → β → Outcome τ} {Q : τ → β → Prop} {R : σ → τ → Prop}
    (hstep : ∀ s a s' t, R s t → P s a → act s a = Except.ok s' →
      ∃ t', RunOf act' Q t t' ∧ R s' t') {t : τ} (hs : R s t) (hrun : RunOf act P s s') :
    ∃ t', RunOf act' Q t t' ∧ R s' t' := by
  induction hrun with
  | refl => exact ⟨t, refl t, hs⟩
  | step a _ ha hact ih =>
      obtain ⟨t₁, hrun₁, h₁⟩ := ih
      obtain ⟨t₂, hrun₂, h₂⟩ := hstep _ a _ t₁ h₁ ha hact
      exact ⟨t₂, hrun₁.trans hrun₂, h₂⟩

/-- Act, if the condition is met. -/
def exec (act : σ → α → Outcome σ) (P : σ → α → Prop) [∀ s a, Decidable (P s a)] (s : σ) (a : α) :
    Outcome σ :=
  if P s a then act s a else throw (Crash.assertion "P s a")

/-- A list of actions that can be executed is a run. -/
theorem of_exec [∀ s a, Decidable (P s a)] {acts : List α}
    (h : acts.foldlM (exec act P) s = Except.ok s') : RunOf act P s s' := by
  refine Outcome.foldlM_induct (P := fun t => RunOf act P s t)
    (fun t t' a _ hs hround => ?_) (refl s) h
  rw [exec] at hround
  split at hround
  · rename_i ha
    exact hs.step a ha hround
  · cases hround

end RunOf

end RaftKv
