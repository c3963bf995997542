import Mathlib.Tactic.Common
/-!
# Loop — loops by their turn

A turn of a loop goes on from a next state or ends with a result.  `Loop.run` makes at most a number of turns, and
gives nothing while the loop has not ended.  More turns change nothing (`Loop.run_mono`), and a variant that every turn
brings down ends the loop within its bound, with what an invariant gives at the end (`Loop.run_of_variant`).
-/
namespace Loop

variable {σ ρ : Type}

def run (turn : σ → σ ⊕ ρ) : Nat → σ → Option ρ
  | 0, _         => none
  | turns + 1, s =>
    match turn s with
    | .inl s' => run turn turns s'
    | .inr r  => some r

variable {turn : σ → σ ⊕ ρ}

theorem run_on {s s' : σ} (h : turn s = .inl s') (turns : Nat) : run turn (turns + 1) s = run turn turns s' := by
  rw [run, h]

theorem run_end {s : σ} {r : ρ} (h : turn s = .inr r) (turns : Nat) : run turn (turns + 1) s = some r := by
  rw [run, h]

/-- **A loop that carries more along** ends with what the loop without it ends with. -/
theorem run_map {σ' ρ' : Type} {turn' : σ' → σ' ⊕ ρ'} (f : σ' → σ) (g : ρ' → ρ)
    (h : ∀ s, turn (f s) = (turn' s).map f g) :
    ∀ (turns : Nat) (s : σ'), run turn turns (f s) = (run turn' turns s).map g
  | 0, _         => rfl
  | turns + 1, s => by
    have hs := h s
    cases ht : turn' s with
    | inl s' =>
      rw [ht] at hs
      rw [run_on hs, run_on ht, run_map f g h turns s']
    | inr r =>
      rw [ht] at hs
      rw [run_end hs, run_end ht]
      rfl

/-- **A result is the result**, however many more turns are allowed. -/
theorem run_mono {r : ρ} : ∀ {turns turns' : Nat} {s : σ}, run turn turns s = some r → turns ≤ turns' →
    run turn turns' s = some r
  | 0, _, _, h, _ => by cases h
  | turns + 1, 0, _, _, hle => absurd hle (Nat.not_succ_le_zero turns)
  | turns + 1, turns' + 1, s, h, hle => by
    cases ht : turn s with
    | inl s' =>
      rw [run_on ht] at h ⊢
      exact run_mono h (Nat.le_of_succ_le_succ hle)
    | inr r' =>
      rw [run_end ht] at h ⊢
      exact h

/-- **The rule of loops**: an invariant every turn keeps, a variant every turn brings down, and what holds of a result
when a turn that keeps the invariant ends with it. -/
theorem run_of_variant {I : σ → Prop} {Q : ρ → Prop} (variant : σ → Nat)
    (hon : ∀ s s', I s → turn s = .inl s' → I s' ∧ variant s' < variant s)
    (hend : ∀ s r, I s → turn s = .inr r → Q r) :
    ∀ (turns : Nat) (s : σ), I s → variant s < turns → ∃ r, run turn turns s = some r ∧ Q r
  | 0, _, _, h => absurd h (Nat.not_lt_zero _)
  | turns + 1, s, hs, h => by
    cases ht : turn s with
    | inl s' =>
      obtain ⟨hs', hlt⟩ := hon s s' hs ht
      rw [run_on ht]
      exact run_of_variant variant hon hend turns s' hs' (by omega)
    | inr r =>
      rw [run_end ht]
      exact ⟨r, rfl, hend s r hs ht⟩

end Loop
