import Mathlib.Init

/-!
# Loops over a source that runs dry

The two loops of a reader whose every step takes something from its source, measured by `μ`.
`Loop.seek` steps until a probe of the state succeeds, `Loop.drain` collects what repeated reads
return. Each has one equation for every way an iteration can go.
-/

namespace Loop

variable {σ ρ : Type*}

/-- Takes steps until `probe` finds something; `none` when a step fails first. -/
def seek (μ : σ → Nat) (probe : σ → Option ρ) (step : σ → Option σ)
    (dec : ∀ {s s'}, step s = some s' → μ s' < μ s) (s : σ) : Option (ρ × σ) :=
  match probe s with
  | some r => some (r, s)
  | none =>
    match _h : step s with
    | none => none
    | some s' => seek μ probe step dec s'
termination_by μ s
decreasing_by exact dec _h

/-- Reads until a read fails, and collects the results. -/
def drain (μ : σ → Nat) (next : σ → Option (ρ × σ))
    (dec : ∀ {s r s'}, next s = some (r, s') → μ s' < μ s) (s : σ) : List ρ :=
  match _h : next s with
  | none => []
  | some (r, s') => r :: drain μ next dec s'
termination_by μ s
decreasing_by exact dec _h

section
variable {μ : σ → Nat} {probe : σ → Option ρ} {step : σ → Option σ}
  {dec : ∀ {s s'}, step s = some s' → μ s' < μ s} {s s' : σ} {r : ρ}

theorem seek_found (h : probe s = some r) : seek μ probe step dec s = some (r, s) := by
  rw [seek, h]

theorem seek_step (h : probe s = none) (hs : step s = some s') :
    seek μ probe step dec s = seek μ probe step dec s' := by
  rw [seek, h]
  dsimp only
  split <;> simp_all

theorem seek_fail (h : probe s = none) (hs : step s = none) :
    seek μ probe step dec s = none := by
  rw [seek, h]
  dsimp only
  split <;> simp_all

/-- What every step loses or keeps, the whole search does. -/
theorem seek_le (h : seek μ probe step dec s = some (r, s')) : μ s' ≤ μ s := by
  induction hn : μ s using Nat.strongRecOn generalizing s with
  | ind n ih =>
    cases hp : probe s with
    | some r' =>
      rw [seek_found hp] at h
      cases h
      omega
    | none =>
      cases hs : step s with
      | none => rw [seek_fail hp hs] at h; cases h
      | some m =>
        rw [seek_step hp hs] at h
        have hlt := dec hs
        have := ih (μ m) (by omega) h rfl
        omega

end

section
variable {μ : σ → Nat} {next : σ → Option (ρ × σ)}
  {dec : ∀ {s r s'}, next s = some (r, s') → μ s' < μ s} {s s' : σ} {r : ρ}

theorem drain_none (h : next s = none) : drain μ next dec s = [] := by
  rw [drain]
  split <;> simp_all

theorem drain_some (h : next s = some (r, s')) :
    drain μ next dec s = r :: drain μ next dec s' := by
  rw [drain]
  split <;> simp_all

end

end Loop
