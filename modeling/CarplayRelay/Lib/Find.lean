import Mathlib.Data.List.Basic
import Mathlib.Data.List.Infix

/-!
# The first occurrence of a pattern

`Find.find pat l` is the first position of `l` at which `pat` stands. What a scanner that looks at
one window after the other needs:

* `Find.find_eq_some`, `Find.find_eq_none`: what is found;
* `Find.find_append`: a stretch no occurrence starts in is skipped.
-/

namespace Find

variable {α : Type*} [DecidableEq α] {pat l s t : List α} {k : Nat}

/-- The first position at which `pat` stands. -/
def find (pat : List α) : List α → Option Nat
  | [] => if pat = [] then some 0 else none
  | a :: l => if pat <+: a :: l then some 0 else (find pat l).map (· + 1)

theorem find_of_at (h : pat <+: l) : find pat l = some 0 := by
  cases l with
  | nil => exact if_pos (List.prefix_nil.1 h)
  | cons a l => exact if_pos h

theorem find_cons_of_not_at {a : α} (h : ¬ pat <+: a :: l) :
    find pat (a :: l) = (find pat l).map (· + 1) := if_neg h

/-- The pattern stands where it is found, and no earlier. -/
theorem find_eq_some (h : find pat l = some k) :
    pat <+: l.drop k ∧ ∀ j < k, ¬ pat <+: l.drop j := by
  induction l generalizing k with
  | nil =>
    unfold find at h
    split at h <;> cases h
    rename_i hpat
    exact ⟨by rw [hpat]; exact List.nil_prefix, fun j hj => absurd hj (by omega)⟩
  | cons a l ih =>
    by_cases hp : pat <+: a :: l
    · rw [find_of_at hp] at h
      cases h
      exact ⟨hp, fun j hj => absurd hj (by omega)⟩
    · rw [find_cons_of_not_at hp] at h
      obtain ⟨k', hk', rfl⟩ := Option.map_eq_some_iff.1 h
      obtain ⟨hpre, hfirst⟩ := ih hk'
      refine ⟨hpre, fun j hj => ?_⟩
      cases j with
      | zero => exact hp
      | succ j => exact hfirst j (by omega)

theorem find_isSome (h : pat <:+: l) : (find pat l).isSome := by
  induction l with
  | nil => rw [find_of_at (List.infix_nil.1 h ▸ List.nil_prefix)]; rfl
  | cons a l ih =>
    by_cases hp : pat <+: a :: l
    · rw [find_of_at hp]
      rfl
    · rw [find_cons_of_not_at hp, Option.isSome_map]
      exact ih ((List.infix_cons_iff.1 h).resolve_left hp)

theorem find_eq_none (h : ¬ pat <:+: l) : find pat l = none := by
  cases hk : find pat l with
  | none => rfl
  | some k =>
    exact absurd ((find_eq_some hk).1.isInfix.trans (List.drop_suffix k l).isInfix) h

theorem find_le (h : find pat l = some k) (hpat : pat ≠ []) : k + pat.length ≤ l.length := by
  have hle := (find_eq_some h).1.length_le
  have hpos := List.length_pos_of_ne_nil hpat
  rw [List.length_drop] at hle
  omega

/-- A stretch that no occurrence starts in is skipped. -/
theorem find_append (h : ∀ r, r ≠ [] → r <:+ s → ¬ pat <+: r ++ t) :
    find pat (s ++ t) = (find pat t).map (· + s.length) := by
  induction s with
  | nil => simp
  | cons a s ih =>
    have hp : ¬ pat <+: a :: (s ++ t) := h (a :: s) (List.cons_ne_nil _ _) List.suffix_rfl
    rw [List.cons_append, find_cons_of_not_at hp,
      ih fun r hr hs => h r hr (hs.trans (List.suffix_cons a s)), Option.map_map]
    rfl

end Find
