import Mathlib.Data.Set.Card
import Mathlib.Logic.Function.Basic

/-!
# Mutexes and counters shared by threads

A mutex `lock : Option τ` guards a part of every thread's code, `inside t` while `t` is in it. A
step of a thread leaves both alone, takes the free mutex, or releases its own (`Mutex.Move`):

* `Mutex.Guards.move`, `Mutex.Guards.update`: the mutex is held by the thread in the guarded part,
  and by no other.

A counter tells how many threads are at some place of their code; `count_enter`, `count_leave` and
`eq_of_stay` say how these threads change with a step of one thread.
-/

namespace Mutex

variable {τ : Type*}

/-- **Mutual exclusion**: a thread is in the guarded part iff it holds the mutex. -/
def Guards (lock : Option τ) (inside : τ → Bool) : Prop :=
  ∀ t, inside t = true ↔ lock = some t

/-- What a step of `t` does with a mutex, and with `t` being in the part it guards. -/
inductive Move (t : τ) : Option τ → Bool → Option τ → Bool → Prop
  | keep {lock b} : Move t lock b lock b
  | take : Move t none false (some t) true
  | release {lock} : Move t lock true none false

variable {lock lock' : Option τ} {inside inside' : τ → Bool} {t : τ}

/-- **Every step keeps the exclusion.** -/
theorem Guards.move (h : Guards lock inside) (hm : Move t lock (inside t) lock' (inside' t))
    (ho : ∀ u, u ≠ t → inside' u = inside u) : Guards lock' inside' := by
  intro u
  by_cases hu : u = t
  · subst hu
    generalize hb : inside u = b, hb' : inside' u = b' at hm
    cases hm with
    | keep => rw [← hb]; exact h u
    | take => simp
    | release => simp
  · have hne : some t ≠ some u := fun he => hu (Option.some.inj he).symm
    rw [ho u hu]
    generalize hb : inside t = b, hb' : inside' t = b' at hm
    cases hm with
    | keep => exact h u
    | take => simpa [hne] using h u
    | release => simpa [(h t).1 hb, hne] using h u

theorem Guards.update [DecidableEq τ] {σ : Type*} {thread : τ → σ} (part : σ → Bool)
    (h : Guards lock fun u => part (thread u)) {x : σ}
    (hm : Move t lock (part (thread t)) lock' (part x)) :
    Guards lock' fun u => part (Function.update thread t x u) :=
  h.move (t := t) (by rwa [Function.update_self]) fun u hu => by rw [Function.update_of_ne hu]

/-! ## Counting threads -/

section
variable {here here' : Set τ} (ho : ∀ u, u ≠ t → (u ∈ here' ↔ u ∈ here))
include ho

theorem eq_insert (h' : t ∈ here') : here' = insert t here := by
  ext u
  by_cases hu : u = t
  · subst hu
    simpa using h'
  · simp [hu, ho u hu]

theorem eq_of_stay (h : t ∈ here' ↔ t ∈ here) : here' = here := by
  ext u
  by_cases hu : u = t
  · subst hu
    exact h
  · exact ho u hu

theorem finite_step (hf : here.Finite) : here'.Finite :=
  (hf.insert t).subset fun u hu => by
    by_cases hut : u = t
    · exact .inl hut
    · exact .inr ((ho u hut).1 hu)

theorem count_enter (hf : here.Finite) (h : t ∉ here) (h' : t ∈ here') :
    here'.ncard = here.ncard + 1 := by
  rw [eq_insert ho h', Set.ncard_insert_of_notMem h hf]

theorem count_leave (hf : here.Finite) (h : t ∈ here) (h' : t ∉ here') :
    here.ncard = here'.ncard + 1 :=
  count_enter (fun u hu => (ho u hu).symm) (finite_step ho hf) h' h

end

end Mutex
