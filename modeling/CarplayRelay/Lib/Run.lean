import Mathlib.Logic.Relation

/-!
# Runs of a guarded step function

A machine is a step function `step : σ → ε → Option σ`: `step s e = some s'` when event `e` is
enabled in `s` and leads to `s'`. `Run.run` replays a list of events. The rules to prove things
about a run:

* `Run.inv`: an invariant of every step is an invariant of every run;
* `Run.trace`: what the steps add to a list, the run adds to it;
* `Run.rel`: a reflexive and transitive relation kept by every step relates the ends of a run;
* `Run.inv_where`, `Run.Meets`: the same when every step of the run meets a condition on the
  state it starts from and its event;
* `Run.meets_congr`, `Run.isSome_iff_meets`: what an invariant makes of a condition on one step it
  makes of the condition on a run.

A machine with outputs is `step : σ → ε → σ × ο`, and `Run.outputs` replays events on it:

* `Run.simulation`: machines whose steps agree on related states agree on every run.
-/

namespace Run

variable {σ ε : Type*} (step : σ → ε → Option σ)

/-- The state after the events `es`, `none` if one of them is not enabled. -/
def run : σ → List ε → Option σ
  | s, [] => some s
  | s, e :: es => (step s e).bind fun s' => run s' es

@[simp] theorem run_nil (s : σ) : run step s [] = some s := rfl

theorem run_cons {s s' : σ} {e : ε} {es : List ε} :
    run step s (e :: es) = some s' ↔ ∃ m, step s e = some m ∧ run step m es = some s' := by
  simp [run, Option.bind_eq_some_iff]

theorem run_append {s s' : σ} {es fs : List ε} :
    run step s (es ++ fs) = some s' ↔ ∃ m, run step s es = some m ∧ run step m fs = some s' := by
  induction es generalizing s with
  | nil => simp
  | cons e es ih => simp only [List.cons_append, run_cons, ih]; grind

variable {step}

/-- **The invariant rule.** -/
theorem inv {I : σ → Prop} (hstep : ∀ {s e s'}, I s → step s e = some s' → I s')
    {s s' : σ} {es : List ε} (h : run step s es = some s') (hs : I s) : I s' := by
  induction es generalizing s with
  | nil => cases h; exact hs
  | cons e es ih =>
    obtain ⟨m, hm, h⟩ := (run_cons step).1 h
    exact ih h (hstep hs hm)

/-- **The rule of a log**: if a step adds what its event gives, a run adds what its events give. -/
theorem trace {α : Type*} {I : σ → Prop} {f : σ → List α} {gives : ε → Option α}
    (hstep : ∀ {s e s'}, I s → step s e = some s' → I s' ∧ f s' = f s ++ (gives e).toList)
    {s s' : σ} {es : List ε} (h : run step s es = some s') (hs : I s) :
    f s' = f s ++ es.filterMap gives := by
  induction es generalizing s with
  | nil => cases h; exact (List.append_nil _).symm
  | cons e es ih =>
    obtain ⟨m, hm, h⟩ := (run_cons step).1 h
    obtain ⟨hI, hf⟩ := hstep hs hm
    rw [ih h hI, hf, List.append_assoc, List.filterMap_cons]
    cases gives e <;> rfl

/-- **The rule of a preorder**: what every step relates, every run relates. -/
theorem rel {R : σ → σ → Prop} (hrefl : ∀ s, R s s) (htrans : ∀ {a b c}, R a b → R b c → R a c)
    (hstep : ∀ {s e s'}, step s e = some s' → R s s') {s s' : σ} {es : List ε}
    (h : run step s es = some s') : R s s' := by
  induction es generalizing s with
  | nil => cases h; exact hrefl _
  | cons e es ih =>
    obtain ⟨m, hm, h⟩ := (run_cons step).1 h
    exact htrans (hstep hm) (ih h)

variable (step)

/-- Every step of the run of `es` from `s` meets `C`. -/
def Meets (C : σ → ε → Prop) : σ → List ε → Prop
  | _, [] => True
  | s, e :: es => C s e ∧ ∀ s', step s e = some s' → Meets C s' es

instance decidableMeets (C : σ → ε → Prop) [∀ s e, Decidable (C s e)] :
    ∀ (s : σ) (es : List ε), Decidable (Meets step C s es)
  | _, [] => isTrue trivial
  | s, e :: es =>
    match h : step s e with
    | none => decidable_of_iff (C s e) (by simp [Meets, h])
    | some m =>
      have := decidableMeets C m es
      decidable_of_iff (C s e ∧ Meets step C m es) (by simp [Meets, h])

variable {step}

theorem meets_of_all {C : σ → ε → Prop} (h : ∀ s e, C s e) {s : σ} {es : List ε} :
    Meets step C s es := by
  induction es generalizing s with
  | nil => trivial
  | cons e es ih => exact ⟨h s e, fun _ _ => ih⟩

theorem meets_of_forall {C : ε → Prop} {s : σ} {es : List ε} (h : ∀ e ∈ es, C e) :
    Meets step (fun _ e => C e) s es := by
  induction es generalizing s with
  | nil => trivial
  | cons e es ih =>
    exact ⟨h e List.mem_cons_self, fun _ _ => ih fun e he => h e (List.mem_cons_of_mem _ he)⟩

theorem Meets.and {C D : σ → ε → Prop} {s : σ} {es : List ε} (h : Meets step C s es)
    (h' : Meets step D s es) : Meets step (fun s e => C s e ∧ D s e) s es := by
  induction es generalizing s with
  | nil => trivial
  | cons e es ih => exact ⟨⟨h.1, h'.1⟩, fun m hm => ih (h.2 m hm) (h'.2 m hm)⟩

theorem meets_append {C : σ → ε → Prop} {s : σ} {es fs : List ε} :
    Meets step C s (es ++ fs) ↔
      Meets step C s es ∧ ∀ m, run step s es = some m → Meets step C m fs := by
  induction es generalizing s with
  | nil => simp [Meets]
  | cons e es ih =>
    simp only [List.cons_append, Meets, ih, run_cons]
    constructor
    · rintro ⟨hc, hrest⟩
      exact ⟨⟨hc, fun m hm => (hrest m hm).1⟩, fun m ⟨m', hm', hm⟩ => (hrest m' hm').2 m hm⟩
    · rintro ⟨⟨hc, hes⟩, hfs⟩
      exact ⟨hc, fun m hm => ⟨hes m hm, fun m' hm' => hfs m' ⟨m, hm, hm'⟩⟩⟩

/-- The invariant rule for a run whose steps meet `C`. -/
theorem inv_where {I : σ → Prop} {C : σ → ε → Prop}
    (hstep : ∀ {s e s'}, I s → C s e → step s e = some s' → I s')
    {s s' : σ} {es : List ε} (h : run step s es = some s') (hc : Meets step C s es)
    (hs : I s) : I s' := by
  induction es generalizing s with
  | nil => cases h; exact hs
  | cons e es ih =>
    obtain ⟨m, hm, h⟩ := (run_cons step).1 h
    exact ih h (hc.2 m hm) (hstep hs hc.1 hm)

/-- Conditions equivalent under an invariant are met by the same runs. -/
theorem meets_congr {I : σ → Prop} {E : ε → Prop} {C D : σ → ε → Prop}
    (hiff : ∀ {s e}, I s → E e → (C s e ↔ D s e))
    (hstep : ∀ {s e s'}, I s → E e → D s e → step s e = some s' → I s')
    {s : σ} {es : List ε} (he : ∀ e ∈ es, E e) (hs : I s) :
    Meets step C s es ↔ Meets step D s es := by
  induction es generalizing s with
  | nil => exact Iff.rfl
  | cons e es ih =>
    have hhead := he e List.mem_cons_self
    have ih (m : σ) (hd : D s e) (hm : step s e = some m) :=
      ih (fun e he' => he e (List.mem_cons_of_mem _ he')) (hstep hs hhead hd hm)
    constructor
    · intro h
      have hd := (hiff hs hhead).1 h.1
      exact ⟨hd, fun m hm => (ih m hd hm).1 (h.2 m hm)⟩
    · intro h
      exact ⟨(hiff hs hhead).2 h.1, fun m hm => (ih m h.1 hm).2 (h.2 m hm)⟩

/-- A condition under which a step is enabled is one under which a run goes through. -/
theorem isSome_iff_meets {I : σ → Prop} {E : ε → Prop} {C : σ → ε → Prop}
    (hiff : ∀ {s e}, I s → E e → ((step s e).isSome ↔ C s e))
    (hstep : ∀ {s e s'}, I s → E e → step s e = some s' → I s')
    {s : σ} {es : List ε} (he : ∀ e ∈ es, E e) (hs : I s) :
    (run step s es).isSome ↔ Meets step C s es := by
  induction es generalizing s with
  | nil => simp [Meets]
  | cons e es ih =>
    have hhead := hiff hs (he e List.mem_cons_self)
    show ((step s e).bind fun m => run step m es).isSome ↔ _
    cases hm : step s e with
    | none =>
      rw [hm] at hhead
      apply iff_of_false (by simp)
      intro h
      exact absurd (hhead.2 h.1) (by simp)
    | some m =>
      rw [hm] at hhead
      have ih := ih (fun e he' => he e (List.mem_cons_of_mem _ he'))
        (hstep hs (he e List.mem_cons_self) hm)
      refine ih.trans ⟨fun h => ⟨hhead.1 rfl, ?_⟩, fun h => h.2 m hm⟩
      intro m' hm'
      rw [hm, Option.some.injEq] at hm'
      exact hm' ▸ h

/-! ## Machines with outputs -/

section
variable {τ ο : Type*}

/-- The state after the events `es`, and what each of them gave. -/
def outputs (step : σ → ε → σ × ο) : σ → List ε → σ × List ο
  | s, [] => (s, [])
  | s, e :: es =>
    let rest := outputs step (step s e).1 es
    (rest.1, (step s e).2 :: rest.2)

/-- **The simulation rule**: steps that agree on related states and lead to related states do so
over every run. -/
theorem simulation {step : σ → ε → σ × ο} {step' : τ → ε → τ × ο} {R : σ → τ → Prop}
    (hstep : ∀ {s t e}, R s t → (step s e).2 = (step' t e).2 ∧ R (step s e).1 (step' t e).1)
    {s : σ} {t : τ} (h : R s t) (es : List ε) :
    (outputs step s es).2 = (outputs step' t es).2 ∧
      R (outputs step s es).1 (outputs step' t es).1 := by
  induction es generalizing s t with
  | nil => exact ⟨rfl, h⟩
  | cons e es ih =>
    obtain ⟨hout, hnext⟩ := hstep (e := e) h
    obtain ⟨houts, hlast⟩ := ih hnext
    exact ⟨congrArg₂ List.cons hout houts, hlast⟩

end

end Run
