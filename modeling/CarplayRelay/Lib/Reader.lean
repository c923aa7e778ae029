import Mathlib.Data.List.Infix

/-!
# Cutting a stream into words

A reader takes the elements of a stream one by one and returns at some of them; the next call
starts afresh. `Session` is a reader on its way through a stream, with what each call took and
returned.

* `conserve`: every element read was taken by exactly one call, in order;
* `served_of_fits`, `fits_of_served`: however much of a stream is read, its calls take the words
  `ws` one after the other, exactly if each word makes a call return at its last element (`Fits`).
-/

/-- `step` goes on or returns; `restart` is the state a further call starts in. -/
structure Reader (σ α β : Type*) where
  step : σ → α → σ ⊕ β
  restart : σ

namespace Reader

variable {σ α β : Type*} (r : Reader σ α β)

/-! ## One call -/

/-- A call on `l`: its state when it has not returned, else its result and what is left. -/
def feed : σ → List α → σ ⊕ (β × List α)
  | s, [] => .inl s
  | s, a :: l =>
    match r.step s a with
    | .inl s' => feed s' l
    | .inr b => .inr (b, l)

variable {r} {s s' : σ} {b : β} {l w rest : List α}

theorem feed_append_inl (h : r.feed s w = .inl s') : r.feed s (w ++ l) = r.feed s' l := by
  induction w generalizing s with
  | nil => cases h; rfl
  | cons a w ih =>
    rw [List.cons_append, feed]
    rw [feed] at h
    cases hstep : r.step s a with
    | inl m => rw [hstep] at h; exact ih h
    | inr b => rw [hstep] at h; cases h

theorem feed_append_inr (h : r.feed s w = .inr (b, rest)) :
    r.feed s (w ++ l) = .inr (b, rest ++ l) := by
  induction w generalizing s with
  | nil => cases h
  | cons a w ih =>
    rw [List.cons_append, feed]
    rw [feed] at h
    cases hstep : r.step s a with
    | inl m => rw [hstep] at h; exact ih h
    | inr b => rw [hstep] at h; cases h; rfl

/-- The elements of a call that has returned. -/
theorem exists_of_feed_inr (h : r.feed s w = .inr (b, rest)) :
    ∃ v, w = v ++ rest ∧ r.feed s v = .inr (b, []) := by
  induction w generalizing s with
  | nil => cases h
  | cons a w ih =>
    rw [feed] at h
    cases hstep : r.step s a with
    | inl m =>
      rw [hstep] at h
      obtain ⟨v, rfl, hv⟩ := ih h
      exact ⟨a :: v, rfl, by rw [feed, hstep]; exact hv⟩
    | inr b =>
      rw [hstep] at h
      cases h
      exact ⟨[a], rfl, by rw [feed, hstep]⟩

/-! ## Call after call -/

/-- `done` has the elements and the result of every call that has returned, `taken` the elements
of the present one. -/
structure Session (σ α β : Type*) where
  state : σ
  taken : List α
  done : List (List α × β)

variable (r)

/-- A session before its first element. -/
def session (s : σ) : Session σ α β := ⟨s, [], []⟩

def read (t : Session σ α β) (a : α) : Session σ α β :=
  match r.step t.state a with
  | .inl s => { t with state := s, taken := t.taken ++ [a] }
  | .inr b => ⟨r.restart, [], t.done ++ [(t.taken ++ [a], b)]⟩

def readAll (t : Session σ α β) (l : List α) : Session σ α β := l.foldl r.read t

variable {r} {t : Session σ α β}

/-- Everything a session has read. -/
def Session.all (t : Session σ α β) : List α := t.done.flatMap Prod.fst ++ t.taken

theorem readAll_append : r.readAll t (l ++ w) = r.readAll (r.readAll t l) w :=
  List.foldl_append

/-- **Nothing read is lost.** -/
theorem conserve : (r.readAll t l).all = t.all ++ l := by
  induction l generalizing t with
  | nil => exact (List.append_nil _).symm
  | cons a l ih =>
    have hread : (r.read t a).all = t.all ++ [a] := by
      unfold read Session.all
      cases r.step t.state a <;> simp
    rw [readAll, List.foldl_cons, ← readAll, ih, hread, List.append_assoc, List.singleton_append]

theorem readAll_of_inl (h : r.feed t.state l = .inl s) :
    r.readAll t l = { t with state := s, taken := t.taken ++ l } := by
  induction l generalizing t with
  | nil => cases h; simp [readAll]
  | cons a l ih =>
    rw [feed] at h
    rw [readAll, List.foldl_cons, ← readAll]
    cases hstep : r.step t.state a with
    | inl m =>
      rw [hstep] at h
      have hread : r.read t a = { t with state := m, taken := t.taken ++ [a] } := by
        rw [read, hstep]
      rw [hread, ih h]
      simp
    | inr b => rw [hstep] at h; cases h

theorem readAll_of_inr (h : r.feed t.state w = .inr (b, [])) :
    r.readAll t w = ⟨r.restart, [], t.done ++ [(t.taken ++ w, b)]⟩ := by
  induction w generalizing t with
  | nil => cases h
  | cons a w ih =>
    rw [feed] at h
    rw [readAll, List.foldl_cons, ← readAll]
    cases hstep : r.step t.state a with
    | inl m =>
      rw [hstep] at h
      have hread : r.read t a = { t with state := m, taken := t.taken ++ [a] } := by
        rw [read, hstep]
      rw [hread, ih h]
      simp
    | inr b =>
      rw [hstep] at h
      cases h
      rw [read, hstep]
      rfl

/-- Calls that have returned have no part in what follows. -/
theorem readAll_done (done : List (List α × β)) :
    r.readAll { t with done := done ++ t.done } l =
      { r.readAll t l with done := done ++ (r.readAll t l).done } := by
  induction l generalizing t with
  | nil => rfl
  | cons a l ih =>
    simp only [readAll, List.foldl_cons]
    simp only [readAll] at ih
    rw [← ih]
    congr 1
    unfold read
    cases r.step t.state a <;> simp

theorem readAll_session (h : r.feed s w = .inr (b, [])) :
    r.readAll (session s) (w ++ l) =
      { r.readAll (session r.restart) l with
        done := (w, b) :: (r.readAll (session r.restart) l).done } := by
  rw [readAll_append, readAll_of_inr (t := session s) h]
  exact readAll_done (t := session r.restart) [(w, b)]

/-! ## Words -/

/-- The calls took words one after the other and returned what their predicates ask for; the
present one has not come to the end of its word. -/
inductive Served : List (List α × (β → Prop)) → List (List α × β) → List α → Prop
  | idle : Served [] [] []
  | waiting {w Q ws taken} (hpre : taken <+: w) (hne : taken ≠ w) : Served ((w, Q) :: ws) [] taken
  | returned {w Q ws b done taken} (hb : Q b) (h : Served ws done taken) :
      Served ((w, Q) :: ws) ((w, b) :: done) taken

theorem Served.inv {w : List α} {Q : β → Prop} {ws : List (List α × (β → Prop))}
    {call : List α × β} {done : List (List α × β)} {taken : List α}
    (h : Served ((w, Q) :: ws) (call :: done) taken) :
    call.1 = w ∧ Q call.2 ∧ Served ws done taken := by
  cases h with
  | returned hb h => exact ⟨rfl, hb, h⟩

/-- When all of the words have been read, all of the calls have returned. -/
theorem Served.finish {ws : List (List α × (β → Prop))} {done : List (List α × β)}
    {taken : List α} (h : Served ws done taken)
    (hall : done.flatMap Prod.fst ++ taken = (ws.map Prod.fst).flatten) :
    done.map Prod.fst = ws.map Prod.fst ∧ taken = [] := by
  induction h with
  | idle => exact ⟨rfl, rfl⟩
  | @waiting w Q ws taken hpre hne =>
    refine absurd (hpre.eq_of_length_le ?_) hne
    have hlen := congrArg List.length hall
    simp only [List.flatMap_nil, List.nil_append, List.map_cons, List.flatten_cons,
      List.length_append] at hlen
    omega
  | returned hb h ih =>
    simp only [List.flatMap_cons, List.map_cons, List.flatten_cons, List.append_assoc,
      List.append_cancel_left_eq] at hall
    obtain ⟨hdone, htaken⟩ := ih hall
    exact ⟨by rw [List.map_cons, List.map_cons, hdone], htaken⟩

variable (r)

/-- Each word makes a call return at its last element, with a result its predicate holds of. -/
def Fits : σ → List (List α × (β → Prop)) → Prop
  | _, [] => True
  | s, (w, Q) :: ws => (∃ b, r.feed s w = .inr (b, []) ∧ Q b) ∧ Fits r.restart ws

variable {r}

theorem fits_restart {δ : Type*} {f : δ → List α × (β → Prop)} {ds : List δ} :
    r.Fits r.restart (ds.map f) ↔
      ∀ d ∈ ds, ∃ b, r.feed r.restart (f d).1 = .inr (b, []) ∧ (f d).2 b := by
  induction ds with
  | nil => simp [Fits]
  | cons d ds ih => simp [Fits, ih]

/-- **Words that fit are taken one by one.** -/
theorem served_of_fits {ws : List (List α × (β → Prop))} (h : r.Fits s ws)
    (hl : l <+: (ws.map Prod.fst).flatten) :
    Served ws (r.readAll (session s) l).done (r.readAll (session s) l).taken := by
  induction ws generalizing s l with
  | nil =>
    obtain rfl : l = [] := List.prefix_nil.1 hl
    exact .idle
  | cons word ws ih =>
    obtain ⟨w, Q⟩ := word
    obtain ⟨⟨b, hb, hQ⟩, hws⟩ := h
    rw [List.map_cons, List.flatten_cons] at hl
    rcases List.prefix_or_prefix_of_prefix hl (List.prefix_append w _) with hlw | ⟨l', rfl⟩
    · by_cases hne : l = w
      · subst hne
        have hread := readAll_session (l := []) hb
        rw [List.append_nil] at hread
        rw [hread]
        exact .returned hQ (ih hws List.nil_prefix)
      · -- a call that had returned by now would leave the rest of its word
        cases hfeed : r.feed s l with
        | inl s' =>
          rw [readAll_of_inl (t := session s) hfeed]
          exact .waiting hlw hne
        | inr p =>
          obtain ⟨b', rest⟩ := p
          obtain ⟨m, rfl⟩ := hlw
          rw [feed_append_inr hfeed] at hb
          have hrest : rest ++ m = [] := congrArg Prod.snd (Sum.inr.inj hb)
          obtain rfl : m = [] := (List.append_eq_nil_iff.1 hrest).2
          exact absurd (List.append_nil l).symm hne
    · rw [readAll_session hb]
      exact .returned hQ (ih hws ((List.prefix_append_right_inj w).1 hl))

/-- **Words that are taken one by one fit.** -/
theorem fits_of_served {ws : List (List α × (β → Prop))}
    (h : ∀ l, l <+: (ws.map Prod.fst).flatten →
      Served ws (r.readAll (session s) l).done (r.readAll (session s) l).taken) :
    r.Fits s ws := by
  induction ws generalizing s with
  | nil => trivial
  | cons word ws ih =>
    obtain ⟨w, Q⟩ := word
    rw [List.map_cons, List.flatten_cons] at h
    have hw : ∃ b, r.feed s w = .inr (b, []) ∧ Q b := by
      cases hfeed : r.feed s w with
      | inl s' =>
        have hserved := h w (List.prefix_append _ _)
        rw [readAll_of_inl (t := session s) hfeed] at hserved
        cases hserved with
        | waiting _ hne => exact absurd rfl hne
      | inr p =>
        obtain ⟨b, rest⟩ := p
        obtain ⟨v, rfl, hv⟩ := exists_of_feed_inr hfeed
        have hserved := h v (by rw [List.append_assoc]; exact List.prefix_append _ _)
        rw [readAll_of_inr (t := session s) hv] at hserved
        obtain ⟨heq, hQ, -⟩ := hserved.inv
        obtain rfl : rest = [] := List.append_right_eq_self.1 heq.symm
        exact ⟨b, rfl, hQ⟩
    obtain ⟨b, hb, hQ⟩ := hw
    refine ⟨⟨b, hb, hQ⟩, ih fun l hl => ?_⟩
    have hserved := h (w ++ l) ((List.prefix_append_right_inj w).2 hl)
    rw [readAll_session hb] at hserved
    exact hserved.inv.2.2

end Reader
