import CarplayRelay.Lib.Mutex
import CarplayRelay.Lib.Run
import Mathlib.Data.List.Perm.Basic
import Mathlib.Data.List.Range

/-!
# The accept loop of the gateway (`main`, `gateway_session_main`)

The main thread accepts clients and starts a session thread for each, unless a session is active.
A thread takes a step at a time, a critical section is entered, executed and left in three; client
sockets are numbered as they are accepted. What a session does before its cleanup is one step that
may come at any time (`Gateway.Session`).

* `lock_guards`: the flag is read and written under its lock.
* `one_session`: there is one session at most, the flag tells whether there is one, each client is
  handed to one thread or closed, and after a failed `pthread_create` the flag is found clear.
-/

namespace Gateway

open Mutex

/-! ## The code -/

inductive Thread
  | main
  | session (clientFd : Nat)
  deriving DecidableEq

/-- Where a thread is in a critical section of `runtime->lock`. -/
inductive Crit
  | enter
  | body
  | leave
  deriving DecidableEq

/-- Where `main` is in its loop. -/
inductive MainPc
  | accept
  /-- In `gateway_is_active`, with its variable `active`. -/
  | isActive (clientFd : Nat) (crit : Crit) (active : Bool)
  | malloc (clientFd : Nat)
  /-- In `gateway_set_active(&runtime, 1)`. -/
  | setActive (clientFd : Nat) (crit : Crit)
  | create (clientFd : Nat)
  /-- In `gateway_set_active(&runtime, 0)`, after `pthread_create` failed. -/
  | clearActive (clientFd : Nat) (crit : Crit)
  | close (clientFd : Nat)
  deriving DecidableEq

/-- Where a session thread is in `gateway_session_main`. -/
inductive SessionPc
  | running
  | close
  /-- In `gateway_set_active(runtime, 0)`. -/
  | clearActive (crit : Crit)
  | done
  deriving DecidableEq

/-- The gateway. `closed` and `handed`, which are not in the code, are the clients that `main`
closed and those it started a thread for. -/
structure AcceptState where
  sessionActive : Bool
  lock : Option Thread
  main : MainPc
  sessions : Nat → Option SessionPc
  accepted : Nat
  closed : List Nat
  handed : List Nat

/-- A step of `main`; `ok` is what `accept`, `malloc` or `pthread_create` comes to. -/
def mainStep (s : AcceptState) (ok : Bool) : Option AcceptState :=
  match s.main with
  | .accept =>
    if ok then
      some { s with main := .isActive s.accepted .enter false, accepted := s.accepted + 1 }
    else some s
  | .isActive fd .enter active =>
    if s.lock = none then some { s with lock := some .main, main := .isActive fd .body active }
    else none
  | .isActive fd .body _ => some { s with main := .isActive fd .leave s.sessionActive }
  | .isActive fd .leave active =>
    some { s with lock := none, main := if active then .close fd else .malloc fd }
  | .malloc fd => some { s with main := if ok then .setActive fd .enter else .close fd }
  | .setActive fd .enter =>
    if s.lock = none then some { s with lock := some .main, main := .setActive fd .body }
    else none
  | .setActive fd .body => some { s with sessionActive := true, main := .setActive fd .leave }
  | .setActive fd .leave => some { s with lock := none, main := .create fd }
  | .create fd =>
    if ok then
      some { s with
        sessions := Function.update s.sessions fd (some .running)
        handed := s.handed ++ [fd]
        main := .accept }
    else some { s with main := .clearActive fd .enter }
  | .clearActive fd .enter =>
    if s.lock = none then some { s with lock := some .main, main := .clearActive fd .body }
    else none
  | .clearActive fd .body => some { s with sessionActive := false, main := .clearActive fd .leave }
  | .clearActive fd .leave => some { s with lock := none, main := .close fd }
  | .close fd => some { s with closed := s.closed ++ [fd], main := .accept }

/-- The session thread of a client goes on to `pc`. -/
def AcceptState.setSession (s : AcceptState) (fd : Nat) (pc : SessionPc) : AcceptState :=
  { s with sessions := Function.update s.sessions fd (some pc) }

/-- A step of the session thread of a client. -/
def sessionThreadStep (s : AcceptState) (fd : Nat) : Option AcceptState :=
  match s.sessions fd with
  | some .running => some (s.setSession fd .close)
  | some .close => some (s.setSession fd (.clearActive .enter))
  | some (.clearActive .enter) =>
    if s.lock = none then
      some { s.setSession fd (.clearActive .body) with lock := some (.session fd) }
    else none
  | some (.clearActive .body) =>
    some { s.setSession fd (.clearActive .leave) with sessionActive := false }
  | some (.clearActive .leave) => some { s.setSession fd .done with lock := none }
  | some .done | none => none

inductive AcceptEvent
  | main (ok : Bool)
  | session (fd : Nat)
  deriving DecidableEq

def acceptStep (s : AcceptState) : AcceptEvent → Option AcceptState
  | .main ok => mainStep s ok
  | .session fd => sessionThreadStep s fd

/-- When the loop starts. -/
def acceptStart : AcceptState := ⟨false, none, .accept, fun _ => none, 0, [], []⟩

/-! ## Sessions in progress -/

/-- The client whose socket `main` has. -/
def MainPc.client : MainPc → List Nat
  | .accept => []
  | .isActive fd _ _ | .malloc fd | .setActive fd _ | .create fd | .clearActive fd _ | .close fd =>
    [fd]

/-- `main` has set the flag for the session of a client and has not cleared it. -/
def MainPc.creating : MainPc → Option Nat
  | .setActive fd .leave | .create fd | .clearActive fd .enter | .clearActive fd .body => some fd
  | _ => none

/-- The thread has not cleared the flag. -/
def SessionPc.live : SessionPc → Bool
  | .running | .close | .clearActive .enter | .clearActive .body => true
  | .clearActive .leave | .done => false

/-- `main` has seen the flag clear and has not set it. -/
def MainPc.passed : MainPc → Bool
  | .isActive _ .leave false | .malloc _ | .setActive _ .enter | .setActive _ .body => true
  | _ => false

/-- The thread of the session of a client has not cleared the flag. -/
def AcceptState.Live (s : AcceptState) (fd : Nat) : Prop :=
  (s.sessions fd).any SessionPc.live = true

/-- The session of a client, or its creation, is in progress. -/
def AcceptState.InProgress (s : AcceptState) (fd : Nat) : Prop :=
  s.main.creating = some fd ∨ s.Live fd

/-- The thread holds `runtime->lock`. -/
def Crit.holds : Crit → Bool
  | .enter => false
  | .body | .leave => true

def MainPc.inside : MainPc → Bool
  | .isActive _ crit _ | .setActive _ crit | .clearActive _ crit => crit.holds
  | _ => false

def SessionPc.inside : SessionPc → Bool
  | .clearActive crit => crit.holds
  | _ => false

/-- The thread is in a critical section. -/
def AcceptState.inside (s : AcceptState) : Thread → Bool
  | .main => s.main.inside
  | .session fd => (s.sessions fd).any SessionPc.inside

/-- The flag and the sessions. -/
structure FlagInv (s : AcceptState) : Prop where
  flag : s.sessionActive = true ↔ ∃ fd, s.InProgress fd
  creating : ∀ fd fd', s.main.creating = some fd → ¬ s.Live fd'
  live : ∀ fd fd', s.Live fd → s.Live fd' → fd = fd'
  passed : s.main.passed = true → s.sessionActive = false

/-- The clients and the threads. -/
structure ClientInv (s : AcceptState) : Prop where
  clients : (s.closed ++ s.handed ++ s.main.client).Perm (List.range s.accepted)
  handed : ∀ fd, (s.sessions fd).isSome ↔ fd ∈ s.handed

section
variable {s s' : AcceptState} {fd : Nat} {ok : Bool}

theorem AcceptState.not_inProgress (h : FlagInv s) (hflag : s.sessionActive = false) (fd : Nat) :
    ¬ s.InProgress fd := fun hp => by
  rw [h.flag.2 ⟨fd, hp⟩] at hflag
  cases hflag

/-- A step that neither changes the flag nor what is in progress. -/
theorem FlagInv.quiet (h : FlagInv s) (hflag : s'.sessionActive = s.sessionActive)
    (hsessions : s'.sessions = s.sessions) (hcreating : s'.main.creating = s.main.creating)
    (hpassed : s'.main.passed = true → s.sessionActive = false) : FlagInv s' := by
  have hlive (fd : Nat) : s'.Live fd ↔ s.Live fd := by
    unfold AcceptState.Live
    rw [hsessions]
  refine ⟨?_, ?_, ?_, fun hp => hflag ▸ hpassed hp⟩
  · rw [hflag, h.flag]
    unfold AcceptState.InProgress
    simp only [hlive, hcreating]
  · intro fd fd' hc hl
    exact h.creating fd fd' (hcreating ▸ hc) ((hlive fd').1 hl)
  · intro fd fd' hl hl'
    exact h.live fd fd' ((hlive fd).1 hl) ((hlive fd').1 hl')

/-- `main` sets the flag: no session is in progress, as it found the flag clear. -/
theorem FlagInv.set (h : FlagInv s) (hm : s.main = .setActive fd .body) :
    FlagInv { s with sessionActive := true, main := .setActive fd .leave } := by
  have hnone := AcceptState.not_inProgress h (h.passed (by rw [hm]; rfl))
  exact ⟨iff_of_true rfl ⟨fd, .inl rfl⟩, fun _ fd' _ hl => hnone fd' (.inr hl), h.live,
    fun hp => (Bool.false_ne_true hp).elim⟩

/-- `main` clears the flag: it is itself what was in progress. -/
theorem FlagInv.clear (h : FlagInv s) (hm : s.main = .clearActive fd .body) :
    FlagInv { s with sessionActive := false, main := .clearActive fd .leave } := by
  have hcreating : s.main.creating = some fd := by rw [hm]; rfl
  refine ⟨iff_of_false Bool.false_ne_true ?_, fun _ _ hc => (by cases hc), h.live, fun _ => rfl⟩
  rintro ⟨fd', hc | hl⟩
  · cases hc
  · exact h.creating fd fd' hcreating hl

theorem AcceptState.live_update {sessions : Nat → Option SessionPc} {pc : SessionPc}
    (hs : s'.sessions = Function.update sessions fd (some pc)) (fd' : Nat) :
    s'.Live fd' ↔
      if fd' = fd then pc.live = true else (sessions fd').any SessionPc.live = true := by
  unfold AcceptState.Live
  rw [hs, Function.update_apply]
  split <;> rfl

/-- The thread of the session `main` was creating starts. -/
theorem FlagInv.create (h : FlagInv s) (hm : s.main = .create fd) :
    FlagInv { s with
      sessions := Function.update s.sessions fd (some .running)
      handed := s.handed ++ [fd]
      main := .accept } := by
  have hcreating : s.main.creating = some fd := by rw [hm]; rfl
  have hnone (fd' : Nat) : ¬ s.Live fd' := h.creating fd fd' hcreating
  have hlive (fd' : Nat) := @AcceptState.live_update { s with
    sessions := Function.update s.sessions fd (some .running)
    handed := s.handed ++ [fd]
    main := .accept } fd s.sessions .running rfl fd'
  refine ⟨iff_of_true (h.flag.2 ⟨fd, .inl hcreating⟩) ⟨fd, .inr ((hlive fd).2 ?_)⟩,
    fun _ _ hc => (by cases hc), ?_, fun hp => (Bool.false_ne_true hp).elim⟩
  · rw [if_pos rfl]
    rfl
  · intro fd' fd'' hl hl'
    rw [hlive] at hl hl'
    split at hl
    · rename_i heq
      split at hl'
      · rename_i heq'
        rw [heq, heq']
      · exact absurd hl' (hnone fd'')
    · exact absurd hl (hnone fd')

/-- A session goes on and is still in progress. -/
theorem FlagInv.session (h : FlagInv s) {pc : SessionPc} (pc' : SessionPc)
    (hpc : s.sessions fd = some pc) (hlive : pc'.live = pc.live)
    (hflag : s'.sessionActive = s.sessionActive) (hmain : s'.main = s.main)
    (hs : s'.sessions = Function.update s.sessions fd (some pc')) : FlagInv s' := by
  have hlive (fd' : Nat) : s'.Live fd' ↔ s.Live fd' := by
    rw [AcceptState.live_update hs]
    split
    · rename_i heq
      unfold AcceptState.Live
      rw [heq, hpc, hlive]
      rfl
    · rfl
  refine ⟨?_, ?_, ?_, ?_⟩
  · rw [hflag, h.flag]
    unfold AcceptState.InProgress
    simp only [hlive, hmain]
  · intro fd fd' hc hl
    exact h.creating fd fd' (hmain ▸ hc) ((hlive fd').1 hl)
  · intro fd fd' hl hl'
    exact h.live fd fd' ((hlive fd).1 hl) ((hlive fd').1 hl')
  · intro hp
    rw [hflag]
    exact h.passed (hmain ▸ hp)

/-- A session clears the flag: it is the only one in progress. -/
theorem FlagInv.finish (h : FlagInv s) (hpc : s.sessions fd = some (.clearActive .body)) :
    FlagInv { s.setSession fd (.clearActive .leave) with sessionActive := false } := by
  have hfd : s.Live fd := by
    unfold AcceptState.Live
    rw [hpc]
    rfl
  have hnone (fd' : Nat) :
      ¬ ({ s.setSession fd (.clearActive .leave) with sessionActive := false } :
        AcceptState).Live fd' := by
    rw [@AcceptState.live_update _ fd s.sessions (.clearActive .leave) rfl]
    split
    · exact Bool.false_ne_true
    · rename_i hne
      exact fun hl => hne (h.live fd' fd hl hfd)
  refine ⟨iff_of_false Bool.false_ne_true ?_, fun _ fd' _ => hnone fd',
    fun fd' _ hl => absurd hl (hnone fd'), fun _ => rfl⟩
  rintro ⟨fd', hc | hl⟩
  · exact h.creating fd' fd hc hfd
  · exact hnone fd' hl

theorem flagInv_main (h : FlagInv s) (hs : mainStep s ok = some s') : FlagInv s' := by
  unfold mainStep at hs
  split at hs
  case h_1 hm =>
    split at hs <;> cases hs
    · exact h.quiet rfl rfl (by rw [hm]; rfl) fun hp => (Bool.false_ne_true hp).elim
    · exact h
  case h_2 hm =>
    split at hs <;> cases hs
    exact h.quiet rfl rfl (by rw [hm]; rfl) fun hp => (Bool.false_ne_true hp).elim
  case h_3 hm =>
    cases hs
    refine h.quiet rfl rfl (by rw [hm]; rfl) fun hp => ?_
    cases hflag : s.sessionActive with
    | false => rfl
    | true =>
      rw [hflag] at hp
      exact (Bool.false_ne_true hp).elim
  case h_4 active hm =>
    cases hs
    cases active with
    | false => exact h.quiet rfl rfl (by rw [hm]; rfl) fun _ => h.passed (by rw [hm]; rfl)
    | true => exact h.quiet rfl rfl (by rw [hm]; rfl) fun hp => (Bool.false_ne_true hp).elim
  case h_5 hm =>
    cases hs
    cases ok with
    | false => exact h.quiet rfl rfl (by rw [hm]; rfl) fun hp => (Bool.false_ne_true hp).elim
    | true => exact h.quiet rfl rfl (by rw [hm]; rfl) fun _ => h.passed (by rw [hm]; rfl)
  case h_6 hm =>
    split at hs <;> cases hs
    exact h.quiet rfl rfl (by rw [hm]; rfl) fun _ => h.passed (by rw [hm]; rfl)
  case h_7 hm =>
    cases hs
    exact h.set hm
  case h_8 hm =>
    cases hs
    exact h.quiet rfl rfl (by rw [hm]; rfl) fun hp => (Bool.false_ne_true hp).elim
  case h_9 hm =>
    split at hs <;> cases hs
    · exact h.create hm
    · exact h.quiet rfl rfl (by rw [hm]; rfl) fun hp => (Bool.false_ne_true hp).elim
  case h_10 hm =>
    split at hs <;> cases hs
    exact h.quiet rfl rfl (by rw [hm]; rfl) fun hp => (Bool.false_ne_true hp).elim
  case h_11 hm =>
    cases hs
    exact h.clear hm
  case h_12 hm =>
    cases hs
    exact h.quiet rfl rfl (by rw [hm]; rfl) fun hp => (Bool.false_ne_true hp).elim
  case h_13 hm =>
    cases hs
    exact h.quiet rfl rfl (by rw [hm]; rfl) fun hp => (Bool.false_ne_true hp).elim

theorem flagInv_session (h : FlagInv s) (hs : sessionThreadStep s fd = some s') : FlagInv s' := by
  unfold sessionThreadStep at hs
  split at hs
  case h_1 hpc => cases hs; exact h.session .close hpc rfl rfl rfl rfl
  case h_2 hpc => cases hs; exact h.session (.clearActive .enter) hpc rfl rfl rfl rfl
  case h_3 hpc =>
    split at hs <;> cases hs
    exact h.session (.clearActive .body) hpc rfl rfl rfl rfl
  case h_4 hpc => cases hs; exact h.finish hpc
  case h_5 hpc => cases hs; exact h.session .done hpc rfl rfl rfl rfl
  all_goals cases hs

/-! ## The clients -/

theorem ClientInv.quiet (h : ClientInv s) (hclosed : s'.closed = s.closed)
    (hhanded : s'.handed = s.handed) (hsessions : s'.sessions = s.sessions)
    (haccepted : s'.accepted = s.accepted) (hclient : s'.main.client = s.main.client) :
    ClientInv s' := by
  refine ⟨?_, ?_⟩
  · rw [hclosed, hhanded, haccepted, hclient]
    exact h.clients
  · intro fd
    rw [hsessions, hhanded]
    exact h.handed fd

theorem clientInv_main (h : ClientInv s) (hs : mainStep s ok = some s') : ClientInv s' := by
  have hclients := h.clients
  unfold mainStep at hs
  split at hs
  case h_1 hm =>
    split at hs <;> cases hs
    · refine ⟨?_, h.handed⟩
      rw [hm, MainPc.client, List.append_nil] at hclients
      rw [List.range_succ]
      exact hclients.append_right _
    · exact h
  case h_4 active hm =>
    cases hs
    cases active <;> exact h.quiet rfl rfl rfl rfl (by rw [hm]; rfl)
  case h_5 hm =>
    cases hs
    cases ok <;> exact h.quiet rfl rfl rfl rfl (by rw [hm]; rfl)
  case h_9 fd hm =>
    split at hs <;> cases hs
    · rw [hm] at hclients
      refine ⟨?_, ?_⟩
      · simpa [MainPc.client] using hclients
      · intro fd'
        show (Function.update s.sessions fd (some .running) fd').isSome ↔ fd' ∈ s.handed ++ [fd]
        rw [List.mem_append, List.mem_singleton, ← h.handed fd', Function.update_apply]
        split <;> simp_all
    · exact h.quiet rfl rfl rfl rfl (by rw [hm]; rfl)
  case h_13 fd hm =>
    cases hs
    rw [hm] at hclients
    refine ⟨?_, h.handed⟩
    show (s.closed ++ [fd] ++ s.handed ++ []).Perm _
    rw [List.append_nil, List.append_assoc]
    refine .trans ?_ hclients
    rw [List.append_assoc]
    exact List.perm_append_comm.append_left _
  all_goals
    rename_i hm
    first | cases hs | (split at hs <;> cases hs)
    exact h.quiet rfl rfl rfl rfl (by rw [hm]; rfl)

theorem clientInv_session (h : ClientInv s) (hs : sessionThreadStep s fd = some s') :
    ClientInv s' := by
  have hset {pc pc' : SessionPc} (hpc : s.sessions fd = some pc) (fd' : Nat) :
      (Function.update s.sessions fd (some pc') fd').isSome ↔ fd' ∈ s.handed := by
    rw [← h.handed fd', Function.update_apply]
    split
    · rename_i heq
      rw [heq, hpc]
      simp
    · rfl
  unfold sessionThreadStep at hs
  split at hs
  case h_1 hpc => cases hs; exact ⟨h.clients, hset hpc⟩
  case h_2 hpc => cases hs; exact ⟨h.clients, hset hpc⟩
  case h_3 hpc =>
    split at hs <;> cases hs
    exact ⟨h.clients, hset hpc⟩
  case h_4 hpc => cases hs; exact ⟨h.clients, hset hpc⟩
  case h_5 hpc => cases hs; exact ⟨h.clients, hset hpc⟩
  all_goals cases hs

/-! ## The lock -/

theorem ClientInv.fresh (h : ClientInv s) (hm : s.main.client = [fd]) : s.sessions fd = none := by
  rw [← Option.not_isSome_iff_eq_none, h.handed fd]
  have hnodup := (h.clients.nodup_iff).2 List.nodup_range
  rw [hm, List.nodup_append] at hnodup
  exact fun hfd => hnodup.2.2 fd (List.mem_append_right _ hfd) fd List.mem_cons_self rfl

theorem guards_of_main (h : Guards s.lock s.inside)
    (hmove : Move .main s.lock s.main.inside s'.lock s'.main.inside)
    (hsessions : ∀ fd, s'.inside (.session fd) = s.inside (.session fd)) :
    Guards s'.lock s'.inside := by
  apply h.move hmove
  intro u hu
  cases u with
  | main => exact absurd rfl hu
  | session fd => exact hsessions fd

theorem guards_main (h : Guards s.lock s.inside) (hc : ClientInv s)
    (hs : mainStep s ok = some s') : Guards s'.lock s'.inside := by
  unfold mainStep at hs
  split at hs
  case h_1 hm =>
    split at hs <;> cases hs
    · exact guards_of_main h (by rw [hm]; exact .keep) fun _ => rfl
    · exact h
  case h_2 hm | h_6 hm | h_10 hm =>
    split at hs <;> cases hs
    rename_i hfree
    exact guards_of_main h (by rw [hm, hfree]; exact .take) fun _ => rfl
  case h_3 hm | h_7 hm | h_11 hm | h_13 hm =>
    cases hs
    exact guards_of_main h (by rw [hm]; exact .keep) fun _ => rfl
  case h_4 active hm =>
    cases hs
    refine guards_of_main h ?_ fun _ => rfl
    rw [hm]
    cases active <;> exact .release
  case h_5 hm =>
    cases hs
    refine guards_of_main h ?_ fun _ => rfl
    rw [hm]
    cases ok <;> exact .keep
  case h_8 hm | h_12 hm =>
    cases hs
    exact guards_of_main h (by rw [hm]; exact .release) fun _ => rfl
  case h_9 fd hm =>
    split at hs <;> cases hs
    · apply guards_of_main h (by rw [hm]; exact .keep)
      intro fd'
      show (Function.update s.sessions fd (some .running) fd').any _ = (s.sessions fd').any _
      rw [Function.update_apply]
      split
      · rename_i heq
        rw [heq, hc.fresh (by rw [hm]; rfl)]
        rfl
      · rfl
    · exact guards_of_main h (by rw [hm]; exact .keep) fun _ => rfl

theorem guards_of_session (h : Guards s.lock s.inside) {pc : SessionPc} (pc' : SessionPc)
    (hpc : s.sessions fd = some pc) (hmain : s'.main = s.main)
    (hs : s'.sessions = Function.update s.sessions fd (some pc'))
    (hmove : Move (.session fd) s.lock pc.inside s'.lock pc'.inside) :
    Guards s'.lock s'.inside := by
  have hinside (fd' : Nat) : s'.inside (.session fd') =
      if fd' = fd then pc'.inside else s.inside (.session fd') := by
    show (s'.sessions fd').any _ = _
    rw [hs, Function.update_apply]
    split <;> rfl
  have hold : s.inside (.session fd) = pc.inside := by
    show (s.sessions fd).any _ = _
    rw [hpc]
    rfl
  refine h.move (t := .session fd) ?_ ?_
  · rw [hold, hinside, if_pos rfl]
    exact hmove
  · intro u hu
    cases u with
    | main => exact congrArg MainPc.inside hmain
    | session fd' => rw [hinside, if_neg fun heq => hu (by rw [heq])]

theorem guards_session (h : Guards s.lock s.inside) (hs : sessionThreadStep s fd = some s') :
    Guards s'.lock s'.inside := by
  unfold sessionThreadStep at hs
  split at hs
  case h_1 hpc => cases hs; exact guards_of_session h .close hpc rfl rfl .keep
  case h_2 hpc => cases hs; exact guards_of_session h (.clearActive .enter) hpc rfl rfl .keep
  case h_3 hpc =>
    split at hs <;> cases hs
    rename_i hfree
    exact guards_of_session h (.clearActive .body) hpc rfl rfl (by rw [hfree]; exact .take)
  case h_4 hpc => cases hs; exact guards_of_session h (.clearActive .leave) hpc rfl rfl .keep
  case h_5 hpc => cases hs; exact guards_of_session h .done hpc rfl rfl .release
  all_goals cases hs

/-! ## After a failed creation -/

/-- `main` is between a failed creation and the next read of the flag. -/
def MainPc.vacating : MainPc → Bool
  | .clearActive _ _ | .close _ | .accept | .isActive _ .enter _ | .isActive _ .body _ => true
  | _ => false

/-- Nothing is left of the session whose creation failed. -/
structure Vacant (s : AcceptState) : Prop where
  vacating : s.main.vacating = true
  sessions : ∀ fd, ¬ s.Live fd

/-- The event is the read of the flag in `gateway_is_active`. -/
def ReadsFlag (s : AcceptState) (e : AcceptEvent) : Prop :=
  (∃ fd active, s.main = .isActive fd .body active) ∧ ∃ ok, e = .main ok

theorem vacant_main (h : Vacant s) (hread : ¬ ReadsFlag s (.main ok))
    (hs : mainStep s ok = some s') : Vacant s' := by
  have hvacating := h.vacating
  unfold mainStep at hs
  split at hs
  case h_3 fd active hm => exact absurd ⟨⟨fd, active, hm⟩, ok, rfl⟩ hread
  case h_1 hm =>
    split at hs <;> cases hs
    · exact ⟨rfl, h.sessions⟩
    · exact h
  case h_2 hm | h_10 hm =>
    split at hs <;> cases hs
    exact ⟨rfl, h.sessions⟩
  case h_11 hm | h_12 hm | h_13 hm =>
    cases hs
    exact ⟨rfl, h.sessions⟩
  all_goals
    rename_i hm
    rw [hm] at hvacating
    cases hvacating

theorem vacant_session (h : Vacant s) (hs : sessionThreadStep s fd = some s') : Vacant s' := by
  have hlive := h.sessions fd
  unfold AcceptState.Live at hlive
  unfold sessionThreadStep at hs
  split at hs
  case h_5 hpc =>
    cases hs
    refine ⟨h.vacating, ?_⟩
    intro fd'
    rw [@AcceptState.live_update _ fd s.sessions .done rfl]
    split
    · exact Bool.false_ne_true
    · exact h.sessions fd'
  case h_6 hpc => cases hs
  case h_7 hpc => cases hs
  all_goals
    rename_i hpc
    rw [hpc] at hlive
    exact absurd rfl hlive

/-! ## Runs -/

/-- **The flag is read and written under its lock**: the thread that holds it is the only one in
a critical section. -/
theorem lock_guards {es : List AcceptEvent} (hrun : Run.run acceptStep acceptStart es = some s) :
    Guards s.lock s.inside := by
  refine (Run.inv (I := fun s => Guards s.lock s.inside ∧ ClientInv s)
    (fun {s e s'} h hs => ?_) hrun
    ⟨?_, List.Perm.refl [], fun fd => by simp [acceptStart]⟩).1
  · cases e with
    | main ok => exact ⟨guards_main h.1 h.2 hs, clientInv_main h.2 hs⟩
    | session fd => exact ⟨guards_session h.1 hs, clientInv_session h.2 hs⟩
  · intro t
    cases t <;> exact iff_of_false Bool.false_ne_true (by simp [acceptStart])

theorem acceptInv_run {es : List AcceptEvent} (hrun : Run.run acceptStep acceptStart es = some s) :
    FlagInv s ∧ ClientInv s := by
  have hlive (fd : Nat) : ¬ acceptStart.Live fd := Bool.false_ne_true
  refine Run.inv (I := fun s => FlagInv s ∧ ClientInv s) (fun {s e s'} h hs => ?_) hrun ⟨?_, ?_⟩
  · cases e with
    | main ok => exact ⟨flagInv_main h.1 hs, clientInv_main h.2 hs⟩
    | session fd => exact ⟨flagInv_session h.1 hs, clientInv_session h.2 hs⟩
  · refine ⟨iff_of_false Bool.false_ne_true ?_, fun _ fd _ => hlive fd,
      fun fd _ hl => absurd hl (hlive fd), fun _ => rfl⟩
    rintro ⟨fd, hc | hl⟩
    · cases hc
    · exact hlive fd hl
  · exact ⟨List.Perm.refl [], fun fd => by simp [acceptStart]⟩

/-- **At most one session**: one at most is in progress, and the flag is set exactly while one is.
Every accepted client is the one `main` has, or handed to its thread, or closed by `main`, and only
one of these. After a failed creation the next read of the flag finds it clear. -/
theorem one_session {es : List AcceptEvent}
    (hrun : Run.run acceptStep acceptStart es = some s) :
    (∀ fd fd', s.InProgress fd → s.InProgress fd' → fd = fd') ∧
      (s.sessionActive = true ↔ ∃ fd, s.InProgress fd) ∧
      (s.closed ++ s.handed ++ s.main.client).Perm (List.range s.accepted) ∧
      (∀ fd, (s.sessions fd).isSome ↔ fd ∈ s.handed) ∧
      ∀ fd s₁ s₂ s₃ fs e, s.main = .create fd → acceptStep s (.main false) = some s₁ →
        Run.run acceptStep s₁ fs = some s₂ →
        Run.Meets acceptStep (fun s e => ¬ ReadsFlag s e) s₁ fs → ReadsFlag s₂ e →
        acceptStep s₂ e = some s₃ → ∃ next, s₃.main = .isActive next .leave false := by
  obtain ⟨hflag, hclient⟩ := acceptInv_run hrun
  refine ⟨?_, hflag.flag, hclient.clients, hclient.handed,
    ?_⟩
  · intro fd fd' hp hp'
    obtain hc | hl := hp
    · obtain hc' | hl' := hp'
      · exact Option.some.inj (hc.symm.trans hc')
      · exact absurd hl' (hflag.creating fd fd' hc)
    · obtain hc' | hl' := hp'
      · exact absurd hl (hflag.creating fd' fd hc')
      · exact hflag.live fd fd' hl hl'
  · intro fd s₁ s₂ s₃ fs e hm hfail hafter hmeets hread hs
    have hstart : Vacant s₁ := by
      unfold acceptStep mainStep at hfail
      rw [hm] at hfail
      cases hfail
      exact ⟨rfl, fun fd' => hflag.creating fd fd' (by rw [hm]; rfl)⟩
    have hvacant : Vacant s₂ := by
      refine Run.inv_where (fun {s e s'} h hread hs => ?_) hafter hmeets hstart
      cases e with
      | main ok => exact vacant_main h hread hs
      | session fd => exact vacant_session h hs
    have hrun₂ : Run.run acceptStep acceptStart (es ++ .main false :: fs) = some s₂ :=
      (Run.run_append acceptStep).2 ⟨s, hrun, (Run.run_cons acceptStep).2 ⟨s₁, hfail, hafter⟩⟩
    obtain ⟨⟨next, active, hpc⟩, ok, rfl⟩ := hread
    have hclear : s₂.sessionActive = false := by
      rw [← Bool.not_eq_true, (acceptInv_run hrun₂).1.flag]
      rintro ⟨fd', hc | hl⟩
      · rw [hpc] at hc
        cases hc
      · exact hvacant.sessions fd' hl
    unfold acceptStep mainStep at hs
    rw [hpc] at hs
    cases hs
    exact ⟨next, by rw [hclear]⟩

/-- A client gets a session and the next one is refused; the session ends, and `main` is about to
create a thread for the third. -/
def threeClients : List AcceptEvent :=
  List.replicate 9 (.main true) ++ List.replicate 5 (.main true) ++
    List.replicate 5 (.session 0) ++ List.replicate 8 (.main true)

/-- The creation fails, and the fourth client finds the flag clear. -/
theorem one_session_threeClients :
    ∃ s s₁ s₂ s₃ next, Run.run acceptStep acceptStart threeClients = some s ∧
      (s.closed, s.handed, s.main) = ([1], [0], .create 2) ∧
      (s.sessionActive = true ↔ ∃ fd, s.InProgress fd) ∧
      acceptStep s (.main false) = some s₁ ∧
      Run.run acceptStep s₁ (List.replicate 6 (.main true)) = some s₂ ∧
      acceptStep s₂ (.main true) = some s₃ ∧ s₃.main = .isActive next .leave false := by
  have hrun : (Run.run acceptStep acceptStart threeClients).map (fun s =>
      (s.sessionActive, s.lock, s.main, s.accepted, s.closed, s.handed)) =
        some (true, none, .create 2, 3, [1], [0]) := rfl
  obtain ⟨⟨active, lock, main, sessions, accepted, closed, handed⟩, hs, hfacts⟩ :=
    Option.map_eq_some_iff.1 hrun
  cases hfacts
  have hone := one_session hs
  have hmeets : Run.Meets acceptStep (fun s e => ¬ ReadsFlag s e)
      ⟨true, none, .clearActive 2 .enter, sessions, 3, [1], [0]⟩
      (List.replicate 6 (.main true)) := by
    simp [Run.Meets, acceptStep, mainStep, ReadsFlag]
  obtain ⟨next, hnext⟩ := hone.2.2.2.2 2 _ _ _ (List.replicate 6 (.main true)) (.main true) rfl rfl
    rfl hmeets ⟨⟨3, false, rfl⟩, true, rfl⟩ rfl
  exact ⟨_, _, _, _, next, hs, rfl, hone.2.1, rfl, rfl, rfl, hnext⟩

end

end Gateway
