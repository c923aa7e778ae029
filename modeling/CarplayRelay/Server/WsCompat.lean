import CarplayRelay.Lib.Bytes
import CarplayRelay.Lib.LinkedList
import CarplayRelay.Lib.Run
import Mathlib.Data.List.Induction

/-!
# The WebSocket compatibility layer (`ws_wsfs_compat.c`)

The server's WebSocket interface on top of the `wsfs` library: two linked lists, of the servers
(`ws_socket`) and of the clients of their connections, are searched in every callback of the
library by the address of the server or of the connection.

The library itself is the environment: which callbacks it makes for which connection, which server
a connection belongs to, and which blocks an allocation returns are arbitrary within `Enabled`.

* `Refines`: the lists of addresses are the registry of the connections themselves.
* `ws_compat_routes`: callbacks reach the handlers of the right server with the right client.
-/

set_option linter.unusedSectionVars false

namespace WsCompat

open Bytes LinkedList

/-! ## Data -/

/-- `wsfs_opcode_t`; `other` is any value without a case of its own. -/
inductive WsfsOpcode
  | text
  | binary
  | close
  | ping
  | pong
  | other
  deriving DecidableEq, Repr

/-- The `WS_FR_OP_…` types. -/
inductive FrameType
  | txt
  | bin
  | clse
  | ping
  | pong
  | unsupported
  deriving DecidableEq, Repr

/-- `wsfs_bridge_msg_type`. -/
def wsfsBridgeMsgType : WsfsOpcode → FrameType
  | .text => .txt
  | .binary => .bin
  | .close => .clse
  | .ping => .ping
  | .pong => .pong
  | .other => .unsupported

/-- The `WS_STATE_…` values; a zeroed block says `connecting`. -/
inductive WsState
  | connecting
  | open
  | closing
  | closed
  deriving DecidableEq, Repr

/-- `struct ws_events`: the addresses of the handlers, or NULL. -/
structure WsEvents (η : Type*) where
  onopen : Option η := none
  onclose : Option η := none
  onmessage : Option η := none
  deriving DecidableEq, Repr

/-- `ws_server_bridge_t`, but for its `next`. -/
structure Bridge (Impl η : Type*) where
  impl : Option Impl := none
  events : WsEvents η := {}

/-- `struct ws_connection`, but for its `next`. -/
structure Client (Conn Impl : Type*) where
  conn : Option Conn := none
  serverImpl : Option Impl := none
  peerIp : Bytes := []
  state : WsState := .connecting

/-- The two lists and the memory behind them: `running` are the bridges of the calls of `ws_socket`
that run, `allocated` the blocks of clients. -/
structure Compat (Conn Impl P B η : Type*) where
  servers : Links B := {}
  bridge : B → Bridge Impl η := fun _ => {}
  running : List B := []
  clients : Links P := {}
  client : P → Client Conn Impl := fun _ => {}
  allocated : List P := []

/-- A call of a handler. -/
inductive Call (P η : Type*)
  | onopen (handler : η) (client : P)
  | onmessage (handler : η) (client : P) (data : Bytes) (type : FrameType)
  | onclose (handler : η) (client : P)
  deriving DecidableEq, Repr

/-! ## The functions -/

/-- `sizeof(client->peer_ip)`. -/
def peerIpSize : Nat := 64

section
variable {Conn Impl P B η : Type*} [DecidableEq Conn] [DecidableEq Impl] [DecidableEq P]
  [DecidableEq B]

/-- `wsfs_bridge_find_server`. -/
def Compat.findServer (s : Compat Conn Impl P B η) (impl : Impl) : Option (Option B) :=
  s.servers.find (fun cur => decide ((s.bridge cur).impl = some impl)) s.running.length

/-- `wsfs_bridge_server_for_conn`: `impl` is the server in what `wsfs_connection_get_impl`
returns, `none` for NULL. -/
def Compat.serverForConn (s : Compat Conn Impl P B η) (impl : Option Impl) : Option (Option B) :=
  match impl with
  | none => some none
  | some impl => s.findServer impl

/-- `wsfs_bridge_find_client` and `wsfs_bridge_client_for_conn`. -/
def Compat.findClient (s : Compat Conn Impl P B η) (conn : Conn) : Option (Option P) :=
  s.clients.find (fun cur => decide ((s.client cur).conn = some conn)) s.allocated.length

/-- `wsfs_bridge_on_open`, with the call of a handler; `peerIp` is what `wsfs_connection_peer_ip`
returns, `block` what `calloc` returns. -/
def Compat.onOpen (s : Compat Conn Impl P B η) (conn : Conn) (impl : Option Impl)
    (peerIp : Option Bytes) (block : Option P) :
    Option (Compat Conn Impl P B η × Option (Call P η)) :=
  (s.serverForConn impl).map fun bridge =>
    match bridge, block with
    | none, _ => (s, none)
    | some _, none => (s, none)
    | some bridge, some client =>
      ({ s with
          client := Function.update s.client client
            { conn := some conn, state := .open, serverImpl := impl,
              peerIp := (peerIp.getD []).take (peerIpSize - 1) }
          allocated := client :: s.allocated
          clients := s.clients.push client },
        (s.bridge bridge).events.onopen.map (Call.onopen · client))

/-- `wsfs_bridge_on_message`; `msg` is the opcode and the data of the message, `none` for NULL. -/
def Compat.onMessage (s : Compat Conn Impl P B η) (conn : Conn) (impl : Option Impl)
    (msg : Option (WsfsOpcode × Bytes)) : Option (Option (Call P η)) :=
  match msg with
  | none => some none
  | some (opcode, data) =>
    (s.serverForConn impl).bind fun bridge => (s.findClient conn).map fun client =>
      match bridge, client with
      | some bridge, some client =>
        let type := wsfsBridgeMsgType opcode
        if type = .unsupported then none
        else (s.bridge bridge).events.onmessage.map (Call.onmessage · client data type)
      | _, _ => none

/-- `wsfs_bridge_on_close`. -/
def Compat.onClose (s : Compat Conn Impl P B η) (conn : Conn) (impl : Option Impl) :
    Option (Compat Conn Impl P B η × Option (Call P η)) :=
  (s.serverForConn impl).bind fun bridge => (s.findClient conn).bind fun client =>
    match client with
    | none => some (s, none)
    | some client =>
      let call := bridge.bind fun bridge =>
        (s.bridge bridge).events.onclose.map (Call.onclose · client)
      (s.clients.unlink client s.allocated.length).map fun clients =>
        ({ s with
            client := Function.update s.client client { s.client client with state := .closed }
            clients := clients
            allocated := s.allocated.erase client }, call)

/-- `ws_socket` up to `wsfs_server_run`: `impl` is the server that `wsfs_server_init` makes, `none`
if it fails. -/
def Compat.wsSocket (s : Compat Conn Impl P B η) (bridge : B) (evs : Option (WsEvents η))
    (impl : Option Impl) : Compat Conn Impl P B η :=
  match impl with
  | none => s
  | some impl =>
    { s with
      bridge := Function.update s.bridge bridge ⟨some impl, evs.getD {}⟩
      running := bridge :: s.running
      servers := s.servers.push bridge }

/-- `ws_socket` from the return of `wsfs_server_run` on. -/
def Compat.wsSocketReturn (s : Compat Conn Impl P B η) (bridge : B) :
    Option (Compat Conn Impl P B η) :=
  (s.servers.unlink bridge s.running.length).map fun servers =>
    { s with servers := servers, running := s.running.erase bridge }

end

/-! ## The layer between the library and the handlers -/

/-- What the library knows of a connection: its address, the server it belongs to, and its peer. -/
structure Peer (Conn Impl : Type*) where
  conn : Conn
  impl : Option Impl := none
  ip : Option Bytes := none

/-- The calls into the layer: `ws_socket` starts and returns, and the callbacks of the connections
`κ`. -/
inductive Event (κ Impl P B η : Type*)
  | serve (bridge : B) (evs : Option (WsEvents η)) (impl : Option Impl)
  | exit (bridge : B)
  | open (c : κ) (block : Option P)
  | message (c : κ) (msg : Option (WsfsOpcode × Bytes))
  | close (c : κ)

/-- The layer, the connections seen so far that have not closed (`live`), among them those that were
opened, those that have closed, and the calls of handlers made for each. -/
structure World (κ Conn Impl P B η : Type*) where
  compat : Compat Conn Impl P B η := {}
  live : List κ := []
  opened : List κ := []
  closed : List κ := []
  log : List (κ × Call P η) := []

section
variable {κ Conn Impl P B η : Type*} [DecidableEq κ] [DecidableEq Conn] [DecidableEq Impl]
  [DecidableEq P] [DecidableEq B]

/-- What the environment keeps to: a connection is opened at most once, before its messages, and
closed at most once, after them; live connections, running servers and allocated blocks have
addresses of their own; a server runs while it has open connections. -/
def Enabled (net : κ → Peer Conn Impl) (w : World κ Conn Impl P B η) :
    Event κ Impl P B η → Prop
  | .serve bridge _ impl => bridge ∉ w.compat.running ∧
      ∀ b ∈ w.compat.running, impl = none ∨ (w.compat.bridge b).impl ≠ impl
  | .exit bridge => bridge ∈ w.compat.running ∧
      ∀ c ∈ w.opened, (net c).impl ≠ (w.compat.bridge bridge).impl
  | .open c block => c ∉ w.live ∧ c ∉ w.closed ∧ (∀ c' ∈ w.live, (net c').conn ≠ (net c).conn) ∧
      ∀ p ∈ block, p ∉ w.compat.allocated
  | .message c _ => c ∉ w.closed ∧ ∀ c' ∈ w.live, (net c').conn = (net c).conn → c' = c
  | .close c => c ∉ w.closed ∧ ∀ c' ∈ w.live, (net c').conn = (net c).conn → c' = c

/-- What an event does: `none` if the code does not return. -/
def World.handle (net : κ → Peer Conn Impl) (w : World κ Conn Impl P B η) :
    Event κ Impl P B η → Option (World κ Conn Impl P B η)
  | .serve bridge evs impl => some { w with compat := w.compat.wsSocket bridge evs impl }
  | .exit bridge => (w.compat.wsSocketReturn bridge).map fun compat => { w with compat := compat }
  | .open c block =>
    (w.compat.onOpen (net c).conn (net c).impl (net c).ip block).map fun r =>
      { w with
        compat := r.1
        live := c :: w.live
        opened := c :: w.opened
        log := w.log ++ (r.2.map (c, ·)).toList }
  | .message c msg =>
    (w.compat.onMessage (net c).conn (net c).impl msg).map fun call =>
      { w with
        live := w.live.insert c
        log := w.log ++ (call.map (c, ·)).toList }
  | .close c =>
    (w.compat.onClose (net c).conn (net c).impl).map fun r =>
      { w with
        compat := r.1
        live := w.live.filter (· ≠ c)
        opened := w.opened.filter (· ≠ c)
        closed := c :: w.closed
        log := w.log ++ (r.2.map (c, ·)).toList }

instance (net : κ → Peer Conn Impl) (w : World κ Conn Impl P B η) :
    ∀ e, Decidable (Enabled net w e)
  | .serve _ _ _ => inferInstanceAs (Decidable (_ ∧ _))
  | .exit _ => inferInstanceAs (Decidable (_ ∧ _))
  | .open _ _ => inferInstanceAs (Decidable (_ ∧ _ ∧ _ ∧ _))
  | .message _ _ => inferInstanceAs (Decidable (_ ∧ _))
  | .close _ => inferInstanceAs (Decidable (_ ∧ _))

/-- A step of the environment and the layer. -/
def step (net : κ → Peer Conn Impl) (w : World κ Conn Impl P B η) (e : Event κ Impl P B η) :
    Option (World κ Conn Impl P B η) :=
  if Enabled net w e then w.handle net e else none

end

/-! ## The registry of connections -/

/-- A connection that opened successfully: its client, and the handlers of the server that owns
it. -/
structure Opening (κ P η : Type*) where
  conn : κ
  client : P
  events : WsEvents η

/-- A server that runs. -/
structure Serving (Impl B η : Type*) where
  bridge : B
  impl : Impl
  events : WsEvents η

/-- What the layer is for: the servers that run, the connections that opened successfully and those
that closed, newest first, told apart by themselves and not by their addresses. -/
structure Registry (κ Impl P B η : Type*) where
  serving : List (Serving Impl B η) := []
  openings : List (Opening κ P η) := []
  closed : List κ := []

section
variable {κ Conn Impl P B η : Type*} [DecidableEq κ] [DecidableEq Conn] [DecidableEq Impl]
  [DecidableEq P] [DecidableEq B]

/-- The handlers of the server `impl`. -/
def Registry.owner (r : Registry κ Impl P B η) (impl : Option Impl) : Option (Serving Impl B η) :=
  impl.bind fun impl => r.serving.find? fun s => decide (s.impl = impl)

/-- The connections that opened successfully and have not closed. -/
def Registry.registered (r : Registry κ Impl P B η) : List (Opening κ P η) :=
  r.openings.filter fun o => decide (o.conn ∉ r.closed)

/-- The opening of a connection, if its server runs and there is a block for its client. -/
def Registry.opened (net : κ → Peer Conn Impl) (r : Registry κ Impl P B η) (c : κ)
    (block : Option P) : Option (Opening κ P η) :=
  block.bind fun client => (r.owner (net c).impl).map fun s => ⟨c, client, s.events⟩

def Registry.next (net : κ → Peer Conn Impl) (r : Registry κ Impl P B η) :
    Event κ Impl P B η → Registry κ Impl P B η
  | .serve _ _ none => r
  | .serve bridge evs (some impl) => { r with serving := ⟨bridge, impl, evs.getD {}⟩ :: r.serving }
  | .exit bridge => { r with serving := r.serving.filter (·.bridge ≠ bridge) }
  | .open c block => { r with openings := (r.opened net c block).toList ++ r.openings }
  | .message _ _ => r
  | .close c => { r with closed := c :: r.closed }

/-- The registry after the events `es`. -/
def registryOf (net : κ → Peer Conn Impl) (es : List (Event κ Impl P B η)) :
    Registry κ Impl P B η :=
  es.foldl (Registry.next net) {}

/-- The messages of a connection. -/
def messagesOf (c : κ) (es : List (Event κ Impl P B η)) : List (WsfsOpcode × Bytes) :=
  es.filterMap fun
    | .message c' msg => if c' = c then msg else none
    | _ => none

/-- The call for a message, if it has a type. -/
def Opening.deliver (o : Opening κ P η) (m : WsfsOpcode × Bytes) : Option (Call P η) :=
  if wsfsBridgeMsgType m.1 = .unsupported then none
  else o.events.onmessage.map (Call.onmessage · o.client m.2 (wsfsBridgeMsgType m.1))

/-- The calls for a connection that opened successfully and got the messages `ms`. -/
def Opening.session (o : Opening κ P η) (ms : List (WsfsOpcode × Bytes)) (closed : Bool) :
    List (Call P η) :=
  (o.events.onopen.map (Call.onopen · o.client)).toList ++ ms.filterMap o.deliver ++
    if closed then (o.events.onclose.map (Call.onclose · o.client)).toList else []

/-- The successful opening of a connection. -/
def Registry.opening (r : Registry κ Impl P B η) (c : κ) : Option (Opening κ P η) :=
  r.openings.find? fun o => decide (o.conn = c)

/-- The call an event leads to. -/
def Registry.call (net : κ → Peer Conn Impl) (r : Registry κ Impl P B η) :
    Event κ Impl P B η → Option (κ × Call P η)
  | .serve _ _ _ | .exit _ => none
  | .open c block =>
    ((r.opened net c block).bind fun o => o.events.onopen.map (Call.onopen · o.client)).map (c, ·)
  | .message c msg => ((r.opening c).bind fun o => msg.bind o.deliver).map (c, ·)
  | .close c =>
    ((r.opening c).bind fun o => o.events.onclose.map (Call.onclose · o.client)).map (c, ·)

/-- The calls made for a connection. -/
def callsOf (c : κ) (log : List (κ × Call P η)) : List (Call P η) :=
  log.filterMap fun call => if call.1 = c then some call.2 else none

/-! ## The lists are the registry -/

/-- **The two lists are the registry**: they hold the servers that run and the clients of the
connections that opened successfully and have not closed. -/
structure Refines (net : κ → Peer Conn Impl) (w : World κ Conn Impl P B η)
    (r : Registry κ Impl P B η) : Prop where
  servers : w.compat.servers.Holds (r.serving.map (·.bridge))
  running : w.compat.running = r.serving.map (·.bridge)
  bridge : ∀ s ∈ r.serving, w.compat.bridge s.bridge = ⟨some s.impl, s.events⟩
  impls : (r.serving.map (·.impl)).Nodup
  clients : w.compat.clients.Holds (r.registered.map (·.client))
  allocated : w.compat.allocated = r.registered.map (·.client)
  client : ∀ o ∈ r.registered, (w.compat.client o.client).conn = some (net o.conn).conn ∧
    (w.compat.client o.client).serverImpl = (net o.conn).impl
  conns : (r.registered.map (·.conn)).Nodup
  opened : ∀ o ∈ r.registered, o.conn ∈ w.opened
  owner : ∀ o ∈ r.registered, ∃ s, r.owner (net o.conn).impl = some s ∧ s.events = o.events
  closed : r.closed = w.closed
  opened_live : ∀ c ∈ w.opened, c ∈ w.live
  live_open : ∀ c ∈ w.live, c ∉ w.closed
  distinct : ∀ c ∈ w.live, ∀ c' ∈ w.live, (net c).conn = (net c').conn → c = c'

variable {net : κ → Peer Conn Impl} {w : World κ Conn Impl P B η} {r : Registry κ Impl P B η}
  {c : κ}

/-- Servers are told apart by their addresses. -/
theorem owner_eq_some (h : (r.serving.map (·.impl)).Nodup) {impl : Option Impl}
    {s : Serving Impl B η} : r.owner impl = some s ↔ s ∈ r.serving ∧ impl = some s.impl := by
  cases impl with
  | none => simp [Registry.owner]
  | some impl =>
    show r.serving.find? _ = some s ↔ _
    constructor
    · intro hs
      have himpl := List.find?_some hs
      exact ⟨List.mem_of_find?_eq_some hs, congrArg some (of_decide_eq_true himpl).symm⟩
    · rintro ⟨hs, himpl⟩
      cases himpl
      cases hfind : r.serving.find? fun s' => decide (s'.impl = s.impl) with
      | none => exact absurd (decide_eq_true rfl) (List.find?_eq_none.1 hfind s hs)
      | some s' =>
        have hmem := List.mem_of_find?_eq_some hfind
        have himpl : s'.impl = s.impl := by simpa using List.find?_some hfind
        rw [List.inj_on_of_nodup_map h hmem hs himpl]

theorem mem_registered {o : Opening κ P η} :
    o ∈ r.registered ↔ o ∈ r.openings ∧ o.conn ∉ r.closed := by
  simp [Registry.registered]

theorem opening_registered (hc : c ∉ r.closed) :
    r.registered.find? (fun o => decide (o.conn = c)) = r.opening c := by
  rw [Registry.registered, List.find?_filter]
  apply List.find?_congr
  intro o _
  by_cases ho : o.conn = c
  · simp [ho, hc]
  · simp [ho]

theorem mem_of_opening {o : Opening κ P η} (hc : c ∉ r.closed) (ho : r.opening c = some o) :
    o ∈ r.registered ∧ o.conn = c := by
  rw [← opening_registered hc] at ho
  exact ⟨List.mem_of_find?_eq_some ho, by simpa using List.find?_some ho⟩

theorem registered_cons {o : Opening κ P η} (ho : o.conn ∉ r.closed) :
    Registry.registered { r with openings := o :: r.openings } = o :: r.registered :=
  List.filter_cons_of_pos (decide_eq_true ho)

theorem registered_close (r : Registry κ Impl P B η) (c : κ) :
    Registry.registered { r with closed := c :: r.closed } =
      r.registered.filter fun o => decide (o.conn ≠ c) := by
  rw [Registry.registered, Registry.registered, List.filter_filter]
  refine List.filter_congr fun o _ => ?_
  simp

namespace Refines

theorem serverForConn_eq (h : Refines net w r) (impl : Option Impl) :
    w.compat.serverForConn impl = some ((r.owner impl).map (·.bridge)) := by
  cases impl with
  | none => rfl
  | some impl =>
    apply Links.find_entries h.servers
    · rw [h.running, List.length_map]
    · intro s hs
      simp [h.bridge s hs]

theorem owner_bridge (h : Refines net w r) {impl : Option Impl} {s : Serving Impl B η}
    (hs : r.owner impl = some s) : (w.compat.bridge s.bridge).events = s.events := by
  rw [h.bridge s ((owner_eq_some h.impls).1 hs).1]

/-- The address of a connection leads to its client. -/
theorem findClient_eq (h : Refines net w r) (hc : c ∉ w.closed)
    (hconn : ∀ c' ∈ w.live, (net c').conn = (net c).conn → c' = c) :
    w.compat.findClient (net c).conn = some ((r.opening c).map (·.client)) := by
  rw [← opening_registered (h.closed ▸ hc)]
  apply Links.find_entries h.clients
  · rw [h.allocated, List.length_map]
  · intro o ho
    rw [(h.client o ho).1]
    apply Bool.eq_iff_iff.2
    rw [decide_eq_true_iff, decide_eq_true_iff, Option.some.injEq]
    exact ⟨hconn o.conn (h.opened_live _ (h.opened o ho)), fun heq => by rw [heq]⟩

/-! ### The servers -/

theorem serve_none (h : Refines net w r) (bridge : B) (evs : Option (WsEvents η)) :
    Refines net { w with compat := w.compat.wsSocket bridge evs none } r := h

theorem serve_some (h : Refines net w r) {bridge : B} {evs : Option (WsEvents η)} {impl : Impl}
    (hbridge : bridge ∉ w.compat.running)
    (himpl : ∀ b ∈ w.compat.running, (w.compat.bridge b).impl ≠ some impl) :
    Refines net { w with compat := w.compat.wsSocket bridge evs (some impl) }
      { r with serving := ⟨bridge, impl, evs.getD {}⟩ :: r.serving } := by
  have hnew : bridge ∉ r.serving.map (·.bridge) := h.running ▸ hbridge
  have himpls : ∀ s ∈ r.serving, s.impl ≠ impl := by
    intro s hs heq
    have hrun : s.bridge ∈ w.compat.running := h.running ▸ List.mem_map_of_mem hs
    apply himpl s.bridge hrun
    rw [h.bridge s hs, heq]
  let r' : Registry κ Impl P B η := { r with serving := ⟨bridge, impl, evs.getD {}⟩ :: r.serving }
  have himpls' : (r'.serving.map (·.impl)).Nodup := by
    refine List.nodup_cons.2 ⟨fun hmem => ?_, h.impls⟩
    obtain ⟨s, hs, heq⟩ := List.mem_map.1 hmem
    exact himpls s hs heq
  exact {
    h with
    servers := Links.holds_push h.servers hnew
    running := congrArg (bridge :: ·) h.running
    impls := himpls'
    bridge := by
      intro s hs
      rcases List.mem_cons.1 hs with rfl | hs
      · exact Function.update_self _ _ _
      · have hne : s.bridge ≠ bridge := fun heq => hnew (heq ▸ List.mem_map_of_mem hs)
        exact (Function.update_of_ne hne _ _).trans (h.bridge s hs)
    owner := by
      intro o ho
      obtain ⟨s, hs, hevs⟩ := h.owner o ho
      obtain ⟨hmem, heq⟩ := (owner_eq_some h.impls).1 hs
      exact ⟨s, (owner_eq_some himpls').2 ⟨List.mem_cons_of_mem _ hmem, heq⟩, hevs⟩ }

/-- A server that has no open connections goes, the others stay. -/
theorem exit (h : Refines net w r) {bridge : B}
    (hopened : ∀ c ∈ w.opened, (net c).impl ≠ (w.compat.bridge bridge).impl) :
    ∃ compat, w.compat.wsSocketReturn bridge = some compat ∧
      Refines net { w with compat := compat }
        { r with serving := r.serving.filter (·.bridge ≠ bridge) } := by
  have hq : ∀ s ∈ r.serving, decide (s.bridge ≠ bridge) = true ↔ s.bridge ≠ bridge :=
    fun s _ => decide_eq_true_iff
  obtain ⟨servers, hunlink, hservers⟩ := Links.unlink_entries (p := bridge) h.servers
    (by rw [h.running, List.length_map] : r.serving.length ≤ w.compat.running.length) hq
  have himpls : ((r.serving.filter (·.bridge ≠ bridge)).map (·.impl)).Nodup :=
    h.impls.sublist (List.filter_sublist.map _)
  have hrunning : w.compat.running.erase bridge =
      (r.serving.filter (·.bridge ≠ bridge)).map (·.bridge) := by
    rw [h.running]
    exact Links.erase_entries h.servers.nodup hq
  refine ⟨{ w.compat with
    servers := servers
    running := w.compat.running.erase bridge }, ?_, { h with
    servers := hservers
    running := hrunning
    impls := himpls
    bridge := fun s hs => h.bridge s (List.mem_filter.1 hs).1
    owner := ?_ }⟩
  · rw [Compat.wsSocketReturn, hunlink]
    rfl
  · intro o ho
    obtain ⟨s, hs, hevs⟩ := h.owner o ho
    obtain ⟨hmem, heq⟩ := (owner_eq_some h.impls).1 hs
    refine ⟨s, (owner_eq_some himpls).2 ⟨List.mem_filter.2 ⟨hmem, ?_⟩, heq⟩, hevs⟩
    refine decide_eq_true fun hbridge => hopened o.conn (h.opened o ho) ?_
    rw [← hbridge, h.bridge s hmem, heq]

/-! ### The connections -/

/-- The environment goes on without the layer. -/
theorem seen (h : Refines net w r) {w' : World κ Conn Impl P B η} (hcompat : w'.compat = w.compat)
    (hclosed : w'.closed = w.closed) (hlive : ∀ c' ∈ w'.live, c' ∈ w.live ∨ c' = c)
    (hopened : ∀ c' ∈ w'.opened, c' ∈ w'.live) (hkeep : ∀ c' ∈ w.opened, c' ∈ w'.opened)
    (hc : c ∉ w.closed) (hconn : ∀ c' ∈ w.live, (net c').conn = (net c).conn → c' = c) :
    Refines net w' r := by
  obtain ⟨compat', live', opened', closed', log'⟩ := w'
  cases hcompat
  cases hclosed
  exact { h with
    opened := fun o ho => hkeep _ (h.opened o ho)
    opened_live := hopened
    live_open := by
      intro c' hc'
      rcases hlive c' hc' with hl | rfl
      · exact h.live_open c' hl
      · exact hc
    distinct := by
      intro c' hc' c'' hc'' heq
      rcases hlive c' hc' with hl | rfl
      · rcases hlive c'' hc'' with hl' | rfl
        · exact h.distinct c' hl c'' hl' heq
        · exact hconn c' hl heq
      · rcases hlive c'' hc'' with hl' | rfl
        · exact (hconn c'' hl' heq.symm).symm
        · rfl }

/-- An open connection gets its client. -/
theorem registers (h : Refines net w r) {client : P} {s : Serving Impl B η} {ip : Bytes}
    (hopened : c ∈ w.opened) (hclosed : c ∉ w.closed) (hnone : ∀ o ∈ r.registered, o.conn ≠ c)
    (hblock : client ∉ w.compat.allocated) (howner : r.owner (net c).impl = some s) :
    Refines net
      { w with
        compat := { w.compat with
          client := Function.update w.compat.client client
            { conn := some (net c).conn, serverImpl := (net c).impl, peerIp := ip, state := .open }
          allocated := client :: w.compat.allocated
          clients := w.compat.clients.push client } }
      { r with openings := ⟨c, client, s.events⟩ :: r.openings } := by
  have hregistered := registered_cons (r := r) (o := ⟨c, client, s.events⟩) (h.closed ▸ hclosed)
  have hnew : client ∉ r.registered.map (·.client) := h.allocated ▸ hblock
  exact { h with
    clients := by
      rw [hregistered]
      exact Links.holds_push h.clients hnew
    allocated := by
      rw [hregistered]
      exact congrArg (client :: ·) h.allocated
    client := by
      rw [hregistered]
      intro o ho
      show (Function.update w.compat.client client _ o.client).conn = _ ∧
        (Function.update w.compat.client client _ o.client).serverImpl = _
      rcases List.mem_cons.1 ho with rfl | ho
      · rw [Function.update_self]
        exact ⟨rfl, rfl⟩
      · have hne : o.client ≠ client := fun heq => hnew (heq ▸ List.mem_map_of_mem ho)
        rw [Function.update_of_ne hne]
        exact h.client o ho
    conns := by
      rw [hregistered]
      refine List.nodup_cons.2 ⟨fun hmem => ?_, h.conns⟩
      obtain ⟨o, ho, heq⟩ := List.mem_map.1 hmem
      exact hnone o ho heq
    opened := by
      rw [hregistered]
      intro o ho
      rcases List.mem_cons.1 ho with rfl | ho
      · exact hopened
      · exact h.opened o ho
    owner := by
      rw [hregistered]
      intro o ho
      rcases List.mem_cons.1 ho with rfl | ho
      · exact ⟨s, howner, rfl⟩
      · exact h.owner o ho }

/-- A connection closes, and its client goes. -/
theorem closes (h : Refines net w r) {compat : Compat Conn Impl P B η}
    {log : List (κ × Call P η)} (hc : c ∉ w.closed) (hservers : compat.servers = w.compat.servers)
    (hrunning : compat.running = w.compat.running) (hbridge : compat.bridge = w.compat.bridge)
    (hclients : compat.clients.Holds
      ((r.registered.filter fun o => decide (o.conn ≠ c)).map (·.client)))
    (hallocated : compat.allocated =
      (r.registered.filter fun o => decide (o.conn ≠ c)).map (·.client))
    (hclient : ∀ o ∈ r.registered, o.conn ≠ c →
      compat.client o.client = w.compat.client o.client) :
    Refines net
      { w with
        compat := compat
        live := w.live.filter (· ≠ c)
        opened := w.opened.filter (· ≠ c)
        closed := c :: w.closed
        log := log }
      { r with closed := c :: r.closed } := by
  have hmem {o : Opening κ P η}
      (ho : o ∈ Registry.registered { r with closed := c :: r.closed }) :
      o ∈ r.registered ∧ o.conn ≠ c := by
    rw [registered_close, List.mem_filter] at ho
    exact ⟨ho.1, of_decide_eq_true ho.2⟩
  exact {
    servers := hservers ▸ h.servers
    running := hrunning.trans h.running
    bridge := by
      intro s hs
      show compat.bridge s.bridge = _
      rw [hbridge]
      exact h.bridge s hs
    impls := h.impls
    clients := by rw [registered_close]; exact hclients
    allocated := by rw [registered_close]; exact hallocated
    client := by
      intro o ho
      obtain ⟨ho, hne⟩ := hmem ho
      rw [hclient o ho hne]
      exact h.client o ho
    conns := by
      rw [registered_close]
      exact h.conns.sublist (List.filter_sublist.map _)
    opened := by
      intro o ho
      obtain ⟨ho, hne⟩ := hmem ho
      exact List.mem_filter.2 ⟨h.opened o ho, decide_eq_true hne⟩
    owner := fun o ho => h.owner o (hmem ho).1
    closed := congrArg (c :: ·) h.closed
    opened_live := by
      intro c' hc'
      obtain ⟨hc', hne⟩ := List.mem_filter.1 hc'
      exact List.mem_filter.2 ⟨h.opened_live c' hc', hne⟩
    live_open := by
      intro c' hc' hmem
      obtain ⟨hc', hne⟩ := List.mem_filter.1 hc'
      rcases List.mem_cons.1 hmem with rfl | hmem
      · exact of_decide_eq_true hne rfl
      · exact h.live_open c' hc' hmem
    distinct := by
      intro c' hc' c'' hc''
      exact h.distinct c' (List.mem_filter.1 hc').1 c'' (List.mem_filter.1 hc'').1 }

/-! ### The callbacks -/

theorem handle_open (h : Refines net w r) {block : Option P} (he : Enabled net w (.open c block)) :
    ∃ w', w.handle net (.open c block) = some w' ∧ Refines net w' (r.next net (.open c block)) ∧
      w'.log = w.log ++ (r.call net (.open c block)).toList := by
  obtain ⟨hlive, hclosed, hconn, hblock⟩ := he
  have hseen {log : List (κ × Call P η)} : Refines net
      { w with live := c :: w.live, opened := c :: w.opened, log := log } r := by
    refine h.seen rfl rfl ?_ ?_ ?_ hclosed fun c' hc' heq => absurd heq (hconn c' hc')
    · intro c' hc'
      exact (List.mem_cons.1 hc').symm
    · intro c' hc'
      rcases List.mem_cons.1 hc' with rfl | hc'
      · exact List.mem_cons_self
      · exact List.mem_cons_of_mem c (h.opened_live c' hc')
    · intro c' hc'
      exact List.mem_cons_of_mem c hc'
  rw [World.handle, Compat.onOpen, h.serverForConn_eq]
  simp only [Registry.next, Registry.call, Registry.opened]
  refine ⟨_, rfl, ?_⟩
  cases howner : r.owner (net c).impl with
  | none => cases block <;> exact ⟨hseen, rfl⟩
  | some s =>
    cases block with
    | none => exact ⟨hseen, rfl⟩
    | some client =>
      simp only [Option.map_some, Option.bind_some, h.owner_bridge howner, and_true]
      have hnone : ∀ o ∈ r.registered, o.conn ≠ c := by
        intro o ho heq
        exact hlive (heq ▸ h.opened_live _ (h.opened o ho))
      exact hseen.registers List.mem_cons_self hclosed hnone (hblock client rfl) howner

theorem handle_message (h : Refines net w r) {msg : Option (WsfsOpcode × Bytes)}
    (he : Enabled net w (.message c msg)) :
    ∃ w', w.handle net (.message c msg) = some w' ∧ Refines net w' (r.next net (.message c msg)) ∧
      w'.log = w.log ++ (r.call net (.message c msg)).toList := by
  obtain ⟨hclosed, hconn⟩ := he
  have hseen {log : List (κ × Call P η)} :
      Refines net { w with live := w.live.insert c, log := log } r := by
    refine h.seen rfl rfl ?_ ?_ (fun _ hc' => hc') hclosed hconn
    · intro c' hc'
      exact (List.mem_insert_iff.1 hc').symm
    · intro c' hc'
      exact List.mem_insert_iff.2 (.inr (h.opened_live c' hc'))
  rw [World.handle, Compat.onMessage.eq_def]
  cases msg with
  | none => exact ⟨_, rfl, hseen, by simp [Registry.call]⟩
  | some m =>
    rw [h.serverForConn_eq, h.findClient_eq hclosed hconn]
    refine ⟨_, rfl, hseen, ?_⟩
    cases hopening : r.opening c with
    | none => cases r.owner (net c).impl <;> simp [Registry.call, hopening]
    | some o =>
      obtain ⟨ho, rfl⟩ := mem_of_opening (h.closed ▸ hclosed) hopening
      obtain ⟨s, hs, hevs⟩ := h.owner o ho
      simp only [hs, Option.map_some, h.owner_bridge hs, hevs, Registry.call, hopening,
        Opening.deliver, Option.bind_some]

theorem client_ne_iff (h : Refines net w r) {o : Opening κ P η} (ho : o ∈ r.registered)
    (hoc : o.conn = c) :
    ∀ o' ∈ r.registered, decide (o'.conn ≠ c) = true ↔ o'.client ≠ o.client := by
  intro o' ho'
  rw [decide_eq_true_iff, not_iff_not]
  constructor
  · intro heq
    rw [List.inj_on_of_nodup_map h.conns ho' ho (heq.trans hoc.symm)]
  · intro heq
    rw [List.inj_on_of_nodup_map h.clients.nodup ho' ho heq, hoc]

theorem handle_close (h : Refines net w r) (he : Enabled net w (.close c)) :
    ∃ w', w.handle net (.close c) = some w' ∧ Refines net w' (r.next net (.close c)) ∧
      w'.log = w.log ++ (r.call net (.close c)).toList := by
  obtain ⟨hclosed, hconn⟩ := he
  have hrclosed : c ∉ r.closed := h.closed ▸ hclosed
  rw [World.handle, Compat.onClose, h.serverForConn_eq, h.findClient_eq hclosed hconn]
  simp only [Registry.next, Registry.call]
  cases hopening : r.opening c with
  | none =>
    have hnone : ∀ o ∈ r.registered, o.conn ≠ c := by
      rw [← opening_registered hrclosed] at hopening
      intro o ho heq
      exact absurd (decide_eq_true heq) (List.find?_eq_none.1 hopening o ho)
    have hsame : (r.registered.filter fun o => decide (o.conn ≠ c)) = r.registered :=
      List.filter_eq_self.2 fun o ho => decide_eq_true (hnone o ho)
    refine ⟨_, rfl, h.closes hclosed rfl rfl rfl ?_ ?_ fun _ _ _ => rfl, rfl⟩
    · rw [hsame]
      exact h.clients
    · rw [hsame]
      exact h.allocated
  | some o =>
    obtain ⟨ho, hoc⟩ := mem_of_opening hrclosed hopening
    obtain ⟨s, hs, hevs⟩ := h.owner o ho
    rw [hoc] at hs
    have hq := h.client_ne_iff ho hoc
    obtain ⟨clients, hunlink, hclients⟩ := Links.unlink_entries h.clients
      (by rw [h.allocated, List.length_map] :
        r.registered.length ≤ w.compat.allocated.length) hq
    have hallocated : w.compat.allocated.erase o.client =
        (r.registered.filter fun o => decide (o.conn ≠ c)).map (·.client) := by
      rw [h.allocated]
      exact Links.erase_entries h.clients.nodup hq
    simp only [hs, Option.map_some, Option.bind_some, hunlink, h.owner_bridge hs, hevs]
    refine ⟨_, rfl, h.closes hclosed rfl rfl rfl hclients hallocated ?_, rfl⟩
    intro o' ho' hne
    exact Function.update_of_ne ((hq o' ho').1 (decide_eq_true hne)) _ _

/-- **Every callback returns, and the lists stay the registry.** -/
theorem handle (h : Refines net w r) {e : Event κ Impl P B η} (he : Enabled net w e) :
    ∃ w', w.handle net e = some w' ∧ Refines net w' (r.next net e) ∧
      w'.log = w.log ++ (r.call net e).toList := by
  cases e with
  | serve bridge evs impl =>
    refine ⟨_, rfl, ?_, by simp [Registry.call]⟩
    cases impl with
    | none => exact h.serve_none bridge evs
    | some impl => exact h.serve_some he.1 fun b hb => (he.2 b hb).resolve_left (by simp)
  | exit bridge =>
    obtain ⟨compat, hcompat, hexit⟩ := h.exit he.2
    refine ⟨_, by rw [World.handle, hcompat]; rfl, hexit, by simp [Registry.call]⟩
  | «open» c block => exact h.handle_open he
  | message c msg => exact h.handle_message he
  | close c => exact h.handle_close he

end Refines

/-! ## The calls for a connection -/

/-- The connection an event is about. -/
def Event.conn : Event κ Impl P B η → Option κ
  | .open c _ | .message c _ | .close c => some c
  | .serve _ _ _ | .exit _ => none

/-- The calls for a connection after the events `es`. -/
def Registry.session (r : Registry κ Impl P B η) (es : List (Event κ Impl P B η)) (c : κ) :
    List (Call P η) :=
  (r.opening c).elim [] fun o => o.session (messagesOf c es) (decide (c ∈ r.closed))

theorem callsOf_append (l l' : List (κ × Call P η)) :
    callsOf c (l ++ l') = callsOf c l ++ callsOf c l' := List.filterMap_append

theorem callsOf_self (call : Option (Call P η)) :
    callsOf c (call.map (c, ·)).toList = call.toList := by
  cases call <;> simp [callsOf]

theorem callsOf_of_ne {c' : κ} (hc : c' ≠ c) (call : Option (Call P η)) :
    callsOf c (call.map (c', ·)).toList = [] := by
  cases call <;> simp [callsOf, hc]

theorem messagesOf_append (es : List (Event κ Impl P B η)) (e : Event κ Impl P B η) :
    messagesOf c (es ++ [e]) = messagesOf c es ++ messagesOf c [e] := List.filterMap_append

theorem opening_append {os : List (Opening κ P η)} :
    Registry.opening { r with openings := os ++ r.openings } c =
      (os.find? fun o => decide (o.conn = c)).or (r.opening c) := List.find?_append

theorem opened_conn {c' : κ} {block : Option P} {o : Opening κ P η}
    (ho : r.opened net c' block = some o) : o.conn = c' := by
  obtain ⟨client, -, ho⟩ := Option.bind_eq_some_iff.1 ho
  obtain ⟨s, -, rfl⟩ := Option.map_eq_some_iff.1 ho
  rfl

/-- An event is nothing to the other connections. -/
theorem next_of_ne (net : κ → Peer Conn Impl) (r : Registry κ Impl P B η)
    {e : Event κ Impl P B η} (he : e.conn ≠ some c) :
    (r.next net e).opening c = r.opening c ∧ (c ∈ (r.next net e).closed ↔ c ∈ r.closed) ∧
      messagesOf c [e] = [] ∧ callsOf c (r.call net e).toList = [] := by
  cases e with
  | serve bridge evs impl => cases impl <;> exact ⟨rfl, Iff.rfl, rfl, rfl⟩
  | exit bridge => exact ⟨rfl, Iff.rfl, rfl, rfl⟩
  | «open» c' block =>
    have hc : c' ≠ c := fun heq => he (congrArg some heq)
    refine ⟨?_, Iff.rfl, rfl, callsOf_of_ne hc _⟩
    rw [Registry.next, opening_append]
    cases hopened : r.opened net c' block with
    | none => rfl
    | some o => simp [opened_conn hopened, hc]
  | message c' msg =>
    have hc : c' ≠ c := fun heq => he (congrArg some heq)
    exact ⟨rfl, Iff.rfl, by simp [messagesOf, hc], callsOf_of_ne hc _⟩
  | close c' =>
    have hc : c' ≠ c := fun heq => he (congrArg some heq)
    refine ⟨rfl, ?_, rfl, callsOf_of_ne hc _⟩
    exact ⟨fun hmem => (List.mem_cons.1 hmem).resolve_left hc.symm, List.mem_cons_of_mem c'⟩

/-- The opening is the first call; before it there is nothing. -/
theorem session_open {block : Option P} {es : List (Event κ Impl P B η)} (hclosed : c ∉ r.closed)
    (hms : messagesOf c es = []) (hnone : r.opening c = none) :
    (r.next net (.open c block)).session (es ++ [.open c block]) c =
      r.session es c ++ callsOf c (r.call net (.open c block)).toList := by
  have hdecide : decide (c ∈ r.closed) = false := decide_eq_false hclosed
  have hmsgs : messagesOf c (es ++ [.open c block]) = [] := by
    rw [messagesOf_append, hms]
    rfl
  unfold Registry.session
  rw [hmsgs, Registry.call, callsOf_self, Registry.next, opening_append, hnone]
  cases hopened : r.opened net c block with
  | none => rfl
  | some o => simp [opened_conn hopened, Opening.session, hdecide]

theorem session_message {msg : Option (WsfsOpcode × Bytes)} {es : List (Event κ Impl P B η)}
    (hclosed : c ∉ r.closed) :
    (r.next net (.message c msg)).session (es ++ [.message c msg]) c =
      r.session es c ++ callsOf c (r.call net (.message c msg)).toList := by
  have hdecide : decide (c ∈ r.closed) = false := decide_eq_false hclosed
  unfold Registry.session
  rw [messagesOf_append, Registry.call, callsOf_self, Registry.next]
  cases hopening : r.opening c with
  | none => rfl
  | some o =>
    cases msg with
    | none => simp [messagesOf, Opening.session, hdecide]
    | some m =>
      have hsingle : [m].filterMap o.deliver = (o.deliver m).toList := by
        cases hm : o.deliver m <;> simp [hm]
      simp [messagesOf, Opening.session, hdecide, hsingle]

theorem session_close {es : List (Event κ Impl P B η)} (hclosed : c ∉ r.closed) :
    (r.next net (.close c)).session (es ++ [.close c]) c =
      r.session es c ++ callsOf c (r.call net (.close c)).toList := by
  have hdecide : decide (c ∈ r.closed) = false := decide_eq_false hclosed
  have hopening : (r.next net (.close c)).opening c = r.opening c := rfl
  unfold Registry.session
  rw [messagesOf_append, Registry.call, callsOf_self, hopening]
  cases hopening : r.opening c with
  | none => rfl
  | some o => simp [messagesOf, Opening.session, hdecide, Registry.next]

/-- What an event adds to the calls for a connection. -/
theorem session_next {e : Event κ Impl P B η} {es : List (Event κ Impl P B η)}
    (h : Refines net w r) (he : Enabled net w e)
    (hfresh : c ∉ w.live → c ∉ w.closed → messagesOf c es = [] ∧ r.opening c = none) :
    (r.next net e).session (es ++ [e]) c = r.session es c ++ callsOf c (r.call net e).toList := by
  by_cases hconn : e.conn = some c
  · cases e with
    | serve bridge evs impl => cases hconn
    | exit bridge => cases hconn
    | «open» c' block =>
      cases hconn
      obtain ⟨hlive, hclosed, -, -⟩ := he
      obtain ⟨hms, hnone⟩ := hfresh hlive hclosed
      exact session_open (h.closed ▸ hclosed) hms hnone
    | message c' msg =>
      cases hconn
      exact session_message (h.closed ▸ he.1)
    | close c' =>
      cases hconn
      exact session_close (h.closed ▸ he.1)
  · obtain ⟨hopening, hclosed, hms, hcalls⟩ := next_of_ne net r hconn
    unfold Registry.session
    rw [hopening, messagesOf_append, hms, List.append_nil, hcalls, List.append_nil,
      decide_eq_decide.2 hclosed]

/-! ## Runs -/

/-- What a run of the events `es` keeps: the lists are the registry, the calls are those the
registry leads to, and nothing is known of connections that were not seen. -/
structure Routed (net : κ → Peer Conn Impl) (w : World κ Conn Impl P B η)
    (es : List (Event κ Impl P B η)) : Prop where
  refines : Refines net w (registryOf net es)
  calls : ∀ c, callsOf c w.log = (registryOf net es).session es c
  fresh : ∀ c, c ∉ w.live → c ∉ w.closed →
    messagesOf c es = [] ∧ (registryOf net es).opening c = none

theorem registryOf_append (es : List (Event κ Impl P B η)) (e : Event κ Impl P B η) :
    registryOf net (es ++ [e]) = (registryOf net es).next net e := by
  simp [registryOf, List.foldl_append]

/-- A connection that was seen stays seen, and so does the one the event is about. -/
theorem handle_seen {e : Event κ Impl P B η} {w' : World κ Conn Impl P B η}
    (h : w.handle net e = some w') (hc : (c ∈ w.live ∨ c ∈ w.closed) ∨ e.conn = some c) :
    c ∈ w'.live ∨ c ∈ w'.closed := by
  cases e with
  | serve bridge evs impl =>
    cases h
    exact hc.resolve_right fun heq => by cases heq
  | exit bridge =>
    obtain ⟨compat, -, rfl⟩ := Option.map_eq_some_iff.1 h
    exact hc.resolve_right fun heq => by cases heq
  | «open» c' block =>
    obtain ⟨r, -, rfl⟩ := Option.map_eq_some_iff.1 h
    rcases hc with (hl | hcl) | heq
    · exact .inl (List.mem_cons_of_mem c' hl)
    · exact .inr hcl
    · cases heq
      exact .inl List.mem_cons_self
  | message c' msg =>
    obtain ⟨calls, -, rfl⟩ := Option.map_eq_some_iff.1 h
    rcases hc with (hl | hcl) | heq
    · exact .inl (List.mem_insert_of_mem hl)
    · exact .inr hcl
    · cases heq
      exact .inl List.mem_insert_self
  | close c' =>
    obtain ⟨r, -, rfl⟩ := Option.map_eq_some_iff.1 h
    by_cases hcc : c = c'
    · exact .inr (hcc ▸ List.mem_cons_self)
    · rcases hc with (hl | hcl) | heq
      · exact .inl (List.mem_filter.2 ⟨hl, decide_eq_true hcc⟩)
      · exact .inr (List.mem_cons_of_mem c' hcl)
      · exact absurd (Option.some.inj heq).symm hcc

namespace Routed

theorem init : Routed net ({} : World κ Conn Impl P B η) [] where
  refines := {
    servers := rfl
    running := rfl
    bridge := fun _ hs => absurd hs List.not_mem_nil
    impls := List.nodup_nil
    clients := rfl
    allocated := rfl
    client := fun _ ho => absurd ho List.not_mem_nil
    conns := List.nodup_nil
    opened := fun _ ho => absurd ho List.not_mem_nil
    owner := fun _ ho => absurd ho List.not_mem_nil
    closed := rfl
    opened_live := fun _ hc => absurd hc List.not_mem_nil
    live_open := fun _ hc => absurd hc List.not_mem_nil
    distinct := fun _ hc => absurd hc List.not_mem_nil }
  calls := fun _ => rfl
  fresh := fun _ _ _ => ⟨rfl, rfl⟩

/-- The step lemma. -/
theorem step {es : List (Event κ Impl P B η)} {e : Event κ Impl P B η} (h : Routed net w es)
    (he : Enabled net w e) :
    ∃ w', WsCompat.step net w e = some w' ∧
      w'.log = w.log ++ ((registryOf net es).call net e).toList ∧ Routed net w' (es ++ [e]) := by
  obtain ⟨w', hw', hrefines, hlog⟩ := h.refines.handle he
  refine ⟨w', (if_pos he).trans hw', hlog, ?_, ?_, ?_⟩
  · rw [registryOf_append]
    exact hrefines
  · intro c
    rw [hlog, callsOf_append, h.calls, registryOf_append, session_next h.refines he (h.fresh c)]
  · intro c hl hcl
    have hunseen : ¬ ((c ∈ w.live ∨ c ∈ w.closed) ∨ e.conn = some c) := by
      intro hc
      rcases handle_seen hw' hc with h' | h'
      · exact hl h'
      · exact hcl h'
    obtain ⟨hms, hopening⟩ := h.fresh c (fun h' => hunseen (.inl (.inl h')))
      (fun h' => hunseen (.inl (.inr h')))
    obtain ⟨hsame, -, hms', -⟩ :=
      next_of_ne net (registryOf net es) (fun heq => hunseen (.inr heq))
    rw [messagesOf_append, hms, hms', registryOf_append, hsame]
    exact ⟨rfl, hopening⟩

/-- The run lemma, by induction on the events from the last one back. -/
theorem run {es : List (Event κ Impl P B η)} {w : World κ Conn Impl P B η}
    (h : Run.run (WsCompat.step net) {} es = some w) : Routed net w es := by
  induction es using List.reverseRecOn generalizing w with
  | nil =>
    cases h
    exact init
  | append_singleton es e ih =>
    obtain ⟨m, hm, hlast⟩ := (Run.run_append _).1 h
    obtain ⟨w', he, hnil⟩ := (Run.run_cons _).1 hlast
    cases hnil
    have henabled : Enabled net m e := by
      by_contra hne
      rw [WsCompat.step, if_neg hne] at he
      cases he
    obtain ⟨w'', hw'', -, hrouted⟩ := (ih hm).step henabled
    rw [he] at hw''
    cases hw''
    exact hrouted

end Routed

/-- An event removes no server but the one that returns, and no client but the one that closes. -/
theorem next_keeps {e : Event κ Impl P B η} :
    (∀ s ∈ r.serving, e ≠ .exit s.bridge → s ∈ (r.next net e).serving) ∧
      ∀ o ∈ r.registered, e ≠ .close o.conn → o ∈ (r.next net e).registered := by
  cases e with
  | serve bridge evs impl =>
    cases impl with
    | none => exact ⟨fun s hs _ => hs, fun o ho _ => ho⟩
    | some impl => exact ⟨fun s hs _ => List.mem_cons_of_mem _ hs, fun o ho _ => ho⟩
  | exit bridge =>
    refine ⟨fun s hs hne => List.mem_filter.2 ⟨hs, decide_eq_true fun heq => ?_⟩,
      fun o ho _ => ho⟩
    exact hne (congrArg Event.exit heq.symm)
  | «open» c block =>
    refine ⟨fun s hs _ => hs, fun o ho _ => ?_⟩
    obtain ⟨ho, hclosed⟩ := mem_registered.1 ho
    exact mem_registered.2 ⟨List.mem_append_right _ ho, hclosed⟩
  | message c msg => exact ⟨fun s hs _ => hs, fun o ho _ => ho⟩
  | close c =>
    refine ⟨fun s hs _ => hs, fun o ho hne => ?_⟩
    obtain ⟨ho, hclosed⟩ := mem_registered.1 ho
    refine mem_registered.2 ⟨ho, fun hmem => ?_⟩
    rcases List.mem_cons.1 hmem with heq | hmem
    · exact hne (congrArg Event.close heq.symm)
    · exact hclosed hmem

/-- **The layer routes events to the right client.** After every run the client list has one entry
for each connection that opened successfully and has not closed, in the block made at its opening,
and the server list the servers that run. For each connection the handlers of its server were called
with its client: `onopen`, `onmessage` for its messages of a known type, `onclose` when it closed;
for one that did not open successfully none was called. Every further callback returns, makes the
call its connection calls for, and removes no other server or client. -/
theorem ws_compat_routes {es : List (Event κ Impl P B η)} {w : World κ Conn Impl P B η}
    (h : Run.run (step net) {} es = some w) :
    (w.compat.clients.Holds ((registryOf net es).registered.map (·.client)) ∧
      ((registryOf net es).registered.map (·.conn)).Nodup ∧
      (∀ o ∈ (registryOf net es).registered,
        (w.compat.client o.client).conn = some (net o.conn).conn) ∧
      w.compat.allocated = (registryOf net es).registered.map (·.client)) ∧
    w.compat.servers.Holds ((registryOf net es).serving.map (·.bridge)) ∧
    (∀ c, callsOf c w.log = (registryOf net es).session es c) ∧
    ∀ e, Enabled net w e → ∃ w', step net w e = some w' ∧
      w'.log = w.log ++ ((registryOf net es).call net e).toList ∧
      (∀ s ∈ (registryOf net es).serving, e ≠ .exit s.bridge →
        s ∈ (registryOf net (es ++ [e])).serving) ∧
      ∀ o ∈ (registryOf net es).registered, e ≠ .close o.conn →
        o ∈ (registryOf net (es ++ [e])).registered := by
  have hrouted := Routed.run h
  refine ⟨⟨hrouted.refines.clients, hrouted.refines.conns,
    fun o ho => (hrouted.refines.client o ho).1, hrouted.refines.allocated⟩,
    hrouted.refines.servers, hrouted.calls, ?_⟩
  intro e he
  obtain ⟨w', hw', hlog, -⟩ := hrouted.step he
  rw [registryOf_append]
  exact ⟨w', hw', hlog, next_keeps⟩

end

/-- Connections 0 and 1 of two servers; connection 2 has the address connection 0 had. -/
def threePeers : Nat → Peer Nat Nat
  | 0 => ⟨10, some 1, none⟩
  | 1 => ⟨11, some 2, none⟩
  | _ => ⟨10, some 2, none⟩

/-- Two servers and their connections. -/
def twoServers : List (Event Nat Nat Nat Nat Nat) :=
  [.serve 100 (some ⟨some 1, some 2, some 3⟩) (some 1),
    .serve 200 (some ⟨some 4, some 5, some 6⟩) (some 2),
    .open 0 (some 7), .open 1 none, .message 0 (some (.text, [1])), .close 0,
    .open 2 (some 7), .message 2 (some (.binary, [2])), .message 1 (some (.text, [3]))]

/-- Address and block of connection 0 are used again for connection 2, and the allocation for
connection 1 fails. -/
theorem ws_compat_routes_twoServers :
    ∃ w, Run.run (step threePeers) {} twoServers = some w ∧
      callsOf 0 w.log = [.onopen 1 7, .onmessage 3 7 [1] .txt, .onclose 2 7] ∧
      callsOf 1 w.log = [] ∧ callsOf 2 w.log = [.onopen 4 7, .onmessage 6 7 [2] .bin] := by
  have hsome : (Run.run (step threePeers) {} twoServers).isSome := by decide
  obtain ⟨w, hw⟩ := Option.isSome_iff_exists.1 hsome
  have hcalls := (ws_compat_routes hw).2.2.1
  exact ⟨w, hw, (hcalls 0).trans (by decide), (hcalls 1).trans (by decide),
    (hcalls 2).trans (by decide)⟩

/-- A message of an opcode without a type is not delivered, on an open connection of a server that
has all handlers. -/
theorem message_notDelivered :
    ∃ w, Run.run (step threePeers) {}
        [.serve 100 (some ⟨some 1, some 2, some 3⟩) (some 1), .open 0 (some 7),
          (.message 0 (some (.other, [1])) : Event Nat Nat Nat Nat Nat)] = some w ∧
      w.opened = [0] ∧ w.log = [(0, .onopen 1 7)] := by
  refine ⟨_, rfl, rfl, rfl⟩

end WsCompat
