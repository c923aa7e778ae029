import CarplayRelay.Client.Startup
import CarplayRelay.Firmware.UsbLog

/-!
# Firmware and client agree on the start of a USB stream

The USB function of the firmware and the client's `prepare_usb_stream_startup`, with the OUT
packets and the IN transfers between them, which arrive in order. Data of any age may be on its
way when an attempt begins, and earlier attempts may have left packets behind.

The proof: a PONG is logged behind the packet that it answers (`LogOk.pongs`), and the packets of
an attempt with its number are its PINGs (`AttemptOk`), so a PONG with that number answers a PING
of the attempt (`pong_answers`). The PING began a session, so an INIT record that is read behind
the PONG is one of this session or a later one.

* `run_startup_agrees`: in a run in which no session of the firmware ends while the controller
  still has the IN request, the INIT record that an attempt accepts was enqueued behind its PING,
  and the client has the stream of that session from its first packet on.
* `suspend_disagrees`: after a suspend with a request in the controller the client gets the first
  packet of a session twice.
-/

namespace E2E

open Bytes Proto Crypto Client Firmware

/-! ## The link -/

/-- The firmware and the client. -/
structure UsbLink where
  usb : LoggedDevice
  client : Startup
  /-- The OUT packets, in the order in which they were written. -/
  written : List Bytes := []
  /-- How many of them have completed. -/
  completed : Nat := 0
  /-- How many IN transfers have been read. -/
  reads : Nat := 0
  /-- How many OUT packets were written before the PING of the attempt. -/
  pingAt : Nat := 0
  /-- The number of the IN transfer that the attempt read last. -/
  readAt : Nat := 0

inductive UsbLinkEvent
  /-- A callback or task step of the firmware other than an OUT completion. -/
  | firmware (e : DeviceEvent) (moved : Nat)
  /-- The next OUT packet completes. -/
  | outComplete (status : Int) (calls : OutCalls) (moved : Nat)
  /-- `prepare_usb_stream_startup` is called. -/
  | start (usb : Bool) (seqNo : UInt32) (options : UsbUpstreamOptions)
  /-- The attempt reads the next IN transfer. -/
  | read
  /-- Another step of the attempt. -/
  | startup (e : StartupEvent)
  /-- A packet is written outside of an attempt. -/
  | write (packet : Bytes)
  /-- The next IN transfer is read outside of an attempt, or lost with a call that times out. -/
  | drop

/-- A step of the link. -/
def usbLinkStep (ks : KeyStream) (s : UsbLink) : UsbLinkEvent → Option UsbLink
  | .firmware e moved =>
    if e.packet.isSome ∨ ¬ e.Sized then none
    else (logStep ks s.usb s.completed e moved).map fun usb => { s with usb := usb }
  | .outComplete status calls moved =>
    match s.written[s.completed]? with
    | none => none
    | some packet =>
      (logStep ks s.usb s.completed (.outComplete status packet.length packet calls) moved).map
        fun usb => { s with usb := usb, completed := s.completed + 1 }
  | .start usb seqNo options =>
    match s.client.pc with
    | .returned _ =>
      some { s with client := prepareUsbStreamStartup usb seqNo options s.client.startup }
    | .flush _ | .sendConfig | .sendPing | .read _ => none
  | .read =>
    match (transfers s.usb.log)[s.reads]? with
    | none => none
    | some t =>
      (startupStep s.client (.read (.success t.bytes))).map fun r =>
        { s with client := r.1, reads := s.reads + 1, readAt := s.reads }
  | .startup e =>
    if e.isData then none
    else
      (startupStep s.client e).map fun r =>
        { s with
          client := r.1
          written := s.written ++ r.2
          pingAt := if s.client.pc = .sendPing then s.written.length else s.pingAt }
  | .write packet =>
    match s.client.pc with
    | .returned _ => some { s with written := s.written ++ [packet] }
    | .flush _ | .sendConfig | .sendPing | .read _ => none
  | .drop =>
    if s.reads < (transfers s.usb.log).length then some { s with reads := s.reads + 1 } else none

/-- The event of the firmware, if it has a part in the step. -/
def UsbLink.deviceEvent (s : UsbLink) : UsbLinkEvent → Option DeviceEvent
  | .firmware e _ => some e
  | .outComplete status calls _ =>
    s.written[s.completed]?.map fun packet => .outComplete status packet.length packet calls
  | .start _ _ _ | .read | .startup _ | .write _ | .drop => none

/-- Every `usb_ep_dequeue` of the step succeeds. -/
def Dequeues (s : UsbLink) (e : UsbLinkEvent) : Prop :=
  ∀ d ∈ s.deviceEvent e, d.Dequeues s.usb.device

/-- The step does not end a session while the controller has the IN request. -/
def Released (s : UsbLink) (e : UsbLinkEvent) : Prop :=
  ∀ d ∈ s.deviceEvent e, d.Released s.usb.device

instance (s : UsbLink) (e : UsbLinkEvent) : Decidable (Dequeues s e) :=
  inferInstanceAs (Decidable (∀ d ∈ s.deviceEvent e, _))

instance (s : UsbLink) (e : UsbLinkEvent) : Decidable (Released s e) :=
  inferInstanceAs (Decidable (∀ d ∈ s.deviceEvent e, _))

/-! ## What the attempt has read -/

/-- IN transfer `m` is a PONG with the number of the attempt; if it answers an OUT packet that was
not written before the attempt's PING, it answers the PING. -/
def GotPong (s : UsbLink) (m : Nat) : Prop :=
  ∃ t, (transfers s.usb.log)[m]? = some t ∧ isPong s.client.seqNo t.bytes = true ∧
    ∀ i q, t.data = .pong i q → s.pingAt ≤ i →
      s.written[i]? = some (pingPacket s.client.seqNo)

/-- The last transfer that was read, behind a PONG, is the one that the attempt has returned. -/
structure GotInit (s : UsbLink) (t : Transfer) : Prop where
  pong : ∃ m < s.readAt, GotPong s m
  read : (transfers s.usb.log)[s.readAt]? = some t
  size : initSize ≤ t.bytes.length
  init : (gatewayProtoReadInit t.bytes).isSome
  initBuf : s.client.startup.initBuf = t.bytes.take initSize
  leftover : s.client.startup.leftover = t.bytes.drop initSize

/-- What an attempt knows at each point of `prepare_usb_stream_startup`. -/
def AttemptOk (s : UsbLink) : Prop :=
  match s.client.pc with
  | .flush _ | .sendConfig | .sendPing => s.client.startup.haveInit = false
  | .read gotPong =>
    s.client.startup.haveInit = false ∧
      (∀ i b, s.pingAt ≤ i → s.written[i]? = some b → b = pingPacket s.client.seqNo) ∧
      (gotPong = true → ∃ m < s.reads, GotPong s m)
  | .returned _ => s.client.startup.haveInit = true → ∃ t, GotInit s t

structure UsbLinkInv (s : UsbLink) : Prop where
  usb : LogInv s.usb
  outs : ∀ k i p, .out k i p ∈ s.usb.log →
    ∃ b, s.written[i]? = some b ∧ p = outPacket b.length b
  client : AttemptOk s

/-! ## The invariant -/

theorem getElem?_mono {α : Type} {l l' : List α} {i : Nat} {a : α} (h : l <+: l')
    (ha : l[i]? = some a) : l'[i]? = some a := by
  obtain ⟨r, rfl⟩ := h
  obtain ⟨hi, rfl⟩ := List.getElem?_eq_some_iff.1 ha
  rw [List.getElem?_append_left hi, List.getElem?_eq_getElem hi]

theorem take_mono {α : Type} {l l' : List α} {n : Nat} (h : l <+: l') (hn : n ≤ l.length) :
    l'.take n = l.take n := by
  obtain ⟨r, rfl⟩ := h
  exact List.take_append_of_le_length hn

theorem transfers_mono {log log' : List LogEntry} (h : log <+: log') :
    transfers log <+: transfers log' := h.filterMap _

section
variable {ks : KeyStream} {s s' : UsbLink}

/-- Steps of which the attempt takes no part: more is logged, written and read. -/
structure Later (s s' : UsbLink) : Prop where
  log : s.usb.log <+: s'.usb.log
  written : s.written <+: s'.written
  reads : s.reads ≤ s'.reads
  client : s'.client = s.client
  pingAt : s'.pingAt = s.pingAt
  readAt : s'.readAt = s.readAt

theorem GotPong.mono {m : Nat} (h : GotPong s m) (hlog : s.usb.log <+: s'.usb.log)
    (hwritten : s.written <+: s'.written) (hseq : s'.client.seqNo = s.client.seqNo)
    (hping : s'.pingAt = s.pingAt) : GotPong s' m := by
  obtain ⟨t, ht, hpong, hans⟩ := h
  rw [GotPong, hseq, hping]
  exact ⟨t, getElem?_mono (transfers_mono hlog) ht, hpong, fun i q hd hi =>
    getElem?_mono hwritten (hans i q hd hi)⟩

theorem AttemptOk.later (h : AttemptOk s) (hl : Later s s')
    (hw : ∀ gotPong, s.client.pc = .read gotPong → s'.written = s.written) : AttemptOk s' := by
  have hpong {m : Nat} (h : GotPong s m) : GotPong s' m :=
    h.mono hl.log hl.written (by rw [hl.client]) hl.pingAt
  unfold AttemptOk at h ⊢
  rw [hl.client]
  cases hpc : s.client.pc with
  | flush | sendConfig | sendPing =>
    rw [hpc] at h
    exact h
  | read gotPong =>
    rw [hpc] at h
    obtain ⟨hnone, hown, hgot⟩ := h
    refine ⟨hnone, ?_, ?_⟩
    · intro i b hi hb
      rw [hw gotPong hpc] at hb
      exact hown i b (hl.pingAt ▸ hi) hb
    · intro hyes
      obtain ⟨m, hm, hread⟩ := hgot hyes
      exact ⟨m, hm.trans_le hl.reads, hpong hread⟩
  | returned rc =>
    rw [hpc] at h
    intro hyes
    obtain ⟨t, ⟨m, hm, hgot⟩, hread, hsize, hinit, hbuf, hleft⟩ := h hyes
    refine ⟨t, ⟨m, hl.readAt ▸ hm, hpong hgot⟩, ?_, hsize, hinit, ?_, ?_⟩
    · rw [hl.readAt]
      exact getElem?_mono (transfers_mono hl.log) hread
    · rw [hl.client, hbuf]
    · rw [hl.client, hleft]

/-- The firmware takes a step, in which it may answer OUT packet `packet` if that is the next. -/
theorem usbLinkInv_device (h : UsbLinkInv s) {e : DeviceEvent} {moved : Nat} {usb : LoggedDevice}
    (hc : e.Retires s.usb.device) (hsize : e.Sized)
    (hs : logStep ks s.usb s.completed e moved = some usb)
    (hpacket : ∀ p, e.packet = some p →
      ∃ b, s.written[s.completed]? = some b ∧ p = outPacket b.length b) (n : Nat) :
    UsbLinkInv { s with usb := usb, completed := n } := by
  obtain ⟨es, hlog, hout⟩ := LoggedDevice.logStep_log hs
  refine ⟨logInv_step h.usb hc hsize hs, ?_, ?_⟩
  · intro k i p hmem
    rcases List.mem_append.1 (hlog ▸ hmem) with hmem | hmem
    · exact h.outs k i p hmem
    · obtain ⟨rfl, hp⟩ := hout k i p hmem
      exact hpacket p hp
  · exact h.client.later ⟨⟨es, hlog.symm⟩, List.prefix_rfl, le_rfl, rfl, rfl, rfl⟩ fun _ _ => rfl

/-- An attempt that has not returned has no INIT record. -/
theorem AttemptOk.haveInit (h : AttemptOk s) (hpc : ∀ rc, s.client.pc ≠ .returned rc) :
    s.client.startup.haveInit = false := by
  unfold AttemptOk at h
  cases hs : s.client.pc with
  | flush | sendConfig | sendPing =>
    rw [hs] at h
    exact h
  | read gotPong =>
    rw [hs] at h
    exact h.1
  | returned rc => exact absurd hs (hpc rc)

theorem attemptOk_of_none (hnone : s.client.startup.haveInit = false)
    (hpc : s.client.pc.early = true ∨ ∃ rc, s.client.pc = .returned rc) : AttemptOk s := by
  unfold AttemptOk
  cases hs : s.client.pc with
  | flush | sendConfig | sendPing => exact hnone
  | read gotPong =>
    rw [hs] at hpc
    rcases hpc with hpc | ⟨rc, hpc⟩ <;> cases hpc
  | returned rc => exact fun hyes => absurd hyes (by simp [hnone])

theorem not_returned {e : StartupEvent} {r : Startup × List Bytes}
    (hs : startupStep s.client e = some r) (rc : Int) : s.client.pc ≠ .returned rc := by
  intro hpc
  cases e <;> simp [startupStep, hpc] at hs

/-- A read of the attempt. -/
theorem attemptOk_read (h : UsbLinkInv s) {t : Transfer}
    (ht : (transfers s.usb.log)[s.reads]? = some t) {client : Startup} {sent : List Bytes}
    (hs : startupStep s.client (.read (.success t.bytes)) = some (client, sent)) :
    AttemptOk { s with client := client, reads := s.reads + 1, readAt := s.reads } := by
  have hnone := h.client.haveInit (not_returned hs)
  rcases startupStep_cases hs with
    rfl | ⟨-, pc, hearly, rfl⟩ | ⟨-, _, _, _, he, -⟩ | ⟨-, gotPong, r, he, hpc, rfl⟩
  · exact attemptOk_of_none hnone (.inr ⟨_, rfl⟩)
  · exact attemptOk_of_none hnone (.inl hearly)
  · cases he
  cases he
  have hread := h.client
  rw [AttemptOk, hpc] at hread
  obtain ⟨-, hown, hgot⟩ := hread
  rcases loopRead_cases s.client gotPong (.success t.bytes) with
    heq | heq | ⟨buf, hbuf, hpong, heq⟩ | ⟨buf, hbuf, hyes, hsize, hinit, heq⟩ <;> rw [heq]
  · have hsame : AttemptOk { s with reads := s.reads + 1, readAt := s.reads } := by
      rw [AttemptOk, hpc]
      refine ⟨hnone, hown, ?_⟩
      intro hyes
      obtain ⟨m, hm, hmem⟩ := hgot hyes
      exact ⟨m, Nat.lt_succ_of_lt hm, hmem⟩
    exact hsame
  · exact attemptOk_of_none hnone (.inr ⟨_, rfl⟩)
  · cases hbuf
    refine ⟨hnone, hown, fun _ => ⟨s.reads, Nat.lt_succ_self _, t, ht, hpong, ?_⟩⟩
    intro i q hd hi
    obtain ⟨-, pre, p, post, hlog, -⟩ := h.usb.log.pongs t (List.mem_of_getElem? ht) i q hd
    obtain ⟨b, hb, -⟩ := h.outs t.session i p (by simp [hlog])
    exact hown i b hi hb ▸ hb
  · cases hbuf
    obtain ⟨m, hm, hmem⟩ := hgot hyes
    exact fun _ => ⟨t, ⟨m, hm, hmem⟩, ht, hsize, hinit, rfl, rfl⟩

/-- A step of the attempt that reads no data; the PING that it sends is the attempt's. -/
theorem attemptOk_startup (h : UsbLinkInv s) {e : StartupEvent} (he : e.isData = false)
    {client : Startup} {sent : List Bytes} (hs : startupStep s.client e = some (client, sent)) :
    AttemptOk { s with
      client := client
      written := s.written ++ sent
      pingAt := if s.client.pc = .sendPing then s.written.length else s.pingAt } := by
  have hnone := h.client.haveInit (not_returned hs)
  rcases startupStep_cases hs with
    rfl | ⟨-, pc, hearly, rfl⟩ | ⟨hpc, _, copies, _, -, rfl, rfl⟩ | ⟨rfl, gotPong, r, rfl, hpc, rfl⟩
  · exact attemptOk_of_none hnone (.inr ⟨_, rfl⟩)
  · exact attemptOk_of_none hnone (.inl hearly)
  · refine ⟨hnone, ?_, fun hyes => by cases hyes⟩
    intro i b hi hb
    have hi : s.written.length ≤ i := by
      rw [if_pos hpc] at hi
      exact hi
    have hb : (s.written ++ List.replicate copies (pingPacket s.client.seqNo))[i]? = some b := hb
    rw [List.getElem?_append_right hi] at hb
    exact List.eq_of_mem_replicate (List.mem_of_getElem? hb)
  · have hnot : s.client.pc ≠ .sendPing := by simp [hpc]
    rcases loopRead_cases s.client gotPong r with
      heq | heq | ⟨buf, rfl, -⟩ | ⟨buf, rfl, -⟩
    · rw [heq, if_neg hnot, List.append_nil]
      exact h.client
    · rw [heq]
      exact attemptOk_of_none hnone (.inr ⟨_, rfl⟩)
    · cases he
    · cases he

theorem UsbLinkInv.outs_written (h : UsbLinkInv s) (sent : List Bytes) :
    ∀ k i p, .out k i p ∈ s.usb.log →
      ∃ b, (s.written ++ sent)[i]? = some b ∧ p = outPacket b.length b := fun k i p hmem => by
  obtain ⟨b, hb, hp⟩ := h.outs k i p hmem
  exact ⟨b, getElem?_mono (List.prefix_append _ _) hb, hp⟩

/-- **Every step keeps the invariant** that does not end a session while the controller has the
IN request. -/
theorem usbLinkInv_step {e : UsbLinkEvent} (h : UsbLinkInv s)
    (hc : Dequeues s e ∧ Released s e) (hs : usbLinkStep ks s e = some s') : UsbLinkInv s' := by
  have hretires (d : DeviceEvent) (hd : s.deviceEvent e = some d) : d.Retires s.usb.device :=
    retires_iff.2 ⟨hc.1 d hd, hc.2 d hd⟩
  cases e with
  | firmware e moved =>
    simp only [usbLinkStep, Option.ite_none_left_eq_some, Option.map_eq_some_iff] at hs
    obtain ⟨hok, usb, hstep, rfl⟩ := hs
    obtain ⟨hno, hsize⟩ := not_or.1 hok
    refine usbLinkInv_device h (hretires e rfl) (not_not.1 hsize) hstep ?_ s.completed
    intro p hp
    rw [hp] at hno
    exact absurd rfl hno
  | outComplete status calls moved =>
    simp only [usbLinkStep] at hs
    split at hs
    · cases hs
    rename_i packet hpacket
    obtain ⟨usb, hstep, rfl⟩ := Option.map_eq_some_iff.1 hs
    refine usbLinkInv_device h (hretires _ (by simp [UsbLink.deviceEvent, hpacket]))
      (by exact trivial) hstep
      (fun p hp => ?_) (s.completed + 1)
    cases hp
    exact ⟨packet, hpacket, rfl⟩
  | start usb seqNo options =>
    simp only [usbLinkStep] at hs
    split at hs
    · cases hs
      refine ⟨h.usb, h.outs, attemptOk_of_none rfl ?_⟩
      cases usb with
      | true => exact .inl rfl
      | false => exact .inr ⟨_, rfl⟩
    all_goals cases hs
  | read =>
    simp only [usbLinkStep] at hs
    split at hs
    · cases hs
    rename_i t ht
    obtain ⟨⟨client, sent⟩, hstep, rfl⟩ := Option.map_eq_some_iff.1 hs
    exact ⟨h.usb, h.outs, attemptOk_read h ht hstep⟩
  | startup e =>
    simp only [usbLinkStep, Option.ite_none_left_eq_some, Option.map_eq_some_iff] at hs
    obtain ⟨he, ⟨client, sent⟩, hstep, rfl⟩ := hs
    exact ⟨h.usb, h.outs_written sent, attemptOk_startup h (Bool.eq_false_iff.2 he) hstep⟩
  | write packet =>
    simp only [usbLinkStep] at hs
    split at hs
    · rename_i rc hpc
      cases hs
      refine ⟨h.usb, h.outs_written [packet], h.client.later
        ⟨List.prefix_rfl, List.prefix_append _ _, le_rfl, rfl, rfl, rfl⟩ ?_⟩
      intro gotPong hread
      rw [hpc] at hread
      cases hread
    all_goals cases hs
  | drop =>
    simp only [usbLinkStep, Option.ite_none_right_eq_some, Option.some.injEq] at hs
    obtain ⟨-, rfl⟩ := hs
    exact ⟨h.usb, h.outs, h.client.later
      ⟨List.prefix_rfl, List.prefix_rfl, Nat.le_succ _, rfl, rfl, rfl⟩ fun _ _ => rfl⟩

/-- More is logged in every run. -/
theorem run_log {es : List UsbLinkEvent} (h : Run.run (usbLinkStep ks) s es = some s') :
    s.usb.log <+: s'.usb.log := by
  refine Run.rel (R := fun s s' : UsbLink => s.usb.log <+: s'.usb.log) (fun _ => List.prefix_rfl)
    (fun h h' => h.trans h') (fun {s e s'} hs => ?_) h
  have hstep {i : Nat} {e : DeviceEvent} {moved : Nat} {usb : LoggedDevice}
      (hs : logStep ks s.usb i e moved = some usb) : s.usb.log <+: usb.log := by
    obtain ⟨es, hlog, -⟩ := LoggedDevice.logStep_log hs
    exact ⟨es, hlog.symm⟩
  cases e with
  | firmware e moved =>
    simp only [usbLinkStep, Option.ite_none_left_eq_some, Option.map_eq_some_iff] at hs
    obtain ⟨-, usb, hs, rfl⟩ := hs
    exact hstep hs
  | outComplete status calls moved =>
    simp only [usbLinkStep] at hs
    split at hs
    · cases hs
    obtain ⟨usb, hlog, rfl⟩ := Option.map_eq_some_iff.1 hs
    exact hstep hlog
  | start usb seqNo options | write packet =>
    simp only [usbLinkStep] at hs
    split at hs <;> cases hs
    exact List.prefix_rfl
  | read =>
    simp only [usbLinkStep] at hs
    split at hs
    · cases hs
    obtain ⟨r, -, rfl⟩ := Option.map_eq_some_iff.1 hs
    exact List.prefix_rfl
  | startup e =>
    simp only [usbLinkStep, Option.ite_none_left_eq_some, Option.map_eq_some_iff] at hs
    obtain ⟨-, r, -, rfl⟩ := hs
    exact List.prefix_rfl
  | drop =>
    simp only [usbLinkStep, Option.ite_none_right_eq_some, Option.some.injEq] at hs
    obtain ⟨-, rfl⟩ := hs
    exact List.prefix_rfl

end

/-! ## Agreement -/

/-- In `s` an attempt has returned with an INIT record. It is the one of session `j`, which was
enqueued behind the attempt's PING; and in the later state `s'` the client's stream, from what is
left over on, is that of the session's packets from the first one on. -/
structure AgreesOn (s s' : UsbLink) (j : Nat) : Prop where
  behindPing : ∃ k i pre post, s.usb.log = pre ++ .out k i (.ping s.client.seqNo) :: post ∧
    s.pingAt ≤ i ∧ .init j ∈ post ∧ .init j ∉ pre
  accepted : ∃ t, (transfers s.usb.log)[s.readAt]? = some t ∧ t.session = j ∧ t.data = .chunk
  initBuf : s.client.startup.initBuf = initRecord
  later : ∀ t ∈ (transfers s'.usb.log).drop (s.readAt + 1), j ≤ t.session
  /-- What has not reached the host is the ring's contents while the session lasts. -/
  stream : ∃ rest, s.client.startup.leftover ++
      chunkData j ((transfers s'.usb.log).drop (s.readAt + 1)) ++ rest =
    (acceptedPackets j s'.usb.log).flatten ∧
    (s'.usb.session = j → rest = s'.usb.device.usb.tx.contents)

/-- No chunk has the bytes of a PONG with the attempt's number. -/
def NoPongChunk (s : UsbLink) : Prop :=
  ∀ t ∈ transfers s.usb.log, t.data = .chunk → isPong s.client.seqNo t.bytes = false

/-- A chunk with the magic of an INIT record is the first of its session. -/
def InitFirst (log : List LogEntry) : Prop :=
  ∀ m < (transfers log).length, ∀ t ∈ (transfers log)[m]?, t.data = .chunk →
    ofBe32 t.bytes = initMagic → chunkData t.session ((transfers log).take m) = []

/-- No OUT packet that was written before the PING is answered with the attempt's number. -/
def OtherNumbers (s : UsbLink) : Prop :=
  ∀ b ∈ s.written.take s.pingAt, (outPacket b.length b).seqNo ≠ some s.client.seqNo

instance (s : UsbLink) : Decidable (NoPongChunk s) :=
  inferInstanceAs (Decidable (∀ t ∈ transfers s.usb.log, _))

instance (log : List LogEntry) : Decidable (InitFirst log) :=
  inferInstanceAs (Decidable (∀ m < (transfers log).length, _))

instance (s : UsbLink) : Decidable (OtherNumbers s) :=
  inferInstanceAs (Decidable (∀ b ∈ s.written.take s.pingAt, _))

section
variable {ks : KeyStream} {s s' : UsbLink} {q : UInt32} {b : Bytes} {log : List LogEntry} {n : Nat}

theorem outPacket_pingPacket (q : UInt32) :
    outPacket (pingPacket q).length (pingPacket q) = .ping q := by
  have hlen : (pingPacket q).length = 64 := rfl
  have htake : (pingPacket q).take 4 = ascii "PING" := rfl
  have hseq : ofLe32 ((pingPacket q).drop 4) = q := ofLe32_le32 q _
  rw [outPacket, hlen, htake, if_neg (by decide), if_neg (by decide), if_pos rfl, hseq]

theorem isPong_pong (h : isPong q b = true) {q' : UInt32} (hpre : b <+: pongPacket q') :
    q' = q := by
  simp only [isPong, decide_eq_true_eq] at h
  obtain ⟨hlen, -, hseq⟩ := h
  have heq : b = pongPacket q' := hpre.eq_of_length (le_antisymm hpre.length_le hlen)
  rw [← hseq, heq]
  exact (ofLe32_le32 q' _).symm

theorem ofBe32_pong (hpre : b <+: pongPacket q) (hsize : initSize ≤ b.length) :
    ofBe32 b ≠ initMagic := by
  have htake : b.take 4 = [0x50, 0x4f, 0x4e, 0x47] :=
    (take_mono hpre (le_trans (by decide) hsize)).symm
  rw [← List.take_append_drop 4 b, htake]
  exact (by decide : ofBe32 [0x50, 0x4f, 0x4e, 0x47] ≠ initMagic)

/-- The chunk with the INIT record is the start of its session's stream. -/
theorem init_accepted (h : LogOk log n) {m : Nat} {t : Transfer}
    (ht : (transfers log)[m]? = some t) (hd : t.data = .chunk) (hsize : initSize ≤ t.bytes.length)
    (hfirst : chunkData t.session ((transfers log).take m) = []) :
    .init t.session ∈ log ∧ t.bytes = initRecord ++ t.bytes.drop initSize ∧
      t.bytes ++ chunkData t.session ((transfers log).drop (m + 1)) =
        chunkData t.session (transfers log) := by
  obtain ⟨hm, hget⟩ := List.getElem?_eq_some_iff.1 ht
  have hone : chunkData t.session [t] = t.bytes := by simp [chunkData, hd]
  have hdata : t.bytes ++ chunkData t.session ((transfers log).drop (m + 1)) =
      chunkData t.session (transfers log) := by
    conv_rhs => rw [← List.take_append_drop m (transfers log), List.drop_eq_getElem_cons hm, hget]
    rw [chunkData_append, hfirst, List.nil_append, ← List.singleton_append, chunkData_append, hone]
  have hpre : t.bytes <+: sessionStream t.session log :=
    (List.prefix_append _ _).trans (hdata ▸ h.starts t.session)
  have hin : .init t.session ∈ log := by
    by_contra hno
    rw [sessionStream, if_neg hno, h.init _ hno] at hpre
    have hnil : t.bytes = [] := List.prefix_nil.1 hpre
    rw [hnil] at hsize
    exact absurd hsize (by decide)
  refine ⟨hin, ?_, hdata⟩
  rw [sessionStream, if_pos hin] at hpre
  have htake : t.bytes.take initSize = initRecord := by
    rw [← take_mono hpre hsize]
    exact List.take_left' length_initRecord
  conv_lhs => rw [← List.take_append_drop initSize t.bytes, htake]

/-- What the host gets of a session behind its INIT record are the session's packets; the rest is
in the ring while the session lasts. -/
theorem stream_from_init {w : LoggedDevice} (h : LogInv w) {m : Nat} {t : Transfer}
    (ht : (transfers w.log)[m]? = some t) (hd : t.data = .chunk) (hsize : initSize ≤ t.bytes.length)
    (hfirst : chunkData t.session ((transfers w.log).take m) = []) :
    ∃ rest, t.bytes.drop initSize ++ chunkData t.session ((transfers w.log).drop (m + 1)) ++ rest =
        (acceptedPackets t.session w.log).flatten ∧
      (w.session = t.session → rest = w.device.usb.tx.contents) := by
  obtain ⟨hin, hbytes, hdata⟩ := init_accepted h.log ht hd hsize hfirst
  have hcancel {rest : Bytes}
      (hrest : chunkData t.session (transfers w.log) ++ rest = sessionStream t.session w.log) :
      t.bytes.drop initSize ++ chunkData t.session ((transfers w.log).drop (m + 1)) ++ rest =
        (acceptedPackets t.session w.log).flatten := by
    rw [← hdata, sessionStream, if_pos hin, hbytes, List.append_assoc, List.append_assoc] at hrest
    rw [List.append_assoc]
    exact List.append_cancel_left hrest
  by_cases hk : w.session = t.session
  · exact ⟨_, hcancel (hk ▸ h.data), fun _ => rfl⟩
  · obtain ⟨rest, hrest⟩ := h.log.starts t.session
    exact ⟨rest, hcancel hrest, fun heq => absurd heq hk⟩

theorem later_sessions (h : LogOk log n) {m : Nat} {t : Transfer}
    (ht : (transfers log)[m]? = some t) :
    ∀ t' ∈ (transfers log).drop (m + 1), t.session ≤ t'.session := by
  have hsorted := h.sorted
  rw [← List.take_append_drop (m + 1) (transfers log)] at hsorted
  refine (List.pairwise_append.1 hsorted).2.2 t (List.mem_of_getElem? (i := m) ?_)
  rw [List.getElem?_take_of_lt (Nat.lt_succ_self m)]
  exact ht

/-- The PONG that the attempt has read answers its PING. -/
theorem pong_answers (h : UsbLinkInv s) (hpong : NoPongChunk s) (hother : OtherNumbers s)
    {m : Nat} (hgot : GotPong s m) :
    ∃ k i pre post t, (transfers s.usb.log)[m]? = some t ∧
      s.usb.log = pre ++ .out k i (.ping s.client.seqNo) :: post ∧ s.pingAt ≤ i ∧
      ∀ j, .init j ∈ pre → j < t.session := by
  obtain ⟨t, ht, hbytes, hown⟩ := hgot
  have hmem : t ∈ transfers s.usb.log := List.mem_of_getElem? ht
  cases hd : t.data with
  | chunk =>
    rw [hpong t hmem hd] at hbytes
    cases hbytes
  | pong i q =>
    obtain ⟨hpre, pre, p, post, hlog, hseq, hping⟩ := h.usb.log.pongs t hmem i q hd
    obtain rfl := isPong_pong hbytes hpre
    obtain ⟨b, hb, rfl⟩ := h.outs t.session i p (by simp [hlog])
    have hi : s.pingAt ≤ i := by
      by_contra hlt
      refine hother b (List.mem_of_getElem? (i := i) ?_) hseq
      rw [List.getElem?_take_of_lt (not_le.1 hlt)]
      exact hb
    have hb' := hown i _ hd hi
    rw [hb, Option.some.injEq] at hb'
    subst hb'
    rw [outPacket_pingPacket] at hlog hping
    exact ⟨_, i, pre, post, t, ht, hlog, hi, hping rfl⟩

end

/-- The USB function before its first `set_alt`, and a client that has not called
`prepare_usb_stream_startup`. -/
def bootLink : UsbLink where
  usb := { device := bootDevice }
  client := ⟨true, 0, {}, {}, .returned 0⟩

theorem usbLinkInv_boot : UsbLinkInv bootLink where
  usb := logInv_idle ⟨⟨fresh_bootUsb.tx, fresh_bootUsb.contents, rfl, rfl, rfl⟩, rfl, rfl⟩
  outs := fun _ _ _ hmem => by cases hmem
  client := fun hyes => by cases hyes

section
variable {ks : KeyStream} {s s' : UsbLink} {es es' : List UsbLinkEvent}

theorem usbLinkInv_run (h : UsbLinkInv s) (hrun : Run.run (usbLinkStep ks) s es = some s')
    (hdequeues : Run.Meets (usbLinkStep ks) Dequeues s es)
    (hreleased : Run.Meets (usbLinkStep ks) Released s es) : UsbLinkInv s' :=
  Run.inv_where usbLinkInv_step hrun (hdequeues.and hreleased) h

/-- **An attempt and the firmware agree on the stream**, in every run in which every
`usb_ep_dequeue` succeeds and no session ends while the controller has the IN request. -/
theorem run_startup_agrees (hrun : Run.run (usbLinkStep ks) bootLink es = some s)
    (hlater : Run.run (usbLinkStep ks) s es' = some s')
    (hdequeues : Run.Meets (usbLinkStep ks) Dequeues bootLink (es ++ es'))
    (hreleased : Run.Meets (usbLinkStep ks) Released bootLink (es ++ es'))
    (hother : OtherNumbers s) (hpong : NoPongChunk s) (hfirst : InitFirst s.usb.log)
    (hreturn : s.client.pc = .returned 0) (hinit : s.client.startup.haveInit = true) :
    ∃ j, AgreesOn s s' j := by
  obtain ⟨hdeq, hdeq'⟩ := Run.meets_append.1 hdequeues
  obtain ⟨hrel, hrel'⟩ := Run.meets_append.1 hreleased
  have h := usbLinkInv_run usbLinkInv_boot hrun hdeq hrel
  have h' := usbLinkInv_run h hlater (hdeq' s hrun) (hrel' s hrun)
  have hlog := run_log hlater
  have hclient := h.client
  rw [AttemptOk, hreturn] at hclient
  obtain ⟨t, ⟨m, hm, hgot⟩, hread, hsize, hrecord, hbuf, hleft⟩ := hclient hinit
  obtain ⟨k, i, pre, post, tp, htp, hout, hi, hping⟩ := pong_answers h hpong hother hgot
  have hmem : t ∈ transfers s.usb.log := List.mem_of_getElem? hread
  have hmagic : ofBe32 t.bytes = initMagic := by
    unfold gatewayProtoReadInit at hrecord
    split at hrecord
    · assumption
    · cases hrecord
  have hd : t.data = .chunk := by
    cases hd : t.data with
    | chunk => rfl
    | pong i q => exact absurd hmagic (ofBe32_pong (h.usb.log.pongs t hmem i q hd).1 hsize)
  -- the PONG was read first, so the INIT record is not of an earlier session
  have hsession : tp.session ≤ t.session := by
    obtain ⟨hmlt, rfl⟩ := List.getElem?_eq_some_iff.1 htp
    obtain ⟨hrlt, rfl⟩ := List.getElem?_eq_some_iff.1 hread
    exact List.pairwise_iff_getElem.1 h.usb.log.sorted _ _ hmlt hrlt hm
  have hfirst' := hfirst _ (List.getElem?_eq_some_iff.1 hread).1 t hread hd hmagic
  obtain ⟨hin, hbytes, -⟩ := init_accepted h.usb.log hread hd hsize hfirst'
  have hnot : .init t.session ∉ pre := fun hin => absurd (hping _ hin) (not_lt.2 hsession)
  have hread' := getElem?_mono (transfers_mono hlog) hread
  refine ⟨t.session, ⟨k, i, pre, post, hout, hi, ?_, hnot⟩, ⟨t, hread, rfl, hd⟩, ?_, ?_, ?_⟩
  · rw [hout] at hin
    rcases List.mem_append.1 hin with hin | hin
    · exact absurd hin hnot
    · exact (List.mem_cons.1 hin).resolve_left (fun heq => by cases heq)
  · rw [hbuf, hbytes]
    exact List.take_left' length_initRecord
  · exact later_sessions h'.usb.log hread'
  · have hfirst'' : chunkData t.session ((transfers s'.usb.log).take s.readAt) = [] := by
      rw [take_mono (transfers_mono hlog) (List.getElem?_eq_some_iff.1 hread).1.le, hfirst']
    rw [hleft]
    exact stream_from_init h'.usb hread' hd hsize hfirst''

end

/-- The device is configured, and an attempt sends its configuration and its PING, and reads the
PONG and the INIT record. -/
def startupRun : List UsbLinkEvent :=
  [.firmware (.setAlt ⟨0, 0, true, true⟩) 0, .start true 7 { host := ascii "10.0.0.2" },
    .startup (.read .timeout), .startup (.write none 1 true), .outComplete 0 ⟨0, 0, 0⟩ 0,
    .startup (.write none 1 true), .outComplete 0 ⟨0, 0, 0⟩ 0, .firmware (.inComplete 64 0) 0,
    .read, .firmware (.inComplete 16 0) 0, .read]

/-- A media packet. -/
def mediaRun : List UsbLinkEvent :=
  [.firmware (.media (1, 0, [1, 2, 3]) true 0) 0, .firmware (.inComplete 0 0) 0]

theorem run_startup_agrees_startupRun :
    ∃ s s' j, Run.run (usbLinkStep fun _ _ _ _ => 0) bootLink startupRun = some s ∧
      Run.run (usbLinkStep fun _ _ _ _ => 0) s mediaRun = some s' ∧ AgreesOn s s' j := by
  have h : (Run.run (usbLinkStep fun _ _ _ _ => 0) bootLink startupRun).any (fun s =>
      (Run.run (usbLinkStep fun _ _ _ _ => 0) s mediaRun).isSome && decide (OtherNumbers s ∧
        NoPongChunk s ∧ InitFirst s.usb.log ∧ s.client.pc = .returned 0 ∧
        s.client.startup.haveInit = true)) = true := by
    decide +kernel
  obtain ⟨s, hs, hfacts⟩ := (Option.any_eq_true _ _).1 h
  obtain ⟨hlater, hfacts⟩ := Bool.and_eq_true_iff.1 hfacts
  obtain ⟨hother, hpong, hfirst, hreturn, hinit⟩ := of_decide_eq_true hfacts
  obtain ⟨s', hs'⟩ := Option.isSome_iff_exists.1 hlater
  obtain ⟨j, hj⟩ := run_startup_agrees hs hs' (by decide +kernel) (by decide +kernel) hother hpong
    hfirst hreturn hinit
  exact ⟨s, s', j, hs, hs', hj⟩

/-- The PING reaches the endpoint twice, the call of `libusb_bulk_transfer` that timed out had
handed it over. The device is suspended while the controller has the chunk with the INIT record,
and configured again; then the second PING completes. `usb_ep_queue` refuses the request that the
controller still has, which is then sent with the new contents of its buffer. -/
def suspendedRun : List UsbLinkEvent :=
  [.firmware (.setAlt ⟨0, 0, true, true⟩) 0, .start true 7 { host := ascii "10.0.0.2" },
    .startup (.read .timeout), .startup (.write none 1 true), .outComplete 0 ⟨0, 0, 0⟩ 0,
    .startup (.write none 2 true), .outComplete 0 ⟨0, 0, 0⟩ 0, .firmware (.inComplete 64 0) 0,
    .read, .firmware .suspend 0, .firmware .resume 0,
    .firmware (.forceConfigure true ⟨0, 0, true, true⟩) 0, .outComplete 0 ⟨0, -16, -16⟩ 0,
    .firmware (.media (1, 0, [1, 2, 3]) true (-16)) 0, .firmware (.inComplete 0 0) 0, .read,
    .firmware (.inComplete 0 0) 0]

theorem suspend_disagrees :
    ∃ s, Run.run (usbLinkStep fun _ _ _ _ => 0) bootLink suspendedRun = some s ∧
      Run.Meets (usbLinkStep fun _ _ _ _ => 0) Dequeues bootLink suspendedRun ∧
      OtherNumbers s ∧ NoPongChunk s ∧ InitFirst s.usb.log ∧ s.client.pc = .returned 0 ∧
      s.client.startup.haveInit = true ∧ ¬ ∃ j, AgreesOn s s j := by
  have h : (Run.run (usbLinkStep fun _ _ _ _ => 0) bootLink suspendedRun).any (fun s =>
      decide ((OtherNumbers s ∧ NoPongChunk s ∧ InitFirst s.usb.log ∧ s.client.pc = .returned 0 ∧
        s.client.startup.haveInit = true) ∧ (∀ e ∈ s.usb.log, e.session < s.usb.session + 1) ∧
        ∀ j < s.usb.session + 1, ¬ s.client.startup.leftover ++
          chunkData j ((transfers s.usb.log).drop (s.readAt + 1)) <+:
            (acceptedPackets j s.usb.log).flatten)) = true := by
    decide +kernel
  obtain ⟨s, hs, hfacts⟩ := (Option.any_eq_true _ _).1 h
  obtain ⟨⟨hother, hpong, hfirst, hreturn, hinit⟩, hsessions, hno⟩ := of_decide_eq_true hfacts
  refine ⟨s, hs, by decide +kernel, hother, hpong, hfirst, hreturn, hinit, ?_⟩
  rintro ⟨j, hj⟩
  obtain ⟨k, i, pre, post, hlog, -, hin, -⟩ := hj.behindPing
  obtain ⟨rest, hrest, -⟩ := hj.stream
  exact hno j (hsessions (.init j) (by simp [hlog, hin])) ⟨rest, hrest⟩

end E2E
