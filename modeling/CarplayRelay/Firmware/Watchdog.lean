import CarplayRelay.Firmware.Task

/-!
# The stall watchdog of the firmware's task

Once an iteration the task samples `in_busy` and two counters that every completion of an IN
transfer changes, and resets the stream when the counters have been the same for
`usbStallTimeoutMs`. It takes the tick of its last sample for the time since which the transfer is
outstanding. A transfer that is queued later in the iteration, while the counters are still those
of the sample, is younger than that.

* `run_stall`: in every run in which no check that finds the timeout passed is about a transfer
  queued like this, or one that ended within the check (`Timely`), the watchdog fires only on a
  transfer that is outstanding for the timeout, also when the tick wraps.
* `young_transfer_reset`: in a run with a long iteration it fires on one queued a moment ago.
-/

namespace Firmware

open Bytes Crypto

/-! ## The transfers of the USB function -/

/-- The USB function goes from `d` to `d'`: the counters are the same while a transfer is
outstanding. -/
structure Follows (d d' : Device) : Prop where
  queued : d.queued ≤ d'.queued
  held : (d.usb.inBusy = true → d.outstanding = true) → d'.usb.inBusy = true →
    d'.outstanding = true
  same : d'.queued = d.queued → d'.usb.inBusy = true →
    d.usb.inBusy = true ∧ d'.progress = d.progress

section
variable {d d' m : Device}

theorem follows_refl (d : Device) : Follows d d := ⟨Nat.le_refl _, id, fun _ hb => ⟨hb, rfl⟩⟩

theorem Follows.trans (h : Follows d m) (h' : Follows m d') : Follows d d' where
  queued := h.queued.trans h'.queued
  held hd := h'.held (h.held hd)
  same hq hb := by
    have hm : m.queued = d.queued := Nat.le_antisymm (hq ▸ h'.queued) h.queued
    obtain ⟨hbm, hprogress'⟩ := h'.same (hq.trans hm.symm) hb
    obtain ⟨hbd, hprogress⟩ := h.same hm hbm
    exact ⟨hbd, hprogress'.trans hprogress⟩

theorem follows_idle (hq : d'.queued = d.queued) (hb : d'.usb.inBusy = false) : Follows d d' where
  queued := hq.ge
  held _ hb' := absurd (hb.symm.trans hb') Bool.false_ne_true
  same _ hb' := absurd (hb.symm.trans hb') Bool.false_ne_true

theorem follows_same {usb : Usb} (hb : usb.inBusy = d.usb.inBusy)
    (hp : (usb.tx.bytesSent, usb.inCompleteCount) = d.progress) :
    Follows d { d with usb := usb } where
  queued := Nat.le_refl _
  held hd hb' := hd (hb.symm.trans hb')
  same _ hb' := ⟨hb.symm.trans hb', hp⟩

theorem follows_queue {usb : Usb} {rc : Int} (hb : rc ≠ 0 → usb.inBusy = false) :
    Follows d (d.queue usb rc) := by
  by_cases hrc : rc = 0
  · have hq : (d.queue usb rc).queued = d.queued + 1 := by simp [Device.queue, hrc]
    refine ⟨by omega, fun _ _ => by simp [Device.queue, hrc], ?_⟩
    intro hsame
    omega
  · exact follows_idle (by simp [Device.queue, hrc]) (hb hrc)

theorem kickTx_failed {u : Usb} (hk : kicks u = true) {rc : Int} (hrc : rc ≠ 0) :
    (gatewayUsbKickTx u rc).2.inBusy = false := by
  unfold kicks at hk
  unfold gatewayUsbKickTx
  simp_all

theorem sendPong_failed {u : Usb} (hb : u.inBusy = false) (seqNo : UInt32) {rc : Int}
    (hrc : rc ≠ 0) : (gatewayUsbSendPong u seqNo rc).2.inBusy = false := by
  simp [gatewayUsbSendPong, hb, hrc]

theorem follows_kickTx (d : Device) (rc : Int) : Follows d (d.gatewayUsbKickTx rc) := by
  unfold Device.gatewayUsbKickTx
  split
  · rename_i hk
    exact follows_queue (kickTx_failed (Bool.and_eq_true_iff.1 hk).2)
  · exact follows_refl d

theorem follows_sendPong (d : Device) (seqNo : UInt32) (rc : Int) :
    Follows d (d.gatewayUsbSendPong seqNo rc) := by
  unfold Device.gatewayUsbSendPong
  split
  · exact follows_refl d
  · rename_i hidle
    exact follows_queue (sendPong_failed (by simpa using (not_or.1 hidle).2) seqNo)

theorem follows_reset (d : Device) (rc : Int) : Follows d (d.gatewayUsbResetStreamSession rc) := by
  unfold Device.gatewayUsbResetStreamSession
  split
  · exact follows_refl d
  · exact follows_idle rfl rfl

theorem inError_inBusy (u : Usb) : (gatewayUsbInError u).inBusy = false := by
  unfold gatewayUsbInError
  split <;> rfl

theorem follows_inError (d : Device) : Follows d d.gatewayUsbInError :=
  follows_idle rfl (inError_inBusy d.usb)

theorem follows_usbEpDisable (d : Device) : Follows d d.usbEpDisable := by
  unfold Device.usbEpDisable
  split
  · exact follows_inError d
  · exact follows_refl d

theorem follows_disable (d : Device) : Follows d d.gatewayUsbFunctionDisable := by
  have hidle : Follows d { d with
      usbConfigured := false
      usb := gatewayUsbTxReset { d.usb with configured := false, inBusy := false } } :=
    follows_idle rfl rfl
  exact hidle.trans (follows_usbEpDisable _)

theorem follows_setAlt (d : Device) (calls : Device.SetAltCalls) :
    Follows d (d.gatewayUsbFunctionSetAlt calls) := by
  have henable : ∀ d : Device, Follows d (d.setAltEnable calls) := by
    intro d
    have halloc : Follows d { d with
        inReq := d.inReq || calls.inAlloc, outReq := d.outReq || calls.outAlloc } :=
      ⟨Nat.le_refl _, id, fun _ hb => ⟨hb, rfl⟩⟩
    unfold Device.setAltEnable
    split
    · exact follows_refl d
    split
    · exact follows_usbEpDisable d
    dsimp only
    split
    · exact halloc.trans (follows_disable _)
    · exact follows_idle rfl rfl
  unfold Device.gatewayUsbFunctionSetAlt
  split
  · exact (follows_disable d).trans (henable _)
  · exact henable d

theorem enqueuePacket_bytesSent (tx : TxRing) (pre payload : Bytes) :
    (tx.gatewayUsbTxEnqueuePacket pre payload).2.bytesSent = tx.bytesSent := by
  unfold TxRing.gatewayUsbTxEnqueuePacket
  dsimp only
  split
  · rfl
  split <;> rfl

theorem follows_enqueueInit (d : Device) :
    Follows d { d with usb := (gatewayUsbEnqueueInitPacket d.usb).2 } := by
  apply follows_same (enqueueInit_inBusy d.usb)
  unfold gatewayUsbEnqueueInitPacket
  split
  · rfl
  · dsimp only
    split <;> exact Prod.ext (enqueuePacket_bytesSent ..) rfl

theorem follows_enqueueMedia (ks : KeyStream) (d : Device) (p : Plain) (encryptedOk : Bool) :
    Follows d { d with
      usb := (gatewayUsbEnqueueMediaPacket ks d.usb p.1 p.2.1 p.2.2 encryptedOk).2 } := by
  apply follows_same (enqueueMedia_inBusy ks d.usb p encryptedOk)
  unfold gatewayUsbEnqueueMediaPacket
  split
  · rfl
  · exact Prod.ext (enqueuePacket_bytesSent ..) rfl

theorem follows_enqueueInitAndKick (d : Device) (rc : Int) :
    Follows d (d.enqueueInitAndKick rc) := by
  unfold Device.enqueueInitAndKick
  dsimp only
  split
  · exact (follows_enqueueInit d).trans (follows_kickTx _ rc)
  · exact follows_enqueueInit d

theorem follows_relayPacket (ks : KeyStream) (d : Device) (p : Plain) (encryptedOk : Bool)
    (rc : Int) : Follows d (d.relayPacket ks p encryptedOk rc) := by
  have hmedia := (follows_enqueueInit d).trans (follows_enqueueMedia ks _ p encryptedOk)
  unfold Device.relayPacket
  split
  · exact follows_refl d
  dsimp only
  split
  · exact follows_enqueueInit d
  split
  · exact hmedia
  · exact hmedia.trans (follows_kickTx _ rc)

theorem follows_forceConfigure (d : Device) (speedOk : Bool) (calls : Device.SetAltCalls) :
    Follows d (d.gatewayUsbTryForceConfigure speedOk calls) := by
  unfold Device.gatewayUsbTryForceConfigure
  split
  · exact follows_refl d
  split
  · exact follows_refl d
  · exact follows_setAlt d calls

theorem follows_retryInit (d : Device) (rc : Int) :
    Follows d (d.gatewayUsbRetryInitIfNeeded rc) := by
  unfold Device.gatewayUsbRetryInitIfNeeded
  split
  · exact follows_refl d
  split
  · exact follows_refl d
  · exact follows_enqueueInitAndKick d rc

theorem follows_outComplete (d : Device) (status : Int) (actual : Nat) (raw : Bytes)
    (calls : OutCalls) : Follows d (d.gatewayUsbOutComplete status actual raw calls) := by
  have hready : Follows d { d with usbHostReady := true } :=
    ⟨Nat.le_refl _, id, fun _ hb => ⟨hb, rfl⟩⟩
  have hanswer : ∀ (d : Device) seqNo, Follows d (d.answer seqNo calls) := fun d seqNo =>
    (follows_sendPong d seqNo calls.pongRc).trans (follows_enqueueInitAndKick _ calls.kickRc)
  unfold Device.gatewayUsbOutComplete
  split
  · exact follows_refl d
  dsimp only
  split
  · exact hready
  · exact hready
  · exact hready.trans ((follows_reset _ calls.dequeueRc).trans (hanswer _ _))
  · exact hready.trans (hanswer _ _)

theorem consumeChunk_inBusy (u : Usb) (actual : Nat) :
    (Device.consumeChunk u actual).inBusy = false := by
  unfold Device.consumeChunk
  dsimp only
  split <;> rfl

/-- **A callback queues a transfer, or keeps the counters of the one outstanding.** -/
theorem follows_step {ks : KeyStream} {e : DeviceEvent} (hs : deviceStep ks d e = some d') :
    Follows d d' := by
  cases e with
  | outComplete status actual raw calls =>
    cases hs
    exact follows_outComplete d status actual raw calls
  | inComplete actual rc =>
    simp only [deviceStep, Option.ite_none_right_eq_some, Option.some.injEq] at hs
    obtain ⟨-, rfl⟩ := hs
    have hidle : Follows d { d with
        usb := Device.consumeChunk d.usb actual, outstanding := false } :=
      follows_idle rfl (consumeChunk_inBusy d.usb actual)
    exact hidle.trans (follows_kickTx _ rc)
  | inError =>
    simp only [deviceStep, Option.ite_none_right_eq_some, Option.some.injEq] at hs
    obtain ⟨-, rfl⟩ := hs
    exact follows_inError d
  | setAlt calls =>
    cases hs
    exact follows_setAlt d calls
  | disable =>
    cases hs
    exact follows_disable d
  | disconnect | suspend =>
    cases hs
    exact follows_idle rfl rfl
  | resume =>
    cases hs
    exact follows_refl d
  | forceConfigure speedOk calls =>
    cases hs
    exact follows_forceConfigure d speedOk calls
  | retryInit rc =>
    cases hs
    exact follows_retryInit d rc
  | watchdog rc =>
    cases hs
    exact follows_reset d rc
  | media p encryptedOk rc =>
    cases hs
    exact follows_relayPacket ks d p encryptedOk rc

end

/-! ## The checks -/

/-- The counters of `d` are those of the last sample. -/
def Task.Sampled (s : Task) (d : Device) : Prop :=
  d.progress = (s.lastSentObserved, s.lastInDoneObserved)

/-- The outstanding transfer was queued after the tick of the last sample, with the counters of
the sample. -/
def Task.Late (s : Task) : Prop :=
  s.progressAt < s.queuedAt ∧ s.queuedProgress = (s.lastSentObserved, s.lastInDoneObserved)

instance (s : Task) : Decidable s.Late := inferInstanceAs (Decidable (_ ∧ _))

/-- A check that finds the timeout passed is about a transfer that is not late, and has not ended
since the check began. -/
def TaskEvent.Timely (sdk : Sdk) (s : Task) : TaskEvent → Prop
  | .go _ => s.pc = .testTick →
    sdk.pdMsToTicks usbStallTimeoutMs ≤ s.tick - s.usbProgressTick →
      s.device.usb.inBusy = true ∧ s.device.queued = s.found ∧ ¬ s.Late
  | .callback _ | .ticks _ | .wifi _ => True

instance (sdk : Sdk) (s : Task) : (e : TaskEvent) → Decidable (e.Timely sdk s)
  | .go _ => inferInstanceAs (Decidable (_ → _ → _))
  | .callback _ | .ticks _ | .wifi _ => isTrue trivial

/-- The variables of the watchdog. -/
def Task.watchVars (s : Task) :=
  (s.device, s.usbProgressTick, s.lastSentObserved, s.lastInDoneObserved, s.now, s.progressAt,
    s.queuedAt, s.queuedProgress, s.found)

structure WatchInv (s : Task) : Prop where
  tick : s.usbProgressTick = UInt32.ofNat s.progressAt
  progressAt : s.progressAt ≤ s.now
  queuedAt : s.queuedAt ≤ s.now
  held : s.device.usb.inBusy = true → s.device.outstanding = true
  progress : s.device.usb.inBusy = true → s.device.progress = s.queuedProgress
  found : s.found ≤ s.device.queued
  counters : s.pc = .testTick → s.device.usb.inBusy = true → s.device.queued = s.found →
    s.Sampled s.device

section
variable {sdk : Sdk} {s s' : Task} {d : Device}

/-- The USB function goes on. -/
theorem WatchInv.device (h : WatchInv s) (hf : Follows s.device d) : WatchInv (s.withDevice d) := by
  refine ⟨h.tick, h.progressAt, ?_, hf.held h.held, ?_, h.found.trans hf.queued, ?_⟩
  · simp only [Task.withDevice]
    split
    · exact h.queuedAt
    · exact Nat.le_refl _
  · intro hb
    simp only [Task.withDevice]
    split
    · rename_i hq
      obtain ⟨hbusy, hsame⟩ := hf.same hq hb
      exact hsame.trans (h.progress hbusy)
    · rfl
  · -- the transfer that the check found is still outstanding
    intro hpc hb hfound
    have hfound : d.queued = s.found := hfound
    have hq : d.queued = s.device.queued :=
      Nat.le_antisymm (hfound ▸ h.found) hf.queued
    obtain ⟨hbusy, hsame⟩ := hf.same hq hb
    exact hsame.trans (h.counters hpc hbusy (hq.symm.trans hfound))

/-- The task goes on elsewhere, and does not come to test the tick. -/
theorem WatchInv.goes (h : WatchInv s) (hvars : s'.watchVars = s.watchVars)
    (hpc : s'.pc ≠ .testTick) : WatchInv s' := by
  simp only [Task.watchVars, Prod.mk.injEq] at hvars
  obtain ⟨hdevice, htick, hsent, hdone, hnow, hprogress, hqueued, hcounters, hfound⟩ := hvars
  refine ⟨?_, ?_, ?_, ?_, ?_, ?_, fun hyes => absurd hyes hpc⟩
  · rw [htick, hprogress]
    exact h.tick
  · rw [hprogress, hnow]
    exact h.progressAt
  · rw [hqueued, hnow]
    exact h.queuedAt
  · rw [hdevice]
    exact h.held
  · rw [hdevice, hcounters]
    exact h.progress
  · rw [hfound, hdevice]
    exact h.found

/-- Every statement of the task keeps the invariant. -/
theorem watchInv_go (h : WatchInv s) (calls : TaskCalls) :
    WatchInv (gatewayAmebaTask sdk s calls) := by
  cases hpc : s.pc with
  | forceConfigure =>
    simp only [gatewayAmebaTask, hpc]
    exact (h.device (follows_forceConfigure _ _ _)).goes rfl (by simp [Task.goto])
  | retryInit =>
    simp only [gatewayAmebaTask, hpc]
    exact (h.device (follows_retryInit _ _)).goes rfl (by simp [Task.goto])
  | resetStream =>
    simp only [gatewayAmebaTask, hpc]
    exact (h.device (follows_reset _ _)).goes rfl (by simp [Task.goto])
  | relay frame =>
    simp only [gatewayAmebaTask, hpc]
    refine (h.device ?_).goes rfl (by simp)
    split
    · exact follows_refl _
    · exact follows_relayPacket _ _ _ _ _
  | testBusy =>
    simp only [gatewayAmebaTask, hpc, Task.goto]
    refine ⟨h.tick, h.progressAt, h.queuedAt, h.held, h.progress, Nat.le_refl _, ?_⟩
    dsimp only
    split <;> exact fun hyes => by cases hyes
  | testCounters =>
    simp only [gatewayAmebaTask, hpc, Task.goto]
    refine ⟨h.tick, h.progressAt, h.queuedAt, h.held, h.progress, h.found, ?_⟩
    dsimp only
    split
    · exact fun hyes => by cases hyes
    · rename_i hsame
      obtain ⟨hsent, hdone⟩ := not_or.1 hsame
      exact fun _ _ _ => Prod.ext (not_not.1 hsent) (not_not.1 hdone)
  | sampleSent | sampleDone | resampleSent | resampleDone =>
    simp only [gatewayAmebaTask, hpc]
    exact ⟨h.tick, h.progressAt, h.queuedAt, h.held, h.progress, h.found, fun hyes => by cases hyes⟩
  | sampleTick | resampleTick =>
    simp only [gatewayAmebaTask, hpc]
    exact ⟨rfl, Nat.le_refl _, h.queuedAt, h.held, h.progress, h.found, fun hyes => by cases hyes⟩
  | testTick | testRequest | testWifi | testConnect | openUpstream =>
    simp only [gatewayAmebaTask, hpc]
    split <;> exact h.goes rfl (by simp [Task.goto])
  | poll =>
    simp only [gatewayAmebaTask, hpc]
    split
    · exact h.goes rfl (by simp [Task.goto])
    · refine h.goes rfl ?_
      dsimp only
      split <;> exact fun hyes => by cases hyes
  | _ =>
    simp only [gatewayAmebaTask, hpc]
    exact h.goes rfl (by simp [Task.goto])

theorem watchInv_step {e : TaskEvent} (h : WatchInv s) (hs : taskStep sdk s e = some s') :
    WatchInv s' := by
  cases e with
  | go calls =>
    cases hs
    exact watchInv_go h calls
  | callback e =>
    simp only [taskStep, Option.ite_none_left_eq_some] at hs
    obtain ⟨d, hd, heq⟩ := Option.map_eq_some_iff.1 hs.2
    have hinv := h.device (follows_step hd)
    split at heq <;> subst heq
    · exact hinv
    · exact ⟨hinv.tick, hinv.progressAt, hinv.queuedAt, hinv.held, hinv.progress, hinv.found,
        hinv.counters⟩
  | ticks n =>
    cases hs
    exact ⟨h.tick, h.progressAt.trans (Nat.le_add_right _ _),
      h.queuedAt.trans (Nat.le_add_right _ _), h.held, h.progress, h.found, h.counters⟩
  | wifi ready =>
    cases hs
    exact ⟨h.tick, h.progressAt, h.queuedAt, h.held, h.progress, h.found, h.counters⟩

theorem ticks_le {a b : Nat} {timeout : UInt32} (hab : a ≤ b)
    (h : timeout ≤ UInt32.ofNat b - UInt32.ofNat a) : a + timeout.toNat ≤ b := by
  rw [← UInt32.ofNat_sub hab, UInt32.le_iff_toNat_le, UInt32.toNat_ofNat'] at h
  have := Nat.mod_le (b - a) (2 ^ 32)
  omega

/-- Only one statement fires. -/
theorem resetStream_testTick {calls : TaskCalls}
    (h : (gatewayAmebaTask sdk s calls).pc = .resetStream) : s.pc = .testTick ∧
      sdk.pdMsToTicks usbStallTimeoutMs ≤ s.tick - s.usbProgressTick := by
  cases hpc : s.pc with
  | testTick =>
    simp only [gatewayAmebaTask, hpc, Task.goto] at h
    split at h
    · exact ⟨rfl, ‹_›⟩
    · cases h
  | poll =>
    simp only [gatewayAmebaTask, hpc] at h
    split at h
    · cases h
    · dsimp only at h
      split at h <;> cases h
  | testBusy | testCounters | testRequest | testWifi | testConnect | openUpstream =>
    simp only [gatewayAmebaTask, hpc, Task.goto] at h
    split at h <;> cases h
  | _ =>
    simp only [gatewayAmebaTask, hpc, Task.goto] at h
    cases h

/-- The state before the loop. -/
structure Task.Unwatched (s : Task) : Prop where
  pc : s.pc = .forceConfigure
  tick : s.usbProgressTick = UInt32.ofNat s.progressAt
  progressAt : s.progressAt = s.now
  queuedAt : s.queuedAt ≤ s.now
  held : s.device.usb.inBusy = true → s.device.outstanding = true
  progress : s.device.usb.inBusy = true → s.device.progress = s.queuedProgress
  found : s.found ≤ s.device.queued

theorem watchInv_start (h : s.Unwatched) : WatchInv s :=
  ⟨h.tick, h.progressAt.le, h.queuedAt, h.held, h.progress, h.found, fun hpc => by
    rw [h.pc] at hpc
    cases hpc⟩

/-- **The watchdog fires on a stall only**: in every run in which no check that finds the timeout
passed is about a late transfer or one that has ended, when it fires a transfer is outstanding, and
has been for the timeout. -/
theorem run_stall {s₀ : Task} (hstart : s₀.Unwatched) {es : List TaskEvent}
    (h : Run.run (taskStep sdk) s₀ es = some s) {calls : TaskCalls}
    (ht : Run.Meets (taskStep sdk) (fun s e => e.Timely sdk s) s₀ (es ++ [.go calls]))
    (hfires : (gatewayAmebaTask sdk s calls).pc = .resetStream) :
    s.device.outstanding = true ∧
      s.queuedAt + (sdk.pdMsToTicks usbStallTimeoutMs).toNat ≤ s.now := by
  have hinv := Run.inv watchInv_step h (watchInv_start hstart)
  obtain ⟨hpc, htick⟩ := resetStream_testTick hfires
  obtain ⟨hbusy, hfound, hlate⟩ := ((Run.meets_append.1 ht).2 s h).1 hpc htick
  -- the counters are those of the sample, and those at which the transfer was queued
  have hsampled := hinv.counters hpc hbusy hfound
  have hqueued : s.queuedAt ≤ s.progressAt := by
    by_contra hafter
    exact hlate ⟨Nat.lt_of_not_le hafter, (hinv.progress hbusy).symm.trans hsampled⟩
  rw [hinv.tick] at htick
  have hle := ticks_le hinv.progressAt htick
  exact ⟨hinv.held hbusy, by omega⟩

end

/-- The task samples an idle endpoint, and a PONG is queued a tick later; it completes, and the
chunk with the INIT record is queued. The next check samples the counters; then the chunk stalls
up to the tick test of the check after it. -/
def stallRun : List TaskEvent :=
  List.replicate 9 (.go answeredCalls) ++
    [.ticks 1, .callback (.outComplete 0 64 (pingBuffer 7) ⟨0, 0, 0⟩), .ticks 5,
      .callback (.inComplete 64 0), .ticks 4] ++
    List.replicate 10 (.go answeredCalls) ++ [.ticks 2000] ++ List.replicate 4 (.go answeredCalls)

theorem run_stall_stallRun :
    ∃ s, Run.run (taskStep milliSdk) bootTask stallRun = some s ∧
      (gatewayAmebaTask milliSdk s answeredCalls).pc = .resetStream ∧
      s.queuedAt + 2000 ≤ s.now := by
  have h : ∃ s, Run.run (taskStep milliSdk) bootTask stallRun = some s ∧
      (gatewayAmebaTask milliSdk s answeredCalls).pc = .resetStream := by
    decide +kernel
  obtain ⟨s, hs, hfires⟩ := h
  have hstart : bootTask.Unwatched :=
    ⟨rfl, rfl, rfl, Nat.le_refl _, fun hb => hb, fun _ => rfl, Nat.le_refl _⟩
  exact ⟨s, hs, hfires, (run_stall hstart hs (by decide +kernel) hfires).2⟩

/-- An iteration that finds the endpoint idle and blocks for 2000 ticks, a PING whose PONG is
queued, and the check of the next iteration. -/
def longIteration : List TaskEvent :=
  List.replicate 9 (.go answeredCalls) ++
    [.ticks 2000, .callback (.outComplete 0 64 (pingBuffer 7) ⟨0, 0, 0⟩)] ++
    List.replicate 4 (.go answeredCalls)

/-- **The watchdog fires on a young transfer**: the PONG was queued at this very tick. -/
theorem young_transfer_reset :
    ∃ s, Run.run (taskStep milliSdk) bootTask longIteration = some s ∧
      (gatewayAmebaTask milliSdk s answeredCalls).pc = .resetStream ∧
        s.device.outstanding = true ∧ s.queuedAt = s.now := by
  decide +kernel

end Firmware
