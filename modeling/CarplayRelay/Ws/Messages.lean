import CarplayRelay.Ws.Reading

/-!
# Messages of the WebSocket server

What the server does with the frames of any stream, one frame at a time (`frameStep_ok`) and over a
connection (`serve_ok`): it has the fragments of a message in one block (`Good`), and it hands on
messages that are as they should be.

* `nextFrameLoop_fuel`, `serveLoop_fuel`: its loops come to their ends.

No build compiles `ws.c`, and none defines `VALIDATE_UTF8`.
-/

namespace Ws

open Bytes Recv WebSocket Utf8

/-! ## The header of a frame -/

/-- What `next_frame` checks of the first two bytes of a frame. -/
structure Accepted (env : Env) (frameType : Option UInt8) (first second : UInt8) : Prop where
  rsv : first &&& 0x70 = 0
  order : ¬ ((frameType = none ∧ first &&& 0xf = opCont) ∨
    (frameType ≠ none ∧ ¬ isControlFrame (first &&& 0xf) ∧ first &&& 0xf ≠ opCont))
  known : first &&& 0xf = opTxt ∨ first &&& 0xf = opBin ∨ first &&& 0xf = opCont ∨
    first &&& 0xf = opPing ∨ first &&& 0xf = opPong ∨ first &&& 0xf = opClse
  closing : ¬ (env.closing = true ∧ first &&& 0xf ≠ opClse)
  control : isControlFrame (first &&& 0xf) = true →
    first >>> 7 ≠ 0 ∧ (second &&& 0x7f).toNat ≤ 125

/-- The state behind the first two bytes of a frame. -/
def State.behindHeader (w : State) (opcode : UInt8) (s : Source) : State :=
  { w with frames := w.frames + 1, source := s, frameType := typeBehind w.frameType opcode }

section
variable {validateUtf8 : Bool} {env : Env} {w : State} {first second : UInt8} {rest : Bytes}

/-- What a frame does behind its first two bytes. -/
def frameBody (validateUtf8 : Bool) (env : Env) (w : State) (first second : UInt8) : Loop :=
  if isControlFrame (first &&& 0xf) then
    controlFrame validateUtf8 env w (first &&& 0xf) true (second &&& 0x7f).toNat
  else dataFrame validateUtf8 env w (first &&& 0xf) (first >>> 7 ≠ 0) (second &&& 0x7f).toNat

theorem frameStep_accepted (h : Accepted env w.frameType first second)
    (hs : w.source.stream = first :: second :: rest) :
    ∃ s', s'.stream = rest ∧ frameStep validateUtf8 env w =
      frameBody validateUtf8 env (w.behindHeader (first &&& 0xf) s') first second := by
  obtain ⟨s₁, hfirst, hs₁⟩ := nextByte_cons hs
  obtain ⟨s₂, hsecond, hs₂⟩ := nextByte_cons hs₁
  refine ⟨s₂, hs₂, ?_⟩
  simp only [frameStep, hfirst, hsecond]
  rw [if_neg (not_not.2 h.rsv), if_neg h.order, if_neg (not_not.2 h.known), if_neg h.closing]
  unfold frameBody
  split_ifs with hcontrol hbad
  · obtain ⟨hfin, hlen⟩ := h.control hcontrol
    exact absurd hbad (by rw [not_or, not_not]; exact ⟨hfin, Nat.not_lt.2 hlen⟩)
  · rw [decide_eq_true (h.control hcontrol).1]
    rfl
  · rfl

theorem frameStep_cases (validateUtf8 : Bool) (env : Env) (w : State) :
    (∃ w', frameStep validateUtf8 env w = .done (.failed w') ∧ w'.log = w.log) ∨
    ∃ first second s', w.source.stream = first :: second :: s'.stream ∧
      Accepted env w.frameType first second ∧ frameStep validateUtf8 env w =
        frameBody validateUtf8 env (w.behindHeader (first &&& 0xf) s') first second := by
  rcases nextByte_stream w.source with ⟨-, hnone⟩ | ⟨first, s₁, hs, hfirst⟩
  · simp only [frameStep, hnone]
    exact .inl ⟨_, rfl, rfl⟩
  rcases nextByte_stream s₁ with ⟨-, hnone⟩ | ⟨second, s₂, hs₁, hsecond⟩
  · simp only [frameStep, hfirst, hnone]
    left
    split_ifs
    all_goals exact ⟨_, rfl, rfl⟩
  by_cases hacc : Accepted env w.frameType first second
  · obtain ⟨s', hs', hstep⟩ := @frameStep_accepted validateUtf8 env w first second s₂.stream hacc
      (by rw [hs, hs₁])
    exact .inr ⟨first, second, s', by rw [hs, hs₁, hs'], hacc, hstep⟩
  · left
    simp only [frameStep, hfirst, hsecond]
    split_ifs with hrsv horder hknown hclosing hcontrol hbad
    · exact ⟨_, rfl, rfl⟩
    · exact ⟨_, rfl, rfl⟩
    · exact ⟨_, rfl, rfl⟩
    · exact ⟨_, rfl, rfl⟩
    · rw [not_or, not_not] at hbad
      exact absurd ⟨not_not.1 hrsv, horder, hknown, hclosing,
        fun _ => ⟨hbad.1, Nat.le_of_not_lt hbad.2⟩⟩ hacc
    · exact absurd ⟨not_not.1 hrsv, horder, hknown, hclosing,
        fun h => absurd h hcontrol⟩ hacc
    · exact ⟨_, rfl, rfl⟩

end

/-! ## What holds of any stream -/

/-- What may happen: a message is its bytes and a terminator, and a text is UTF-8 where it is
validated; only control frames are sent. -/
def EventOk (validateUtf8 : Bool) : Event → Prop
  | .onmessage msg size type => ∃ payload : Bytes, payload.length ≤ maxFrameLength ∧
      msg = payload ++ terminator true payload.length ∧ size = payload.length ∧
      (type = opTxt ∨ type = opBin) ∧ (validateUtf8 = true → type = opTxt → IsText payload)
  | .sent frame => ∃ payload type, payload.length ≤ 125 ∧ isControlFrame type = true ∧
      frame = wsSendframe payload type
  | _ => True

/-- Between two frames: the block has the fragments so far. -/
structure Good (validateUtf8 : Bool) (w : State) : Prop where
  ctrl : w.msgCtrl.length = 125
  log : ∀ e ∈ w.log, EventOk validateUtf8 e
  size : w.msgData.length = w.frameSize ∧ w.msgIdxData = w.frameSize
  max : w.frameSize ≤ maxFrameLength
  fresh : w.frameType = none → w.msgData = [] ∧ w.utf8State = utf8Accept
  type : ∀ t, w.frameType = some t → t = opTxt ∨ t = opBin
  text : validateUtf8 = true → w.frameType = some opTxt →
    isUtf8LenState w.msgData utf8Accept = some w.utf8State

/-- Behind a message or a close frame. -/
structure Got (validateUtf8 : Bool) (w : State) : Prop where
  ctrl : w.msgCtrl.length = 125
  log : ∀ e ∈ w.log, EventOk validateUtf8 e
  got : w.frameType = some opClse ∧ w.frameSize ≤ 125 ∨
    ∃ type, w.frameType = some type ∧
      EventOk validateUtf8 (.onmessage w.msgData w.frameSize type)

/-- What a frame does, with the stream in front of it. -/
def StepOk (validateUtf8 : Bool) (stream : Bytes) (F : Fault → Prop) : Loop → Prop
  | .more w => Good validateUtf8 w ∧ w.source.stream <:+ stream
  | .done (.frame w) => Got validateUtf8 w ∧ w.source.stream <:+ stream
  | .done (.failed w) => ∀ e ∈ w.log, EventOk validateUtf8 e
  | .done (.fault f) => F f

theorem StepOk.mono {validateUtf8 : Bool} {stream stream' : Bytes} {F F' : Fault → Prop} {l : Loop}
    (h : StepOk validateUtf8 stream F l) (hs : stream <:+ stream') (hF : ∀ f, F f → F' f) :
    StepOk validateUtf8 stream' F' l := by
  match l, h with
  | .more _, h => exact ⟨h.1, h.2.trans hs⟩
  | .done (.frame _), h => exact ⟨h.1, h.2.trans hs⟩
  | .done (.failed _), h => exact h
  | .done (.fault f), h => exact hF f h

/-- A frame that makes the server write outside of its buffers: a control frame that fills
`msg_ctrl`, or a fragment that takes the size of a message past 2^64. -/
inductive Overruns : Fault → Bytes → Prop
  | control {first second : UInt8} (rest : Bytes) : isControlFrame (first &&& 0xf) = true →
      (second &&& 0x7f) = 125 → Overruns (.store true 125) (first :: second :: rest)
  | store {first second : UInt8} {length : Nat} {ext : Bytes} (rest : Bytes) :
      isControlFrame (first &&& 0xf) = false → SaysLength length second ext →
      2 ^ 64 - maxFrameLength ≤ length →
      Overruns (.store false length) (first :: second :: (ext ++ rest))
  | free {first second : UInt8} {length : Nat} {ext : Bytes} (rest : Bytes) :
      isControlFrame (first &&& 0xf) = false → SaysLength length second ext →
      2 ^ 64 - maxFrameLength ≤ length →
      Overruns (.free length) (first :: second :: (ext ++ rest))

section
variable {validateUtf8 : Bool} {env : Env} {w : State} {first second opcode : UInt8}
  {s : Source}

theorem log_append {log : List Event} (h : ∀ e ∈ log, EventOk validateUtf8 e) {e : Event}
    (he : EventOk validateUtf8 e) : ∀ e' ∈ log ++ [e], EventOk validateUtf8 e' := by
  intro e' he'
  rcases List.mem_append.1 he' with he' | he'
  · exact h e' he'
  · rw [List.mem_singleton.1 he']
    exact he

theorem send_log {w : State} (h : ∀ e ∈ w.log, EventOk validateUtf8 e) (ok : Bool) {frame : Bytes}
    (hframe : EventOk validateUtf8 (.sent frame)) :
    ∀ e ∈ (w.send ok frame).log, EventOk validateUtf8 e := by
  unfold State.send
  split_ifs
  · exact log_append h hframe
  · exact h

theorem doClose_ok (msgCtrl : Bytes) (frameSize : Nat) (closeCode : Option Nat)
    (h : closeCode = none → frameSize ≤ 125) :
    EventOk validateUtf8 (.sent (doClose msgCtrl frameSize closeCode)) := by
  have hcustom (cc : Nat) : EventOk validateUtf8
      (.sent (wsSendframe [UInt8.ofNat (cc >>> 8), UInt8.ofNat (cc &&& 0xff)] opClse)) :=
    ⟨_, _, by simp, rfl, rfl⟩
  cases closeCode with
  | some cc => exact hcustom cc
  | none =>
    have hsend : EventOk validateUtf8 (.sent (wsSendframe (msgCtrl.take frameSize) opClse)) :=
      ⟨_, _, Nat.le_trans (List.length_take_le _ _) (h rfl), rfl, rfl⟩
    simp only [doClose]
    generalize (if frameSize = 1 then (msgCtrl.byteAt 0).toNat
      else (msgCtrl.byteAt 0).toNat <<< 8 ||| (msgCtrl.byteAt 1).toNat) = cc
    split_ifs
    · exact hsend
    · exact hcustom clseProterr
    · exact hsend

theorem control_cases (opcode : UInt8) : isControlFrame opcode = true ↔
    opcode = opClse ∨ opcode = opPing ∨ opcode = opPong := by
  rw [isControlFrame, decide_eq_true_iff]

/-- The first two bytes of a frame keep what holds between frames. -/
theorem Good.behindHeader (h : Good validateUtf8 w) (hacc : Accepted env w.frameType first second)
    (s : Source) : Good validateUtf8 (w.behindHeader (first &&& 0xf) s) ∧
      (isControlFrame (first &&& 0xf) = false →
        (w.behindHeader (first &&& 0xf) s).frameType ≠ none) := by
  obtain ⟨hrsv, horder, hknown, -, -⟩ := hacc
  generalize first &&& 0xf = opcode at horder hknown
  by_cases hnew : opcode ≠ opCont ∧ ¬ isControlFrame opcode = true
  · -- a frame of a new message, which starts from nothing
    have htype : w.frameType = none := by
      by_contra hsome
      exact horder (.inr ⟨hsome, hnew.2, hnew.1⟩)
    have hdata : opcode = opTxt ∨ opcode = opBin := by
      rw [control_cases] at hnew
      tauto
    obtain ⟨hnil, hstate⟩ := h.fresh htype
    have hbehind : (w.behindHeader opcode s).frameType = some opcode := by
      rw [State.behindHeader, typeBehind, if_pos hnew]
    refine ⟨⟨h.ctrl, h.log, h.size, h.max, ?_, ?_, ?_⟩, ?_⟩
    · intro hnone
      rw [hbehind] at hnone
      cases hnone
    · intro t ht
      rw [hbehind] at ht
      cases ht
      exact hdata
    · intro _ _
      show isUtf8LenState w.msgData utf8Accept = some w.utf8State
      rw [hnil, hstate]
      rfl
    · intro _
      rw [hbehind]
      exact Option.some_ne_none _
  · have hbehind : (w.behindHeader opcode s).frameType = w.frameType := by
      rw [State.behindHeader, typeBehind, if_neg hnew]
    refine ⟨⟨h.ctrl, h.log, h.size, h.max, ?_, ?_, ?_⟩, ?_⟩
    · rw [hbehind]
      exact h.fresh
    · rw [hbehind]
      exact h.type
    · rw [hbehind]
      exact h.text
    · intro hcontrol hnone
      rw [hbehind] at hnone
      have hcont : opcode = opCont := by
        by_contra hne
        exact hnew ⟨hne, by rw [hcontrol]; exact Bool.false_ne_true⟩
      exact horder (.inl ⟨hnone, hcont⟩)

theorem part_eq (msg payload behind : Bytes) :
    ((msg ++ (payload ++ behind)).drop (msg.length + payload.length - payload.length)).take
      payload.length = payload := by
  rw [Nat.add_sub_cancel, List.drop_left, List.take_left]

theorem Good.text_run (h : Good validateUtf8 w) (hv : validateUtf8 = true)
    (ht : w.frameType = some opTxt) (payload : Bytes) :
    ∃ state, isUtf8LenState payload w.utf8State = some state ∧
      isUtf8LenState (w.msgData ++ payload) utf8Accept = some state ∧
      (state = utf8Accept ↔ IsText (w.msgData ++ payload)) ∧
      (state = utf8Reject ↔ ∀ t, ¬ IsText (w.msgData ++ payload ++ t)) := by
  obtain ⟨state, hrun, hstate⟩ := isUtf8LenState_accept (w.msgData ++ payload)
  refine ⟨state, ?_, hrun, hstate⟩
  rwa [isUtf8LenState_append, h.text hv ht] at hrun

/-- **A fragment** keeps what holds between frames, or its message is as it should be. -/
theorem dataFrame_ok (h : Good validateUtf8 w) (htype : w.frameType ≠ none)
    (hop : isControlFrame opcode = false) (isFin : Bool) :
    StepOk validateUtf8 w.source.stream
      (fun f => ∃ length ext rest, SaysLength length second ext ∧ w.source.stream = ext ++ rest ∧
        2 ^ 64 - maxFrameLength ≤ length ∧ (f = .store false length ∨ f = .free length))
      (dataFrame validateUtf8 env w opcode isFin (second &&& 0x7f).toNat) := by
  obtain ⟨hsize, hidx⟩ := h.size
  obtain ⟨type, htype⟩ := Option.ne_none_iff_exists'.1 htype
  have hdata := h.type type htype
  unfold dataFrame
  rw [hidx, ← hsize]
  rcases @readFrame_data opcode second isFin env.reallocOk w.source w.msgData hop (hsize ▸ h.max)
    with herror | ⟨length, ext, rest, hsaid, hs, hlen, hfault⟩ |
      ⟨payload, consumed, s', hmax, hs, hok⟩
  · rw [herror]
    exact h.log
  · rcases hfault with hfault | hfault
    · rw [hfault]
      exact ⟨length, ext, rest, hsaid, hs, hlen, .inl rfl⟩
    · rw [hfault]
      exact ⟨length, ext, rest, hsaid, hs, hlen, .inr rfl⟩
  rw [hok]
  dsimp only
  rw [part_eq]
  have hsuffix : s'.stream <:+ w.source.stream := ⟨consumed, hs.symm⟩
  have hlength : (w.msgData ++ payload).length = w.msgData.length + payload.length :=
    List.length_append
  have hgot (htext : validateUtf8 = true → type = opTxt → IsText (w.msgData ++ payload)) :
      isFin = true → Got validateUtf8 { w with
        source := s', msgData := w.msgData ++ (payload ++
          terminator isFin (w.msgData.length + payload.length)),
        frameSize := w.msgData.length + payload.length,
        msgIdxData := w.msgData.length + payload.length } := by
    rintro rfl
    refine ⟨h.ctrl, h.log, .inr ⟨type, htype, w.msgData ++ payload, ?_, ?_, hlength.symm, hdata,
      htext⟩⟩
    · rw [hlength]
      exact hmax
    · rw [hlength, List.append_assoc]
  have hgood (state : UInt32) (htext : validateUtf8 = true → type = opTxt →
        isUtf8LenState (w.msgData ++ payload) utf8Accept = some state) :
      isFin = false → Good validateUtf8 { w with
        source := s', msgData := w.msgData ++ (payload ++
          terminator isFin (w.msgData.length + payload.length)),
        frameSize := w.msgData.length + payload.length,
        msgIdxData := w.msgData.length + payload.length, utf8State := state } := by
    rintro rfl
    have hterm : terminator false (w.msgData.length + payload.length) = [] := by
      simp [terminator]
    rw [hterm, List.append_nil]
    refine ⟨h.ctrl, h.log, ⟨hlength, rfl⟩, hmax, ?_, h.type, ?_⟩
    · intro hnone
      rw [show w.frameType = none from hnone] at htype
      cases htype
    · intro hv ht
      exact htext hv (Option.some.inj (htype.symm.trans ht))
  have hclose : EventOk validateUtf8 (.sent (doClose w.msgCtrl
      (w.msgData.length + payload.length) (some clseInvutf8))) :=
    doClose_ok _ _ _ fun hnone => by cases hnone
  by_cases hvalid : validateUtf8 = true ∧ w.frameType = some opTxt
  · obtain ⟨hv, htxt⟩ := hvalid
    obtain ⟨state, hstate, hrun, haccept, -⟩ := h.text_run hv htxt payload
    rw [if_pos ⟨hv, htxt⟩, hstate]
    dsimp only
    by_cases hfin : isFin = true
    · rw [if_pos hfin]
      by_cases hbad : state = utf8Accept
      · rw [if_neg (not_not.2 hbad)]
        exact ⟨hgot (fun _ _ => haccept.1 hbad) hfin, hsuffix⟩
      · rw [if_pos hbad]
        refine send_log ?_ _ hclose
        exact h.log
    · rw [if_neg hfin]
      by_cases hbad : state = utf8Reject
      · rw [if_pos hbad]
        refine send_log ?_ _ hclose
        exact h.log
      · rw [if_neg hbad]
        exact ⟨hgood state (fun _ _ => hrun) (Bool.eq_false_iff.2 hfin), hsuffix⟩
  · have hno (hv : validateUtf8 = true) (ht : type = opTxt) : False :=
      hvalid ⟨hv, htype.trans (congrArg some ht)⟩
    rw [if_neg hvalid]
    by_cases hfin : isFin = true
    · rw [if_pos hfin]
      exact ⟨hgot (fun hv ht => (hno hv ht).elim) hfin, hsuffix⟩
    · rw [if_neg hfin]
      exact ⟨hgood w.utf8State (fun hv ht => (hno hv ht).elim) (Bool.eq_false_iff.2 hfin), hsuffix⟩

/-- **A control frame** leaves the message as it is. -/
theorem controlFrame_ok (h : Good validateUtf8 w) (hop : isControlFrame opcode = true)
    (hlow : (second &&& 0x7f).toNat ≤ 125) :
    StepOk validateUtf8 w.source.stream
      (fun f => f = .store true 125 ∧ SaysLength 125 second [])
      (controlFrame validateUtf8 env w opcode true (second &&& 0x7f).toNat) := by
  unfold controlFrame
  rcases @readFrame_control opcode second env.reallocOk w.source w.msgCtrl hop h.ctrl hlow with
    herror | ⟨hsaid, hfault⟩ | ⟨payload, msg, consumed, s', hlen, hmsg, htake, hs, hok⟩
  · rw [herror]
    exact h.log
  · rw [hfault]
    exact ⟨rfl, hsaid⟩
  rw [hok]
  dsimp only
  have hsuffix : s'.stream <:+ w.source.stream := ⟨consumed, hs.symm⟩
  have hgood (id : Int) : Good validateUtf8 { w with
      source := s', msgCtrl := msg, lastPongId := id } :=
    ⟨hmsg, h.log, h.size, h.max, h.fresh, h.type, h.text⟩
  by_cases hpong : opcode = opPong
  · rw [if_pos hpong]
    split_ifs
    · exact ⟨hgood w.lastPongId, hsuffix⟩
    · exact ⟨hgood _, hsuffix⟩
  rw [if_neg hpong]
  by_cases hping : opcode = opPing
  · rw [if_pos hping]
    split_ifs
    · refine ⟨⟨hmsg, ?_, h.size, h.max, h.fresh, h.type, h.text⟩, hsuffix⟩
      refine send_log ?_ true ⟨_, _, ?_, rfl, rfl⟩
      · exact h.log
      · rw [htake]
        omega
    · exact h.log
  rw [if_neg hping]
  have hgot : Got validateUtf8 { w with
      source := s', msgCtrl := msg, frameSize := payload.length, frameType := some opClse } :=
    ⟨hmsg, h.log, .inl ⟨rfl, Nat.le_of_lt hlen⟩⟩
  split_ifs with hvalid
  · obtain ⟨valid, hrun, -⟩ := isUtf8Len_text ((msg.drop 2).take (payload.length - 2))
    rw [hrun]
    dsimp only
    cases valid with
    | true => exact ⟨hgot, hsuffix⟩
    | false => exact h.log
  · exact ⟨hgot, hsuffix⟩

/-- **What one frame does**, whatever the stream is. -/
theorem frameStep_ok (h : Good validateUtf8 w) :
    StepOk validateUtf8 w.source.stream.tail (fun f => Overruns f w.source.stream)
      (frameStep validateUtf8 env w) := by
  rcases frameStep_cases validateUtf8 env w with ⟨w', hstep, hlog⟩ |
    ⟨first, second, s', hs, hacc, hstep⟩
  · rw [hstep]
    show ∀ e ∈ w'.log, EventOk validateUtf8 e
    rw [hlog]
    exact h.log
  rw [hstep, hs, frameBody]
  obtain ⟨hgood, hsome⟩ := h.behindHeader hacc s'
  by_cases hcontrol : isControlFrame (first &&& 0xf) = true
  · rw [if_pos hcontrol]
    have hlow := (hacc.control hcontrol).2
    refine (controlFrame_ok hgood hcontrol hlow).mono (List.suffix_cons _ _) ?_
    rintro f ⟨rfl, hsaid⟩
    exact .control _ hcontrol (UInt8.toNat_inj.1 (hsaid.short hlow).1.symm)
  · rw [if_neg hcontrol]
    have hdata := Bool.eq_false_iff.2 hcontrol
    refine (dataFrame_ok hgood (hsome hdata) hdata _).mono (List.suffix_cons _ _) ?_
    rintro f ⟨length, ext, rest, hsaid, hstream, hlen, hf⟩
    rw [show s'.stream = ext ++ rest from hstream]
    rcases hf with rfl | rfl
    · exact .store rest hdata hsaid hlen
    · exact .free rest hdata hsaid hlen

end

/-! ## Runs -/

section
variable {validateUtf8 : Bool} {env : Nat → Env} {w w' : State}

theorem frameStep_stream {env : Env}
    (hstep : ∀ w', frameStep validateUtf8 env w ≠ .done (.failed w')) :
    w.source.stream.tail.length < w.source.stream.length := by
  rcases frameStep_cases validateUtf8 env w with ⟨w', hfail, -⟩ | ⟨first, second, s', hs, -, -⟩
  · exact absurd hfail (hstep w')
  · rw [hs, List.tail_cons]
    exact Nat.lt_succ_self _

theorem frameStep_more (h : Good validateUtf8 w)
    (hstep : frameStep validateUtf8 (env w.frames) w = .more w') :
    Good validateUtf8 w' ∧ w'.source.stream <:+ w.source.stream ∧
      w'.source.stream.length < w.source.stream.length := by
  have hok := @frameStep_ok validateUtf8 (env w.frames) w h
  have htail := @frameStep_stream validateUtf8 w (env w.frames) (by simp [hstep])
  rw [hstep] at hok
  obtain ⟨hgood, hsuffix⟩ := hok
  exact ⟨hgood, hsuffix.trans (List.tail_suffix _), Nat.lt_of_le_of_lt hsuffix.length_le htail⟩

/-- The loop of `next_frame` to its end. -/
def nextFrom (validateUtf8 : Bool) (env : Nat → Env) (w : State) : Next :=
  nextFrameLoop validateUtf8 env (w.source.stream.length + 1) w

/-- The loop comes to its end. -/
theorem nextFrameLoop_fuel (h : Good validateUtf8 w) {fuel : Nat}
    (hfuel : w.source.stream.length < fuel) :
    nextFrameLoop validateUtf8 env fuel w = nextFrom validateUtf8 env w := by
  unfold nextFrom
  generalize hfuel' : w.source.stream.length + 1 = fuel'
  have hlt : w.source.stream.length < fuel' := by omega
  clear hfuel'
  induction fuel generalizing w fuel' with
  | zero => exact absurd hfuel (Nat.not_lt_zero _)
  | succ fuel ih =>
    obtain ⟨fuel', rfl⟩ := Nat.exists_eq_succ_of_ne_zero (Nat.ne_of_gt (Nat.zero_lt_of_lt hlt))
    rw [Nat.succ_eq_add_one, nextFrameLoop, nextFrameLoop]
    cases hstep : frameStep validateUtf8 (env w.frames) w with
    | done n => rfl
    | more w' =>
      obtain ⟨hgood, -, hless⟩ := frameStep_more h hstep
      exact ih hgood (by omega) fuel' (by omega)

theorem nextFrom_more (h : Good validateUtf8 w)
    (hstep : frameStep validateUtf8 (env w.frames) w = .more w') :
    nextFrom validateUtf8 env w = nextFrom validateUtf8 env w' := by
  obtain ⟨hgood, -, hless⟩ := frameStep_more h hstep
  rw [nextFrom, nextFrameLoop, hstep]
  exact nextFrameLoop_fuel hgood hless

theorem nextFrom_done {n : Next} (hstep : frameStep validateUtf8 (env w.frames) w = .done n) :
    nextFrom validateUtf8 env w = n := by
  rw [nextFrom, nextFrameLoop, hstep]

/-- What `next_frame` gives, with the stream in front of it. -/
def NextOk (validateUtf8 : Bool) (stream : Bytes) : Next → Prop
  | .frame w => Got validateUtf8 w ∧ w.source.stream <:+ stream ∧
      w.source.stream.length < stream.length
  | .failed w => ∀ e ∈ w.log, EventOk validateUtf8 e
  | .fault f => ∃ behind, behind <:+ stream ∧ Overruns f behind

/-- By induction on the bytes that are left. -/
theorem nextFrom_ok (h : Good validateUtf8 w) :
    NextOk validateUtf8 w.source.stream (nextFrom validateUtf8 env w) := by
  induction hlen : w.source.stream.length using Nat.strongRecOn generalizing w with
  | ind n ih =>
    have hok := @frameStep_ok validateUtf8 (env w.frames) w h
    cases hstep : frameStep validateUtf8 (env w.frames) w with
    | more w' =>
      obtain ⟨hgood, hsuffix, hless⟩ := frameStep_more h hstep
      rw [nextFrom_more h hstep]
      have hrest := ih _ (hlen ▸ hless) hgood rfl
      cases hnext : nextFrom validateUtf8 env w' with
      | frame w'' =>
        rw [hnext] at hrest
        exact ⟨hrest.1, hrest.2.1.trans hsuffix, Nat.lt_trans hrest.2.2 hless⟩
      | failed w'' =>
        rw [hnext] at hrest
        exact hrest
      | fault f =>
        rw [hnext] at hrest
        obtain ⟨behind, hbehind, hover⟩ := hrest
        exact ⟨behind, hbehind.trans hsuffix, hover⟩
    | done n =>
      rw [nextFrom_done hstep]
      rw [hstep] at hok
      cases n with
      | failed w' => exact hok
      | fault f => exact ⟨_, List.suffix_rfl, hok⟩
      | frame w' =>
        obtain ⟨hgot, hsuffix⟩ := hok
        have htail := @frameStep_stream validateUtf8 w (env w.frames) (by simp [hstep])
        exact ⟨hgot, hsuffix.trans (List.tail_suffix _),
          Nat.lt_of_le_of_lt hsuffix.length_le htail⟩

/-- Between the calls of `next_frame`. -/
structure Idle (validateUtf8 : Bool) (w : State) : Prop where
  ctrl : w.msgCtrl.length = 125
  log : ∀ e ∈ w.log, EventOk validateUtf8 e

theorem Idle.good (h : Idle validateUtf8 w) : Good validateUtf8 w.start where
  ctrl := h.ctrl
  log := h.log
  size := ⟨rfl, rfl⟩
  max := Nat.zero_le _
  fresh := fun _ => ⟨rfl, rfl⟩
  type := fun _ ht => by cases ht
  text := fun _ ht => by cases ht

/-- What is done with what `next_frame` returns. -/
def deliver (env : Nat → Env) (serve : State → End) : Next → End
  | .fault f => .fault f
  | .failed w => .closed (w.log ++ [.onclose])
  | .frame w =>
    if w.frameType = some opTxt ∨ w.frameType = some opBin then
      serve { w with log := w.log ++ [.onmessage w.msgData w.frameSize (w.frameType.getD 0)] }
    else if w.frameType = some opClse then
      .closed ((if (env w.frames).closing then w
        else w.send (env w.frames).sendOk (doClose w.msgCtrl w.frameSize none)).log ++ [.onclose])
    else serve w

theorem serveLoop_succ (fuel : Nat) (w : State) : serveLoop validateUtf8 env (fuel + 1) w =
    deliver env (serveLoop validateUtf8 env fuel) (nextFrom validateUtf8 env w.start) := by
  rw [serveLoop]
  show (match nextFrom validateUtf8 env w.start with
    | .fault f => _
    | .failed w => _
    | .frame w => _) = _
  cases nextFrom validateUtf8 env w.start <;> rfl

/-- How a connection may end, with the stream in front of it. -/
def End.Ok (validateUtf8 : Bool) (stream : Bytes) : End → Prop
  | .closed log => ∀ e ∈ log, EventOk validateUtf8 e
  | .fault f => ∃ behind, behind <:+ stream ∧ Overruns f behind

/-- A call of `next_frame` ends the connection, or the next one has less to read. -/
theorem deliver_cases (env : Nat → Env) (h : Idle validateUtf8 w) :
    (∃ r : End, r.Ok validateUtf8 w.source.stream ∧
      ∀ f, deliver env f (nextFrom validateUtf8 env w.start) = r) ∨
    ∃ w', Idle validateUtf8 w' ∧ w'.source.stream <:+ w.source.stream ∧
      w'.source.stream.length < w.source.stream.length ∧
      ∀ f, deliver env f (nextFrom validateUtf8 env w.start) = f w' := by
  have hok := @nextFrom_ok validateUtf8 env w.start h.good
  cases hnext : nextFrom validateUtf8 env w.start with
  | fault f =>
    rw [hnext] at hok
    exact .inl ⟨.fault f, hok, fun _ => rfl⟩
  | failed w' =>
    rw [hnext] at hok
    refine .inl ⟨.closed (w'.log ++ [Event.onclose]), ?_, fun _ => rfl⟩
    exact log_append hok trivial
  | frame w' =>
    rw [hnext] at hok
    obtain ⟨⟨hctrl, hlog, hgot⟩, hsuffix, hless⟩ := hok
    rcases hgot with ⟨hclse, hsize⟩ | ⟨type, htype, hevent⟩
    · have hdata : ¬ (w'.frameType = some opTxt ∨ w'.frameType = some opBin) := by
        rw [hclse]
        decide
      refine .inl ⟨_, ?_, fun f => by simp only [deliver, if_neg hdata, if_pos hclse]; rfl⟩
      refine log_append ?_ trivial
      split_ifs
      · exact hlog
      · exact send_log hlog _ (doClose_ok _ _ _ fun _ => hsize)
    · obtain ⟨-, -, -, -, hdata, -⟩ := id hevent
      have hdata' : w'.frameType = some opTxt ∨ w'.frameType = some opBin := by
        rw [htype]
        exact hdata.imp (congrArg some) (congrArg some)
      refine .inr ⟨{ w' with log := w'.log ++ [.onmessage w'.msgData w'.frameSize type] },
        ⟨hctrl, log_append hlog hevent⟩, hsuffix, hless, fun f => ?_⟩
      simp only [deliver]
      rw [if_pos hdata', htype, Option.getD_some]

/-- The connection comes to its end. -/
theorem serveLoop_fuel (h : Idle validateUtf8 w) {fuel : Nat}
    (hfuel : w.source.stream.length < fuel) :
    serveLoop validateUtf8 env fuel w = serve validateUtf8 env w := by
  unfold serve
  generalize hfuel' : w.source.stream.length + 1 = fuel'
  have hlt : w.source.stream.length < fuel' := by omega
  clear hfuel'
  induction fuel generalizing w fuel' with
  | zero => exact absurd hfuel (Nat.not_lt_zero _)
  | succ fuel ih =>
    obtain ⟨fuel', rfl⟩ := Nat.exists_eq_succ_of_ne_zero (Nat.ne_of_gt (Nat.zero_lt_of_lt hlt))
    rw [Nat.succ_eq_add_one, serveLoop_succ, serveLoop_succ]
    rcases deliver_cases env h with ⟨r, -, hend⟩ | ⟨w', hidle, -, hless, hnext⟩
    · rw [hend, hend]
    · rw [hnext, hnext]
      exact ih hidle (by omega) fuel' (by omega)

theorem serve_eq (h : Idle validateUtf8 w) : serve validateUtf8 env w =
    deliver env (serve validateUtf8 env) (nextFrom validateUtf8 env w.start) := by
  rw [serve, serveLoop_succ]
  rcases deliver_cases env h with ⟨r, -, hend⟩ | ⟨w', hidle, -, hless, hnext⟩
  · rw [hend, hend]
  · rw [hnext, hnext]
    exact serveLoop_fuel hidle hless

/-- By induction on the bytes that are left. -/
theorem Idle.serve_good (h : Idle validateUtf8 w) :
    (serve validateUtf8 env w).Ok validateUtf8 w.source.stream := by
  induction hlen : w.source.stream.length using Nat.strongRecOn generalizing w with
  | ind n ih =>
    rw [serve_eq h]
    rcases deliver_cases env h with ⟨r, hok, hend⟩ | ⟨w', hidle, hsuffix, hless, hnext⟩
    · rw [hend]
      exact hok
    · rw [hnext]
      have hrest := ih _ (hlen ▸ hless) hidle rfl
      cases hserve : serve validateUtf8 env w' with
      | closed log =>
        rw [hserve] at hrest
        exact hrest
      | fault f =>
        rw [hserve] at hrest
        obtain ⟨behind, hbehind, hover⟩ := hrest
        exact ⟨behind, hbehind.trans hsuffix, hover⟩

end

theorem idle_source (validateUtf8 : Bool) (s : Source) : Idle validateUtf8 { source := s } :=
  ⟨List.length_replicate, fun _ he => absurd he List.not_mem_nil⟩

/-- **Whatever a client sends**, each message that the server hands on is its bytes with a
terminator behind them (none if it is empty), at most `maxFrameLength` of them, and UTF-8 if it is a
validated text; and the server stores outside of its buffers only at a frame that `Overruns`. -/
theorem serve_ok (validateUtf8 : Bool) (env : Nat → Env) (s : Source) :
    (serve validateUtf8 env { source := s }).Ok validateUtf8 s.stream :=
  (idle_source validateUtf8 s).serve_good

end Ws
