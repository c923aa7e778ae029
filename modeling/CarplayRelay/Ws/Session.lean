import CarplayRelay.Ws.Messages

/-!
# Sessions with the WebSocket server

`Exchange` is what a client may send by the protocol, frame by frame, and what the server does:
messages in fragments, with pings and pongs between them. However the frames are cut on their way,
the server does exactly that (`serve_exchange`). No build compiles `ws.c`.
-/

namespace Ws

open Bytes Recv WebSocket Utf8

/-! ## What a client sends -/

structure ClientFrame where
  fin : Bool
  opcode : UInt8
  width : Width
  mask : Mask
  payload : Bytes

def ClientFrame.first (f : ClientFrame) : UInt8 := (if f.fin then 0x80 else 0) ||| f.opcode

def ClientFrame.bytes (f : ClientFrame) : Bytes := layout f.first f.width (some f.mask) f.payload

def controlOf (opcode : UInt8) (mask : Mask) (payload : Bytes) : ClientFrame :=
  ⟨true, opcode, .short, mask, payload⟩

/-- The type of a message that has come in part, and its bytes. -/
abbrev Partial := Option (UInt8 × Bytes)

/-- A data frame with this opcode goes on with a message of a type, of which some bytes have
come. -/
inductive Continues : Partial → UInt8 → UInt8 → Bytes → Prop
  | first {type : UInt8} (h : type = opTxt ∨ type = opBin) : Continues none type type []
  | next {type : UInt8} (sofar : Bytes) (h : type = opTxt ∨ type = opBin) :
      Continues (some (type, sofar)) opCont type sofar

/-- Frames that come between two parts of messages, and what the server does. -/
inductive Exchange (validateUtf8 : Bool) :
    Partial → List ClientFrame → List Event → Partial → Prop
  | nil (cur : Partial) : Exchange validateUtf8 cur [] [] cur
  | ping {cur cur' : Partial} {frames : List ClientFrame} {events : List Event} (mask : Mask)
      {payload : Bytes} (hlen : payload.length < 125)
      (rest : Exchange validateUtf8 cur frames events cur') :
      Exchange validateUtf8 cur (controlOf opPing mask payload :: frames)
        (.sent (wsSendframe payload opPong) :: events) cur'
  | pong {cur cur' : Partial} {frames : List ClientFrame} {events : List Event} (mask : Mask)
      {payload : Bytes} (hlen : payload.length < 125)
      (rest : Exchange validateUtf8 cur frames events cur') :
      Exchange validateUtf8 cur (controlOf opPong mask payload :: frames) events cur'
  | fragment {cur cur' : Partial} {frames : List ClientFrame} {events : List Event}
      {f : ClientFrame} {type : UInt8} {sofar : Bytes} (hcur : Continues cur f.opcode type sofar)
      (hfin : f.fin = false) (hwidth : f.width.Expresses f.payload.length)
      (hmax : (sofar ++ f.payload).length ≤ maxFrameLength)
      (htext : validateUtf8 = true → type = opTxt → ∃ t, IsText (sofar ++ f.payload ++ t))
      (rest : Exchange validateUtf8 (some (type, sofar ++ f.payload)) frames events cur') :
      Exchange validateUtf8 cur (f :: frames) events cur'
  | message {cur cur' : Partial} {frames : List ClientFrame} {events : List Event}
      {f : ClientFrame} {type : UInt8} {sofar : Bytes} (hcur : Continues cur f.opcode type sofar)
      (hfin : f.fin = true) (hwidth : f.width.Expresses f.payload.length)
      (hmax : (sofar ++ f.payload).length ≤ maxFrameLength)
      (htext : validateUtf8 = true → type = opTxt → IsText (sofar ++ f.payload))
      (rest : Exchange validateUtf8 none frames events cur') :
      Exchange validateUtf8 cur (f :: frames) (.onmessage
        (sofar ++ f.payload ++ terminator true (sofar ++ f.payload).length)
        (sofar ++ f.payload).length type :: events) cur'

/-- The rest of the program lets the connection be: the client is not closed, and sends and
allocations succeed. -/
structure Willing (env : Env) : Prop where
  closing : env.closing = false
  reallocOk : env.reallocOk = true
  sendOk : env.sendOk = true

/-! ## A frame -/

theorem first_bits (fin : Bool) {opcode : UInt8} (h : opcode < 16) :
    ((if fin then 0x80 else 0) ||| opcode) &&& 0x70 = 0 ∧
      ((if fin then 0x80 else 0) ||| opcode) &&& 0xf = opcode ∧
      decide (((if fin then 0x80 else 0) ||| opcode) >>> 7 ≠ 0) = fin := by
  have key : ∀ fin : Bool, ∀ n : Fin 16,
      ((if fin then 0x80 else 0) ||| UInt8.ofNat n) &&& 0x70 = 0 ∧
        ((if fin then 0x80 else 0) ||| UInt8.ofNat n) &&& 0xf = UInt8.ofNat n ∧
        decide (((if fin then 0x80 else 0) ||| UInt8.ofNat n) >>> 7 ≠ 0) = fin := by decide
  have hn := key fin ⟨opcode.toNat, UInt8.lt_iff_toNat_lt.1 h⟩
  rwa [UInt8.ofNat_toNat] at hn

theorem layout_saysLength {first : UInt8} {width : Width} {mask : Mask} {payload : Bytes}
    (h : width.Expresses payload.length) : ∃ second ext,
      layout first width (some mask) payload =
        first :: second :: (ext ++ (mask.1 ++ applyMask mask.1 payload)) ∧
      SaysLength payload.length second ext :=
  ⟨_, _, rfl, width, h, (second_maskBit (some mask) (lowBits_lt h)).2, rfl⟩

/-- The part of a message that a state has. -/
structure Holding (validateUtf8 : Bool) (cur : Partial) (w : State) : Prop where
  good : Good validateUtf8 w
  type : w.frameType = cur.map Prod.fst
  data : w.msgData = (cur.map Prod.snd).getD []

section
variable {validateUtf8 : Bool} {env : Env} {w : State} {cur : Partial} {mask : Mask}
  {opcode : UInt8} {payload rest : Bytes}

theorem opcode_lt (h : isControlFrame opcode = true) : opcode < 16 ∧ opcode ≠ opCont := by
  rcases (control_cases opcode).1 h with rfl | rfl | rfl <;> decide

/-- A control frame is taken up to its length. -/
theorem frameStep_control (henv : Willing env) (hop : isControlFrame opcode = true)
    (hlen : payload.length ≤ 125)
    (hs : w.source.stream = (controlOf opcode mask payload).bytes ++ rest) :
    ∃ s' second, SaysLength payload.length second [] ∧
      s'.stream = mask.1 ++ (applyMask mask.1 payload ++ rest) ∧
      frameStep validateUtf8 env w = controlFrame validateUtf8 env (w.behindHeader opcode s')
        opcode true (second &&& 0x7f).toNat := by
  obtain ⟨hlt, hcont⟩ := opcode_lt hop
  obtain ⟨hrsv, hopcode, hfin⟩ := first_bits true hlt
  have hshort : Width.short.Expresses payload.length := Nat.lt_succ_of_le hlen
  have hsaid : SaysLength payload.length (maskBit (some mask) ||| Width.lowBits .short
      payload.length) [] :=
    ⟨.short, hshort, (second_maskBit (some mask) (lowBits_lt hshort)).2, rfl⟩
  have hlow := (second_maskBit (some mask) (lowBits_lt hshort)).2
  have hacc : Accepted env w.frameType ((if true then 0x80 else 0) ||| opcode)
      (maskBit (some mask) ||| Width.lowBits .short payload.length) := by
    refine ⟨hrsv, ?_, ?_, ?_, fun _ => ⟨of_decide_eq_true hfin, ?_⟩⟩
    · rw [hopcode]
      rintro (⟨-, h⟩ | ⟨-, h, -⟩)
      · exact hcont h
      · exact h hop
    · rw [hopcode]
      rcases (control_cases opcode).1 hop with h | h | h
      · exact .inr (.inr (.inr (.inr (.inr h))))
      · exact .inr (.inr (.inr (.inl h)))
      · exact .inr (.inr (.inr (.inr (.inl h))))
    · rw [henv.closing]
      exact fun h => Bool.false_ne_true h.1
    · rw [hlow, Width.lowBits, UInt8.toNat_ofNat_of_lt' (Nat.lt_of_le_of_lt hlen (by decide))]
      exact hlen
  obtain ⟨s', hs', hstep⟩ := @frameStep_accepted validateUtf8 env w _ _
    (mask.1 ++ (applyMask mask.1 payload ++ rest)) hacc
    (by
      rw [hs]
      simp [ClientFrame.bytes, ClientFrame.first, controlOf, layout, Width.ext, maskBytes, body])
  rw [hopcode, frameBody, hopcode, if_pos hop] at hstep
  exact ⟨s', _, hsaid, hs', hstep⟩

/-- A data frame comes in its order. -/
theorem Continues.order {type : UInt8} {sofar : Bytes} (h : Holding validateUtf8 cur w)
    (hcur : Continues cur opcode type sofar) :
    opcode < 16 ∧ isControlFrame opcode = false ∧
      (opcode = opTxt ∨ opcode = opBin ∨ opcode = opCont) ∧
      ¬ ((w.frameType = none ∧ opcode = opCont) ∨
        (w.frameType ≠ none ∧ ¬ isControlFrame opcode ∧ opcode ≠ opCont)) ∧
      typeBehind w.frameType opcode = some type ∧ w.msgData = sofar := by
  cases hcur with
  | first htype =>
    have hnone : w.frameType = none := h.type
    rw [hnone]
    rcases htype with rfl | rfl
    · exact ⟨by decide, by decide, .inl rfl, by decide, by decide, h.data⟩
    · exact ⟨by decide, by decide, .inr (.inl rfl), by decide, by decide, h.data⟩
  | next sofar htype =>
    have hsome : w.frameType = some type := h.type
    rw [hsome]
    refine ⟨by decide, by decide, .inr (.inr rfl), ?_, rfl, h.data⟩
    rintro (⟨hnone, -⟩ | ⟨-, -, hne⟩)
    · cases hnone
    · exact hne rfl

/-- The first two bytes of a data frame. -/
theorem frameStep_header {type second : UInt8} {sofar : Bytes} {fin : Bool} (henv : Willing env)
    (h : Holding validateUtf8 cur w) (hcur : Continues cur opcode type sofar)
    (hs : w.source.stream = ((if fin then 0x80 else 0) ||| opcode) :: second :: rest) :
    ∃ s', s'.stream = rest ∧ isControlFrame opcode = false ∧
      Holding validateUtf8 (some (type, sofar)) (w.behindHeader opcode s') ∧
      frameStep validateUtf8 env w = dataFrame validateUtf8 env (w.behindHeader opcode s')
        opcode fin (second &&& 0x7f).toNat := by
  obtain ⟨hlt, hdata, hknown, horder, htype, hsofar⟩ := hcur.order h
  obtain ⟨hrsv, hopcode, hfin⟩ := first_bits fin hlt
  have hacc : Accepted env w.frameType ((if fin then 0x80 else 0) ||| opcode) second := by
    refine ⟨hrsv, ?_, ?_, ?_, ?_⟩
    · rw [hopcode]
      exact horder
    · rw [hopcode]
      exact hknown.imp_right fun h => h.imp_right .inl
    · rw [henv.closing]
      exact fun h => Bool.false_ne_true h.1
    · rw [hopcode, hdata]
      exact fun h => absurd h Bool.false_ne_true
  obtain ⟨s', hs', hstep⟩ := @frameStep_accepted validateUtf8 env w _ _ rest hacc hs
  have hgood := (h.good.behindHeader hacc s').1
  rw [hopcode] at hgood
  rw [frameBody, hopcode, hdata, if_neg Bool.false_ne_true, hfin] at hstep
  exact ⟨s', hs', hdata, ⟨hgood, htype, hsofar⟩, hstep⟩

/-- A data frame is taken up to its length. -/
theorem frameStep_data {f : ClientFrame} {type : UInt8} {sofar : Bytes} (henv : Willing env)
    (h : Holding validateUtf8 cur w) (hcur : Continues cur f.opcode type sofar)
    (hwidth : f.width.Expresses f.payload.length) (hs : w.source.stream = f.bytes ++ rest) :
    ∃ s' second ext, SaysLength f.payload.length second ext ∧
      isControlFrame f.opcode = false ∧
      s'.stream = ext ++ (f.mask.1 ++ (applyMask f.mask.1 f.payload ++ rest)) ∧
      Holding validateUtf8 (some (type, sofar)) (w.behindHeader f.opcode s') ∧
      frameStep validateUtf8 env w = dataFrame validateUtf8 env (w.behindHeader f.opcode s')
        f.opcode f.fin (second &&& 0x7f).toNat := by
  obtain ⟨second, ext, hbytes, hsaid⟩ := @layout_saysLength f.first f.width f.mask f.payload hwidth
  obtain ⟨s', hs', hdata, hheld, hstep⟩ := @frameStep_header validateUtf8 env w cur f.opcode
    (ext ++ (f.mask.1 ++ (applyMask f.mask.1 f.payload ++ rest))) type second sofar f.fin henv h
    hcur (by rw [hs, ClientFrame.bytes, hbytes]; simp [ClientFrame.first])
  exact ⟨s', second, ext, hsaid, hdata, hs', hheld, hstep⟩

/-- The block behind a data frame that is read whole. -/
theorem dataFrame_read {type : UInt8} {sofar ext : Bytes} {second : UInt8} (henv : Willing env)
    (h : Holding validateUtf8 (some (type, sofar)) w) (hop : isControlFrame opcode = false)
    (hsaid : SaysLength payload.length second ext)
    (hs : w.source.stream = ext ++ (mask.1 ++ (applyMask mask.1 payload ++ rest)))
    (hmax : (sofar ++ payload).length ≤ maxFrameLength) (isFin : Bool) :
    ∃ s', s'.stream = rest ∧
      readFrame opcode w.msgData (second &&& 0x7f).toNat w.frameSize w.msgIdxData isFin
        env.reallocOk w.source = .ok ⟨s', sofar ++ (payload ++ terminator isFin
          (sofar ++ payload).length), payload.length, (sofar ++ payload).length,
          (sofar ++ payload).length⟩ := by
  have hdata : w.msgData = sofar := h.data
  obtain ⟨hsize, hidx⟩ := h.good.size
  rw [hidx, ← hsize, henv.reallocOk, hdata]
  rw [List.length_append] at hmax ⊢
  exact readFrame_fragment hop hsaid mask.2 hs hmax

/-- **A fragment** is put behind the others. -/
theorem frameStep_fragment {f : ClientFrame} {type : UInt8} {sofar : Bytes} (henv : Willing env)
    (h : Holding validateUtf8 cur w) (hcur : Continues cur f.opcode type sofar)
    (hfin : f.fin = false) (hwidth : f.width.Expresses f.payload.length)
    (hmax : (sofar ++ f.payload).length ≤ maxFrameLength)
    (htext : validateUtf8 = true → type = opTxt → ∃ t, IsText (sofar ++ f.payload ++ t))
    (hs : w.source.stream = f.bytes ++ rest) :
    ∃ w', frameStep validateUtf8 env w = .more w' ∧
      Holding validateUtf8 (some (type, sofar ++ f.payload)) w' ∧ w'.source.stream = rest ∧
      w'.log = w.log := by
  obtain ⟨s', second, ext, hsaid, hop, hs', hheld, hstep⟩ := frameStep_data henv h hcur hwidth hs
  obtain ⟨s'', hs'', hread⟩ := dataFrame_read henv hheld hop hsaid hs' hmax f.fin
  have hok := @frameStep_ok validateUtf8 env w h.good
  have htype : (w.behindHeader f.opcode s').frameType = some type := hheld.type
  have hdata : (w.behindHeader f.opcode s').msgData = sofar := hheld.data
  rw [hstep, dataFrame, hread] at hok ⊢
  dsimp only at hok ⊢
  rw [hfin] at hok ⊢
  have hpart : ((sofar ++ (f.payload ++ terminator false (sofar ++ f.payload).length)).drop
      ((sofar ++ f.payload).length - f.payload.length)).take f.payload.length = f.payload := by
    rw [List.length_append, part_eq]
  rw [hpart] at hok ⊢
  have hterm : terminator false (sofar ++ f.payload).length = [] := by simp [terminator]
  by_cases hvalid : validateUtf8 = true ∧ (w.behindHeader f.opcode s').frameType = some opTxt
  · obtain ⟨hv, ht⟩ := hvalid
    obtain ⟨state, hrun, -, -, hreject⟩ := hheld.good.text_run hv ht f.payload
    rw [hdata] at hreject
    have hgo : state ≠ utf8Reject := by
      obtain ⟨t, ht'⟩ := htext hv (Option.some.inj (htype.symm.trans ht))
      exact fun heq => hreject.1 heq t ht'
    rw [if_pos ⟨hv, ht⟩, hrun] at hok ⊢
    dsimp only at hok ⊢
    rw [if_neg Bool.false_ne_true, if_neg hgo] at hok ⊢
    exact ⟨_, rfl, ⟨hok.1, htype, by rw [hterm, List.append_nil]; rfl⟩, hs'', rfl⟩
  · rw [if_neg hvalid, if_neg Bool.false_ne_true] at hok ⊢
    exact ⟨_, rfl, ⟨hok.1, htype, by rw [hterm, List.append_nil]; rfl⟩, hs'', rfl⟩

/-- **The last fragment** completes its message. -/
theorem frameStep_message {f : ClientFrame} {type : UInt8} {sofar : Bytes} (henv : Willing env)
    (h : Holding validateUtf8 cur w) (hcur : Continues cur f.opcode type sofar)
    (hfin : f.fin = true) (hwidth : f.width.Expresses f.payload.length)
    (hmax : (sofar ++ f.payload).length ≤ maxFrameLength)
    (htext : validateUtf8 = true → type = opTxt → IsText (sofar ++ f.payload))
    (hs : w.source.stream = f.bytes ++ rest) :
    ∃ w', frameStep validateUtf8 env w = .done (.frame w') ∧ Idle validateUtf8 w' ∧
      w'.frameType = some type ∧ w'.msgData =
        sofar ++ f.payload ++ terminator true (sofar ++ f.payload).length ∧
      w'.frameSize = (sofar ++ f.payload).length ∧ w'.source.stream = rest ∧ w'.log = w.log := by
  obtain ⟨s', second, ext, hsaid, hop, hs', hheld, hstep⟩ := frameStep_data henv h hcur hwidth hs
  obtain ⟨s'', hs'', hread⟩ := dataFrame_read henv hheld hop hsaid hs' hmax f.fin
  have hok := @frameStep_ok validateUtf8 env w h.good
  have htype : (w.behindHeader f.opcode s').frameType = some type := hheld.type
  have hdata : (w.behindHeader f.opcode s').msgData = sofar := hheld.data
  rw [hstep, dataFrame, hread] at hok ⊢
  dsimp only at hok ⊢
  rw [hfin] at hok ⊢
  have hpart : ((sofar ++ (f.payload ++ terminator true (sofar ++ f.payload).length)).drop
      ((sofar ++ f.payload).length - f.payload.length)).take f.payload.length = f.payload := by
    rw [List.length_append, part_eq]
  rw [hpart] at hok ⊢
  by_cases hvalid : validateUtf8 = true ∧ (w.behindHeader f.opcode s').frameType = some opTxt
  · obtain ⟨hv, ht⟩ := hvalid
    obtain ⟨state, hrun, -, haccept, -⟩ := hheld.good.text_run hv ht f.payload
    rw [hdata] at haccept
    have hstate : state = utf8Accept :=
      haccept.2 (htext hv (Option.some.inj (htype.symm.trans ht)))
    rw [if_pos ⟨hv, ht⟩, hrun] at hok ⊢
    dsimp only at hok ⊢
    rw [if_pos rfl, if_neg (not_not.2 hstate)] at hok ⊢
    exact ⟨_, rfl, ⟨hok.1.ctrl, hok.1.log⟩, htype, (List.append_assoc _ _ _).symm, rfl, hs'', rfl⟩
  · rw [if_neg hvalid, if_pos rfl] at hok ⊢
    exact ⟨_, rfl, ⟨hok.1.ctrl, hok.1.log⟩, htype, (List.append_assoc _ _ _).symm, rfl, hs'', rfl⟩

/-- What a control frame does when it is read whole. -/
theorem frameStep_controlled (henv : Willing env) (h : Holding validateUtf8 cur w)
    (hop : isControlFrame opcode = true) (hlen : payload.length ≤ 125)
    (hs : w.source.stream = (controlOf opcode mask payload).bytes ++ rest) :
    if payload.length = 125 then frameStep validateUtf8 env w = .done (.fault (.store true 125))
    else ∃ (s s' : Source) (second : UInt8) (msgCtrl : Bytes), s'.stream = rest ∧
      msgCtrl.take payload.length = payload ∧
      readFrame opcode w.msgCtrl (second &&& 0x7f).toNat 0 0 true env.reallocOk s =
        .ok ⟨s', msgCtrl, payload.length, payload.length, payload.length⟩ ∧
      (w.behindHeader opcode s).frameType = w.frameType ∧
      frameStep validateUtf8 env w = controlFrame validateUtf8 env (w.behindHeader opcode s)
        opcode true (second &&& 0x7f).toNat := by
  obtain ⟨s, second, hsaid, hs₁, hstep⟩ :=
    @frameStep_control validateUtf8 env w mask opcode payload rest henv hop hlen hs
  have hread := @readFrame_controlled opcode second env.reallocOk s w.msgCtrl [] mask.1 rest payload
    hop h.good.ctrl hsaid mask.2 hs₁ hlen
  have htype : (w.behindHeader opcode s).frameType = w.frameType := by
    rw [State.behindHeader, typeBehind, if_neg (by simp [hop])]
  split_ifs at hread ⊢ with hfull
  · rw [hstep, controlFrame]
    rw [show (w.behindHeader opcode s).msgCtrl = w.msgCtrl from rfl,
      show (w.behindHeader opcode s).source = s from rfl, hread]
    rfl
  · obtain ⟨s', msgCtrl, hs', htake, hread⟩ := hread
    exact ⟨s, s', second, msgCtrl, hs', htake, hread, htype, hstep⟩

/-- **A ping** is answered with its payload, and leaves the message as it is. -/
theorem frameStep_ping (henv : Willing env) (h : Holding validateUtf8 cur w)
    (hlen : payload.length < 125)
    (hs : w.source.stream = (controlOf opPing mask payload).bytes ++ rest) :
    ∃ w', frameStep validateUtf8 env w = .more w' ∧ Holding validateUtf8 cur w' ∧
      w'.source.stream = rest ∧ w'.log = w.log ++ [.sent (wsSendframe payload opPong)] := by
  have hread := frameStep_controlled henv h (by decide) (Nat.le_of_lt hlen) hs
  rw [if_neg (Nat.ne_of_lt hlen)] at hread
  obtain ⟨s, s', second, msgCtrl, hs', htake, hread, htype, hstep⟩ := hread
  have hok := @frameStep_ok validateUtf8 env w h.good
  rw [hstep, controlFrame, show (w.behindHeader opPing s).msgCtrl = w.msgCtrl from rfl,
    show (w.behindHeader opPing s).source = s from rfl, hread] at hok ⊢
  dsimp only at hok ⊢
  rw [if_neg (by decide), if_pos rfl, if_pos henv.sendOk, htake] at hok ⊢
  exact ⟨_, rfl, ⟨hok.1, htype.trans h.type, h.data⟩, hs', rfl⟩

/-- **A pong** leaves the message as it is. -/
theorem frameStep_pong (henv : Willing env) (h : Holding validateUtf8 cur w)
    (hlen : payload.length < 125)
    (hs : w.source.stream = (controlOf opPong mask payload).bytes ++ rest) :
    ∃ w', frameStep validateUtf8 env w = .more w' ∧ Holding validateUtf8 cur w' ∧
      w'.source.stream = rest ∧ w'.log = w.log := by
  have hread := frameStep_controlled henv h (by decide) (Nat.le_of_lt hlen) hs
  rw [if_neg (Nat.ne_of_lt hlen)] at hread
  obtain ⟨s, s', second, msgCtrl, hs', htake, hread, htype, hstep⟩ := hread
  have hok := @frameStep_ok validateUtf8 env w h.good
  rw [hstep, controlFrame, show (w.behindHeader opPong s).msgCtrl = w.msgCtrl from rfl,
    show (w.behindHeader opPong s).source = s from rfl, hread] at hok ⊢
  dsimp only at hok ⊢
  rw [if_pos rfl] at hok ⊢
  split_ifs at hok ⊢
  · exact ⟨_, rfl, ⟨hok.1, htype.trans h.type, h.data⟩, hs', rfl⟩
  · exact ⟨_, rfl, ⟨hok.1, htype.trans h.type, h.data⟩, hs', rfl⟩

/-- **A close frame** ends the loop, with its payload in `msg_ctrl`. -/
theorem frameStep_close (henv : Willing env) (h : Holding validateUtf8 cur w)
    (hlen : payload.length < 125) (htext : validateUtf8 = true → IsText (payload.drop 2))
    (hs : w.source.stream = (controlOf opClse mask payload).bytes ++ rest) :
    ∃ w', frameStep validateUtf8 env w = .done (.frame w') ∧ w'.frameType = some opClse ∧
      w'.frameSize = payload.length ∧ w'.msgCtrl.take payload.length = payload ∧
      w'.log = w.log := by
  have hread := frameStep_controlled henv h (by decide) (Nat.le_of_lt hlen) hs
  rw [if_neg (Nat.ne_of_lt hlen)] at hread
  obtain ⟨s, s', second, msgCtrl, hs', htake, hread, htype, hstep⟩ := hread
  rw [hstep, controlFrame, show (w.behindHeader opClse s).msgCtrl = w.msgCtrl from rfl,
    show (w.behindHeader opClse s).source = s from rfl, hread]
  dsimp only
  rw [if_neg (by decide), if_neg (by decide)]
  split_ifs with hvalid
  · have hreason : (msgCtrl.drop 2).take (payload.length - 2) = payload.drop 2 := by
      rw [← List.drop_take, htake]
    obtain ⟨valid, hrun, hiff⟩ := isUtf8Len_text (payload.drop 2)
    rw [hreason, hrun]
    dsimp only
    rw [if_pos (hiff.2 (htext hvalid.1))]
    exact ⟨_, rfl, rfl, rfl, htake, rfl⟩
  · exact ⟨_, rfl, rfl, rfl, htake, rfl⟩

end

/-! ## A session -/

/-- What the server does from a state on. -/
def resume (validateUtf8 : Bool) (env : Nat → Env) (w : State) : End :=
  deliver env (serve validateUtf8 env) (nextFrom validateUtf8 env w)

/-- The bytes of frames. -/
def bytesOf (frames : List ClientFrame) : Bytes := frames.flatMap ClientFrame.bytes

section
variable {validateUtf8 : Bool} {env : Nat → Env} {w : State} {cur cur' : Partial}
  {frames : List ClientFrame} {events : List Event} {rest : Bytes}

theorem Continues.type {opcode type : UInt8} {sofar : Bytes}
    (h : Continues cur opcode type sofar) : type = opTxt ∨ type = opBin := by
  cases h with
  | first h => exact h
  | next sofar h => exact h

/-- A message is handed on, and the next one is waited for. -/
theorem resume_message {w₁ : State} {payload : Bytes} {type : UInt8}
    (hstep : frameStep validateUtf8 (env w.frames) w = .done (.frame w₁))
    (hidle : Idle validateUtf8 w₁) (htype : w₁.frameType = some type)
    (hdata : type = opTxt ∨ type = opBin)
    (hmsg : w₁.msgData = payload ++ terminator true payload.length)
    (hsize : w₁.frameSize = payload.length) (hmax : payload.length ≤ maxFrameLength)
    (htext : validateUtf8 = true → type = opTxt → IsText payload) :
    ∃ w', Idle validateUtf8 w' ∧ w'.source = w₁.source ∧
      w'.log = w₁.log ++ [.onmessage (payload ++ terminator true payload.length) payload.length
        type] ∧ resume validateUtf8 env w = resume validateUtf8 env w'.start := by
  have hdata' : w₁.frameType = some opTxt ∨ w₁.frameType = some opBin := by
    rw [htype]
    exact hdata.imp (congrArg some) (congrArg some)
  have hevent : Event.onmessage w₁.msgData w₁.frameSize (w₁.frameType.getD 0) =
      .onmessage (payload ++ terminator true payload.length) payload.length type := by
    rw [hmsg, hsize, htype, Option.getD_some]
  have hok : EventOk validateUtf8 (.onmessage (payload ++ terminator true payload.length)
      payload.length type) := ⟨payload, hmax, rfl, rfl, hdata, htext⟩
  have hidle' : Idle validateUtf8 { w₁ with
      log := w₁.log ++ [.onmessage w₁.msgData w₁.frameSize (w₁.frameType.getD 0)] } :=
    ⟨hidle.ctrl, log_append hidle.log (hevent ▸ hok)⟩
  refine ⟨_, hidle', rfl, congrArg (w₁.log ++ [·]) hevent, ?_⟩
  rw [resume, nextFrom_done hstep, deliver, if_pos hdata', serve_eq hidle']
  rfl

theorem Idle.holding (h : Idle validateUtf8 w) : Holding validateUtf8 none w.start :=
  ⟨h.good, rfl, rfl⟩

/-- **Frames by the protocol are answered by the protocol**, by induction on them. -/
theorem Exchange.resume (henv : ∀ i, Willing (env i))
    (h : Exchange validateUtf8 cur frames events cur') (hheld : Holding validateUtf8 cur w)
    (hs : w.source.stream = bytesOf frames ++ rest) :
    ∃ w', Holding validateUtf8 cur' w' ∧ w'.source.stream = rest ∧ w'.log = w.log ++ events ∧
      resume validateUtf8 env w = resume validateUtf8 env w' := by
  induction h generalizing w with
  | nil cur => exact ⟨w, hheld, hs, by simp, rfl⟩
  | ping mask hlen _ ih =>
    rw [bytesOf, List.flatMap_cons, List.append_assoc] at hs
    obtain ⟨w₁, hstep, hheld₁, hs₁, hlog⟩ := frameStep_ping (henv w.frames) hheld hlen hs
    obtain ⟨w', hheld', hs', hlog', hresume⟩ := ih hheld₁ hs₁
    refine ⟨w', hheld', hs', ?_, ?_⟩
    · rw [hlog', hlog, List.append_assoc]
      rfl
    · rw [← hresume, Ws.resume, nextFrom_more hheld.good hstep, Ws.resume]
  | pong mask hlen _ ih =>
    rw [bytesOf, List.flatMap_cons, List.append_assoc] at hs
    obtain ⟨w₁, hstep, hheld₁, hs₁, hlog⟩ := frameStep_pong (henv w.frames) hheld hlen hs
    obtain ⟨w', hheld', hs', hlog', hresume⟩ := ih hheld₁ hs₁
    refine ⟨w', hheld', hs', by rw [hlog', hlog], ?_⟩
    rw [← hresume, Ws.resume, nextFrom_more hheld.good hstep, Ws.resume]
  | fragment hcur hfin hwidth hmax htext _ ih =>
    rw [bytesOf, List.flatMap_cons, List.append_assoc] at hs
    obtain ⟨w₁, hstep, hheld₁, hs₁, hlog⟩ :=
      frameStep_fragment (henv w.frames) hheld hcur hfin hwidth hmax htext hs
    obtain ⟨w', hheld', hs', hlog', hresume⟩ := ih hheld₁ hs₁
    refine ⟨w', hheld', hs', by rw [hlog', hlog], ?_⟩
    rw [← hresume, Ws.resume, nextFrom_more hheld.good hstep, Ws.resume]
  | @message cur cur' frames events f type sofar hcur hfin hwidth hmax htext _ ih =>
    rw [bytesOf, List.flatMap_cons, List.append_assoc] at hs
    obtain ⟨w₁, hstep, hidle, htype, hdata, hsize, hs₁, hlog⟩ :=
      frameStep_message (henv w.frames) hheld hcur hfin hwidth hmax htext hs
    obtain ⟨w₂, hidle₂, hsource, hlog₂, hdeliver⟩ :=
      resume_message hstep hidle htype hcur.type hdata hsize hmax htext
    obtain ⟨w', hheld', hs', hlog', hresume⟩ := @ih w₂.start hidle₂.holding
      (show w₂.source.stream = _ by rw [hsource, hs₁]; rfl)
    refine ⟨w', hheld', hs', ?_, by rw [hdeliver, hresume]⟩
    rw [hlog', show w₂.start.log = w₂.log from rfl, hlog₂, hlog, List.append_assoc]
    rfl

theorem resume_end (h : w.source.stream = []) :
    resume validateUtf8 env w = .closed (w.log ++ [.onclose]) := by
  rcases frameStep_cases validateUtf8 (env w.frames) w with ⟨w', hstep, hlog⟩ |
    ⟨first, second, s', hs, -, -⟩
  · rw [resume, nextFrom_done hstep, deliver, hlog]
  · rw [h] at hs
    cases hs

end

/-! ## The end of a session -/

/-- The codes that a close frame may carry. -/
def CodeAllowed (cc : Nat) : Prop :=
  1000 ≤ cc ∧ cc ≤ 1003 ∨ 1007 ≤ cc ∧ cc ≤ 1011 ∨ 3000 ≤ cc ∧ cc ≤ 4999

instance (cc : Nat) : Decidable (CodeAllowed cc) := by
  unfold CodeAllowed
  infer_instance

/-- The answer to a close frame: its payload, or a protocol error if there is half a code in it, or
one that is not allowed and no reason. -/
def closeReply (payload : Bytes) : Bytes :=
  if payload.length = 1 ∨ payload.length = 2 ∧
      ¬ CodeAllowed ((payload.byteAt 0).toNat * 256 + (payload.byteAt 1).toNat) then
    wsSendframe [0x03, 0xea] opClse
  else wsSendframe payload opClse

theorem doClose_reply {msgCtrl payload : Bytes} (h : msgCtrl.take payload.length = payload) :
    doClose msgCtrl payload.length none = closeReply payload := by
  have hbyte {i : Nat} (hi : i < payload.length) : msgCtrl.byteAt i = payload.byteAt i := by
    conv_rhs => rw [← h]
    simp only [byteAt, List.getD_eq_getElem?_getD, List.getElem?_take_of_lt hi]
  simp only [doClose, h]
  unfold closeReply CodeAllowed
  by_cases hcode : payload.length = 0 ∨ payload.length > 2
  · rw [if_pos hcode, if_neg (by omega)]
  rw [if_neg hcode]
  by_cases hone : payload.length = 1
  · have hlt := (payload.byteAt 0).toNat_lt
    rw [if_pos hone, hbyte (by omega), if_pos (by omega), if_pos (.inl hone)]
    rfl
  · rw [if_neg hone, hbyte (by omega), hbyte (by omega), shiftLeft_or (UInt8.toNat_lt _)]
    by_cases hbad : ¬ CodeAllowed ((payload.byteAt 0).toNat * 256 + (payload.byteAt 1).toNat)
    · have hbad' := hbad
      unfold CodeAllowed at hbad'
      rw [if_pos (by omega), if_pos (.inr ⟨by omega, hbad⟩)]
      rfl
    · have hgood := not_not.1 hbad
      unfold CodeAllowed at hgood
      rw [if_neg (by omega), if_neg]
      rintro (h | ⟨-, h⟩)
      · exact hone h
      · exact hbad h

/-- The client closes. -/
theorem resume_close {validateUtf8 : Bool} {env : Nat → Env} {w : State} {cur : Partial}
    {mask : Mask} {payload rest : Bytes} (henv : ∀ i, Willing (env i))
    (h : Holding validateUtf8 cur w) (hlen : payload.length < 125)
    (htext : validateUtf8 = true → IsText (payload.drop 2))
    (hs : w.source.stream = (controlOf opClse mask payload).bytes ++ rest) :
    resume validateUtf8 env w = .closed (w.log ++ [.sent (closeReply payload), .onclose]) := by
  obtain ⟨w', hstep, htype, hsize, hmsg, hlog⟩ :=
    frameStep_close (henv w.frames) h hlen htext hs
  have hdata : ¬ (w'.frameType = some opTxt ∨ w'.frameType = some opBin) := by
    rw [htype]
    decide
  rw [resume, nextFrom_done hstep, deliver, if_neg hdata, if_pos htype,
    (henv w'.frames).closing, (henv w'.frames).sendOk, hsize, doClose_reply hmsg,
    if_neg Bool.false_ne_true, State.send, if_pos rfl]
  simp [hlog]

/-- **A session leads to the state in which its last message is held**, with its events. -/
theorem serve_resume {validateUtf8 : Bool} {env : Nat → Env} {frames : List ClientFrame}
    {events : List Event} {cur : Partial} {s : Source} {last : Bytes}
    (henv : ∀ i, Willing (env i)) (h : Exchange validateUtf8 none frames events cur)
    (hs : s.stream = bytesOf frames ++ last) :
    ∃ w : State, Holding validateUtf8 cur w ∧ w.source.stream = last ∧ w.log = events ∧
      serve validateUtf8 env { source := s } = resume validateUtf8 env w := by
  have hidle := idle_source validateUtf8 s
  obtain ⟨w, hheld, hs', hlog, hresume⟩ := h.resume henv hidle.holding hs
  refine ⟨w, hheld, hs', hlog, ?_⟩
  rw [serve_eq hidle, ← hresume]
  rfl

/-- **A session**, however its frames are cut on their way: the server hands on the messages, put
together from their fragments, answers the pings that come between them, and has nothing else to
do when the client goes or closes. -/
theorem serve_exchange {validateUtf8 : Bool} {env : Nat → Env} {frames : List ClientFrame}
    {events : List Event} {cur : Partial} {s : Source} {last : Bytes}
    (henv : ∀ i, Willing (env i)) (h : Exchange validateUtf8 none frames events cur)
    (hs : s.stream = bytesOf frames ++ last) :
    (last = [] → serve validateUtf8 env { source := s } = .closed (events ++ [.onclose])) ∧
    ∀ (mask : Mask) (payload rest : Bytes), payload.length < 125 →
      (validateUtf8 = true → IsText (payload.drop 2)) →
      last = (controlOf opClse mask payload).bytes ++ rest →
      serve validateUtf8 env { source := s } =
        .closed (events ++ [.sent (closeReply payload), .onclose]) := by
  obtain ⟨w, hheld, hs', hevents, hserve⟩ := serve_resume henv h hs
  constructor
  · rintro rfl
    rw [hserve, resume_end hs', hevents]
  · rintro mask payload rest hlen htext rfl
    rw [hserve, resume_close henv hheld hlen htext hs', hevents]

/-- A text in two fragments with a ping between them. -/
def smallSession : List ClientFrame :=
  [⟨false, opTxt, .short, ⟨[2, 3, 5, 7], rfl⟩, [0x48]⟩, controlOf opPing ⟨[5, 6, 7, 8], rfl⟩ [9],
    ⟨true, opCont, .medium, ⟨[2, 3, 5, 7], rfl⟩, [0x69]⟩]

theorem smallSession_exchange : Exchange true none smallSession
    [.sent (wsSendframe [9] opPong), .onmessage [0x48, 0x69, 0] 2 opTxt] none := by
  refine .fragment (.first (.inl rfl)) rfl (show 1 < 126 by decide) (by decide)
    (fun _ _ => ⟨[], ['H'], by decide⟩) ?_
  refine .ping _ (by decide) ?_
  exact @Exchange.message true _ _ [] [] ⟨true, opCont, .medium, ⟨[2, 3, 5, 7], rfl⟩, [0x69]⟩ opTxt
    [0x48] (.next [0x48] (.inl rfl)) rfl (show 1 < 2 ^ 16 by decide) (by decide)
    (fun _ _ => ⟨['H', 'i'], by decide⟩) (.nil none)

/-- What is sent in a session, in two pieces. -/
def twoPieces (stream : Bytes) : Source :=
  { socket := [.data (stream.take 10), .data (stream.drop 10)] }

theorem twoPieces_stream {stream : Bytes} (h : 10 < stream.length) :
    (twoPieces stream).stream = stream := by
  have htake : stream.take 10 ≠ [] := by
    rw [Ne, List.take_eq_nil_iff]
    rintro (h | rfl)
    · cases h
    · exact absurd h (by decide)
  have hdrop : stream.drop 10 ≠ [] := by
    rw [Ne, List.drop_eq_nil_iff]
    omega
  obtain ⟨a, as, ha⟩ := List.exists_cons_of_ne_nil htake
  obtain ⟨b, bs, hb⟩ := List.exists_cons_of_ne_nil hdrop
  show received [.data (stream.take 10), .data (stream.drop 10)] = stream
  conv_rhs => rw [← List.take_append_drop 10 stream, ha, hb]
  rw [ha, hb]
  simp [received]

theorem serve_exchange_smallSession :
    serve true (fun _ => {}) { source := twoPieces (bytesOf smallSession ++
        ((controlOf opClse ⟨[2, 3, 5, 7], rfl⟩ [3, 232]).bytes ++ [])) } =
      .closed [.sent (wsSendframe [9] opPong), .onmessage [0x48, 0x69, 0] 2 opTxt,
        .sent (closeReply [3, 232]), .onclose] :=
  (serve_exchange (fun _ => ⟨rfl, rfl, rfl⟩) smallSession_exchange
    (twoPieces_stream (by decide))).2 _ _ _ (by decide) (fun _ => ⟨[], rfl⟩) rfl

/-- Behind a session that has begun a message of `sofar`, a frame of the protocol that is longer
than the code has room for. -/
theorem serve_overruns {validateUtf8 : Bool} {env : Nat → Env} {frames : List ClientFrame}
    {events : List Event} {cur : Partial} {s : Source} {last : Bytes}
    (henv : ∀ i, Willing (env i)) (h : Exchange validateUtf8 none frames events cur)
    (hs : s.stream = bytesOf frames ++ last) :
    (∀ (opcode : UInt8) (mask : Mask) (payload rest : Bytes), isControlFrame opcode = true →
      payload.length = 125 → last = (controlOf opcode mask payload).bytes ++ rest →
      serve validateUtf8 env { source := s } = .fault (.store true 125)) ∧
    ∀ (type : UInt8) (sofar : Bytes) (fin : Bool) (second : UInt8) (ext : Bytes) (length : Nat)
      (mask : Mask) (b : UInt8) (rest : Bytes), cur = some (type, sofar) →
      SaysLength length second ext → 2 ^ 64 ≤ sofar.length + length →
      last = ((if fin then 0x80 else 0) ||| opCont) :: second :: (ext ++ (mask.1 ++ b :: rest)) →
      ∃ f, (f = .store false length ∨ f = .free length) ∧
        serve validateUtf8 env { source := s } = .fault f := by
  obtain ⟨w, hheld, hs', -, hserve⟩ := serve_resume henv h hs
  rw [hserve]
  constructor
  · rintro opcode mask payload rest hop hlen rfl
    have hfault := frameStep_controlled (henv w.frames) hheld hop (Nat.le_of_eq hlen) hs'
    rw [if_pos hlen] at hfault
    rw [resume, nextFrom_done hfault, deliver]
  · rintro type sofar fin second ext length mask b rest rfl hsaid hwrap rfl
    have htype := hheld.good.type type hheld.type
    obtain ⟨s', hs'', hop, hheld', hstep⟩ := frameStep_header (henv w.frames) hheld
      (.next sofar htype) hs'
    obtain ⟨hsize, hidx⟩ := hheld'.good.size
    have hsofar : (w.behindHeader opCont s').msgData = sofar := hheld'.data
    obtain ⟨f, hf, hread⟩ := @readFrame_wraps opCont second length fin s' sofar ext mask.1 rest b
      hop (by rw [← hsofar, hsize]; exact hheld'.good.max) hsaid hwrap mask.2 hs''
    refine ⟨f, hf, ?_⟩
    have hfault : frameStep validateUtf8 (env w.frames) w = .done (.fault f) := by
      rw [hstep, dataFrame, hidx, ← hsize, hsofar, (henv w.frames).reallocOk]
      rw [show (w.behindHeader opCont s').source = s' from rfl, hread]
      rfl
    rw [resume, nextFrom_done hfault, deliver]

theorem serve_overruns_smallSession :
    serve true (fun _ => {}) { source := twoPieces (bytesOf smallSession ++
        ((controlOf opPing ⟨[2, 3, 5, 7], rfl⟩ (List.replicate 125 0)).bytes ++ [])) } =
      .fault (.store true 125) :=
  (serve_overruns (fun _ => ⟨rfl, rfl, rfl⟩) smallSession_exchange
    (twoPieces_stream (by decide +kernel))).1 _ _ _ _ (by decide) List.length_replicate rfl

end Ws
