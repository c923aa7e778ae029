import CarplayRelay.Lib.Recv
import CarplayRelay.Lib.WebSocket
import CarplayRelay.Ws.Utf8

/-!
# Frames of the WebSocket server

`nextFrame` reads frames until it has a message or a close frame: it puts the fragments of a
message together, answers pings and takes note of pongs in between. Bytes come from `nextByte`,
which receives up to `messageLength` of them at a time. A write outside of a buffer is a `Fault`.

The state of the client, the results of its sends and those of `realloc` are given for each frame
(`Env`): other threads close the client and ping it.

`ws.c`, `handshake.c`, `sha1.c` and `utf8.c` of `wsh264/src` are in no build: `CMakeLists.txt` takes
the server from `3rd_party/wsfs`. `VALIDATE_UTF8` is defined nowhere, so that `validateUtf8` is a
parameter.
-/

namespace Ws

open Bytes Recv

def messageLength : Nat := 2048
def maxFrameLength : Nat := 16 * 1024 * 1024

def opCont : UInt8 := 0
def opTxt : UInt8 := 1
def opBin : UInt8 := 2
def opClse : UInt8 := 8
def opPing : UInt8 := 0x9
def opPong : UInt8 := 0xA

def clseProterr : Nat := 1002
def clseInvutf8 : Nat := 1007

def isControlFrame (opcode : UInt8) : Bool :=
  opcode = opClse ∨ opcode = opPing ∨ opcode = opPong

/-! ## Sending -/

/-- `ws_sendframe` to one client: the bytes given to `send_all`. -/
def wsSendframe (msg : Bytes) (type : UInt8) : Bytes :=
  let length := msg.length
  let frame : Bytes :=
    if length ≤ 125 then [0x80 ||| type, UInt8.ofNat (length &&& 0x7f)]
    else if length ≤ 65535 then
      [0x80 ||| type, 126, UInt8.ofNat (length >>> 8 &&& 255), UInt8.ofNat (length &&& 255)]
    else
      [0x80 ||| type, 127, UInt8.ofNat (length >>> 56 &&& 255),
        UInt8.ofNat (length >>> 48 &&& 255), UInt8.ofNat (length >>> 40 &&& 255),
        UInt8.ofNat (length >>> 32 &&& 255), UInt8.ofNat (length >>> 24 &&& 255),
        UInt8.ofNat (length >>> 16 &&& 255), UInt8.ofNat (length >>> 8 &&& 255),
        UInt8.ofNat (length &&& 255)]
  frame ++ msg

/-- `do_close`: the close frame sent, for a close code or for the payload in `msg_ctrl`. -/
def doClose (msgCtrl : Bytes) (frameSize : Nat) (closeCode : Option Nat) : Bytes :=
  let custom (cc : Nat) : Bytes :=
    wsSendframe [UInt8.ofNat (cc >>> 8), UInt8.ofNat (cc &&& 0xff)] opClse
  let send : Bytes := wsSendframe (msgCtrl.take frameSize) opClse
  match closeCode with
  | some cc => custom cc
  | none =>
    if frameSize = 0 ∨ frameSize > 2 then send
    else
      let cc := if frameSize = 1 then (msgCtrl.byteAt 0).toNat
        else (msgCtrl.byteAt 0).toNat <<< 8 ||| (msgCtrl.byteAt 1).toNat
      if (cc < 1000 ∨ cc > 1003) ∧ (cc < 1007 ∨ cc > 1011) ∧ (cc < 3000 ∨ cc > 4999) then
        custom clseProterr
      else send

/-! ## Reading bytes -/

/-- `frm` up to `amt_read`, `cur_pos`, and the calls of `recv` to come. -/
structure Source where
  frm : Bytes := []
  curPos : Nat := 0
  socket : List Result
  pos_le : curPos ≤ frm.length := by decide
  deriving DecidableEq, Repr

/-- `next_byte`, `none` with the error flag. -/
def nextByte (s : Source) : Option (UInt8 × Source) :=
  if h : s.curPos = 0 ∨ s.curPos = s.frm.length then
    match s.socket with
    | .data (b :: bytes) :: socket =>
      some (b, ⟨(b :: bytes).take messageLength, 1, leave (b :: bytes) messageLength socket,
        by simp [messageLength]⟩)
    | _ => none
  else
    some (s.frm.byteAt s.curPos, { s with
      curPos := s.curPos + 1
      pos_le := Nat.lt_of_le_of_ne s.pos_le fun heq => h (.inr heq) })

/-- The bytes that calls of `recv` give until one fails or returns 0. -/
def received : List Result → Bytes
  | .data (b :: bytes) :: rs => b :: (bytes ++ received rs)
  | _ => []

/-- The bytes that are left. -/
def Source.stream (s : Source) : Bytes :=
  (if s.curPos = 0 then [] else s.frm.drop s.curPos) ++ received s.socket

/-- Calls of `next_byte` in a row. -/
def nextBytes : Nat → Source → Option (Bytes × Source)
  | 0, s => some ([], s)
  | n + 1, s => do
    let (b, s) ← nextByte s
    let (bytes, s) ← nextBytes n s
    some (b :: bytes, s)

/-! ## Reading a frame -/

/-- An access outside of a buffer or a table. -/
inductive Fault
  /-- A store behind a buffer, by a frame of this length. -/
  | store (control : Bool) (length : Nat)
  /-- A block freed twice: `realloc` to no bytes frees it as well. -/
  | free (length : Nat)
  | table
  deriving DecidableEq, Repr

/-- Why `read_frame` does not come to its end; it returns -1 with the error flag, or does not. -/
inductive Failure
  | error
  | fault (f : Fault)
  deriving DecidableEq, Repr

/-- `frame_length`, from the seven bits of the second byte on. -/
def readLength (frameLength : Nat) (s : Source) : Option (Nat × Source) :=
  if frameLength = 126 then do
    let (b, s) ← nextBytes 2 s
    some ((b.byteAt 0).toNat <<< 8 ||| (b.byteAt 1).toNat, s)
  else if frameLength = 127 then do
    let (b, s) ← nextBytes 8 s
    some ((b.byteAt 0).toNat <<< 56 ||| (b.byteAt 1).toNat <<< 48 ||| (b.byteAt 2).toNat <<< 40 |||
      (b.byteAt 3).toNat <<< 32 ||| (b.byteAt 4).toNat <<< 24 ||| (b.byteAt 5).toNat <<< 16 |||
      (b.byteAt 6).toNat <<< 8 ||| (b.byteAt 7).toNat, s)
  else some (frameLength, s)

/-- `realloc` of a block; what it adds is not set. -/
def realloc (msg : Bytes) (size : Nat) : Bytes :=
  msg.take size ++ List.replicate (size - msg.length) 0

/-- The loop over the payload, from byte `i` on. -/
def copyPayload (control : Bool) (frameLength : Nat) (masks : Bytes) :
    Nat → Nat → Source → Bytes → Nat → Except Failure (Source × Bytes × Nat)
  | 0, _, s, msg, msgIdx => .ok (s, msg, msgIdx)
  | n + 1, i, s, msg, msgIdx =>
    match nextByte s with
    | none => .error .error
    | some (b, s) =>
      if msgIdx < msg.length then
        copyPayload control frameLength masks n (i + 1) s
          (msg.set msgIdx (b ^^^ masks.byteAt (i % 4))) (msgIdx + 1)
      else .error (.fault (.store control frameLength))

/-- What `read_frame` hands back. -/
structure FrameRead where
  source : Source
  msg : Bytes
  frameLength : Nat
  frameSize : Nat
  msgIdx : Nat
  deriving DecidableEq, Repr

/-- `read_frame` behind the masks. The block of a control frame is `msg_ctrl`, which stays. -/
def readPayload (opcode : UInt8) (msg : Bytes) (frameLength frameSize msgIdx : Nat) (masks : Bytes)
    (isFin reallocOk : Bool) (s : Source) : Except Failure FrameRead :=
  let control := isControlFrame opcode
  let size := (msgIdx + frameLength + isFin.toNat) % 2 ^ 64
  if 0 < frameLength ∧ ¬ control ∧ size = 0 then .error (.fault (.free frameLength))
  else if 0 < frameLength ∧ ¬ control ∧ ¬ reallocOk then .error .error
  else
    let msg := if 0 < frameLength ∧ ¬ control then realloc msg size else msg
    match copyPayload control frameLength masks frameLength 0 s msg msgIdx with
    | .error f => .error f
    | .ok (s, msg, msgIdx) =>
      if isFin ∧ 0 < frameSize then
        if frameLength = 0 ∧ ¬ control ∧ ¬ reallocOk then .error .error
        else
          -- a last fragment that is empty has made no room for the terminator
          let msg := if frameLength = 0 ∧ ¬ control then realloc msg (msgIdx + 1) else msg
          if msgIdx < msg.length then
            .ok ⟨s, msg.set msgIdx 0, frameLength, frameSize, msgIdx⟩
          else .error (.fault (.store control frameLength))
      else .ok ⟨s, msg, frameLength, frameSize, msgIdx⟩

/-- `read_frame`: `frame_length` is what the second byte says, `frame_size` the size so far. -/
def readFrame (opcode : UInt8) (msg : Bytes) (frameLength frameSize msgIdx : Nat)
    (isFin reallocOk : Bool) (s : Source) : Except Failure FrameRead :=
  match readLength frameLength s with
  | none => .error .error
  | some (frameLength, s) =>
    let frameSize := (frameSize + frameLength) % 2 ^ 64
    if frameSize > maxFrameLength then .error .error
    else
      match nextBytes 4 s with
      | none => .error .error
      | some (masks, s) =>
        readPayload opcode msg frameLength frameSize msgIdx masks isFin reallocOk s

/-! ## Reading messages -/

/-- What the rest of the program has done, and does, when a frame is read. -/
structure Env where
  /-- The client is in the state CLOSING. -/
  closing : Bool := false
  currentPingId : Int := 0
  reallocOk : Bool := true
  /-- The frame is answered without an error. -/
  sendOk : Bool := true

inductive Event
  | onopen
  /-- `msg` with its block, and `msg_size`. -/
  | onmessage (msg : Bytes) (size : Nat) (type : UInt8)
  | sent (frame : Bytes)
  | onclose
  deriving DecidableEq, Repr

/-- `struct ws_frame_data`, the variables of `next_frame`, the number of frames so far, and what
has happened. -/
structure State where
  source : Source
  msgCtrl : Bytes := List.replicate 125 0
  frameType : Option UInt8 := none
  frameSize : Nat := 0
  msgData : Bytes := []
  msgIdxData : Nat := 0
  utf8State : UInt32 := utf8Accept
  lastPongId : Int := 0
  frames : Nat := 0
  log : List Event := []
  deriving DecidableEq, Repr

/-- What `next_frame` returns: 0, or -1 with the error flag. -/
inductive Next
  | frame (w : State)
  | failed (w : State)
  | fault (f : Fault)
  deriving DecidableEq, Repr

/-- Whether its loop goes on. -/
inductive Loop
  | more (w : State)
  | done (n : Next)
  deriving DecidableEq, Repr

def State.send (w : State) (ok : Bool) (frame : Bytes) : State :=
  if ok then { w with log := w.log ++ [.sent frame] } else w

/-- `pong_msg_to_int32`. -/
def pongMsgToInt32 (msg : Bytes) : Int :=
  (BitVec.ofNat 32 (ofBe32 msg).toNat).toInt

def Loop.ofFailure (w : State) : Failure → Loop
  | .error => .done (.failed w)
  | .fault f => .done (.fault f)

section
variable (validateUtf8 : Bool) (env : Env)

/-- A data frame behind its first two bytes. -/
def dataFrame (w : State) (opcode : UInt8) (isFin : Bool) (frameLength : Nat) : Loop :=
  match readFrame opcode w.msgData frameLength w.frameSize w.msgIdxData isFin env.reallocOk
    w.source with
  | .error f => .ofFailure w f
  | .ok r =>
    let w := { w with source := r.source, msgData := r.msg, frameSize := r.frameSize,
                      msgIdxData := r.msgIdx }
    if validateUtf8 ∧ w.frameType = some opTxt then
      let part := (r.msg.drop (r.msgIdx - r.frameLength)).take r.frameLength
      match isUtf8LenState part w.utf8State with
      | none => .done (.fault .table)
      | some state =>
        if isFin then
          if state ≠ utf8Accept then
            .done (.failed (w.send env.sendOk (doClose w.msgCtrl w.frameSize (some clseInvutf8))))
          else .done (.frame w)
        else if state = utf8Reject then
          .done (.failed (w.send env.sendOk (doClose w.msgCtrl w.frameSize (some clseInvutf8))))
        else .more { w with utf8State := state }
    else if isFin then .done (.frame w)
    else .more w

/-- A control frame behind its first two bytes. -/
def controlFrame (w : State) (opcode : UInt8) (isFin : Bool) (frameLength : Nat) : Loop :=
  match readFrame opcode w.msgCtrl frameLength 0 0 isFin env.reallocOk w.source with
  | .error f => .ofFailure w f
  | .ok r =>
    let w := { w with source := r.source, msgCtrl := r.msg }
    if opcode = opPong then
      let pongId := pongMsgToInt32 r.msg
      if r.frameSize ≠ 4 ∨ pongId < 0 ∨ pongId > env.currentPingId then .more w
      else .more { w with lastPongId := pongId }
    else if opcode = opPing then
      if env.sendOk then .more (w.send true (wsSendframe (r.msg.take r.frameSize) opPong))
      else .done (.failed w)
    else
      let close := { w with frameSize := r.frameSize, frameType := some opClse }
      if validateUtf8 ∧ r.frameSize > 2 then
        match isUtf8Len ((r.msg.drop 2).take (r.frameSize - 2)) with
        | none => .done (.fault .table)
        | some valid => if valid then .done (.frame close) else .done (.failed w)
      else .done (.frame close)

/-- Only a data frame that is no continuation changes the type. -/
def typeBehind (frameType : Option UInt8) (opcode : UInt8) : Option UInt8 :=
  if opcode ≠ opCont ∧ ¬ isControlFrame opcode then some opcode else frameType

/-- The body of the loop of `next_frame`. -/
def frameStep (w : State) : Loop :=
  let w := { w with frames := w.frames + 1 }
  match nextByte w.source with
  | none => .done (.failed w)
  | some (curByte, s) =>
    let isFin := curByte >>> 7 ≠ 0
    let opcode := curByte &&& 0xf
    if curByte &&& 0x70 ≠ 0 then .done (.failed w)
    else if (w.frameType = none ∧ opcode = opCont) ∨
        (w.frameType ≠ none ∧ ¬ isControlFrame opcode ∧ opcode ≠ opCont) then
      .done (.failed w)
    else if ¬ (opcode = opTxt ∨ opcode = opBin ∨ opcode = opCont ∨ opcode = opPing ∨
        opcode = opPong ∨ opcode = opClse) then
      .done (.failed w)
    else if env.closing ∧ opcode ≠ opClse then .done (.failed w)
    else
      let frameType := typeBehind w.frameType opcode
      match nextByte s with
      | none => .done (.failed w)
      | some (mask, s) =>
        let frameLength := (mask &&& 0x7f).toNat
        let w := { w with source := s, frameType := frameType }
        if isControlFrame opcode then
          if ¬ isFin ∨ frameLength > 125 then .done (.failed w)
          else controlFrame validateUtf8 env w opcode isFin frameLength
        else dataFrame validateUtf8 env w opcode isFin frameLength

end

section
variable (validateUtf8 : Bool) (env : Nat → Env)

/-- The loop of `next_frame`. -/
def nextFrameLoop : Nat → State → Next
  | 0, w => .failed w
  | fuel + 1, w =>
    match frameStep validateUtf8 (env w.frames) w with
    | .more w => nextFrameLoop fuel w
    | .done n => n

/-- At the start of `next_frame`. -/
def State.start (w : State) : State :=
  { w with frameType := none, frameSize := 0, msgData := [], msgIdxData := 0,
           utf8State := utf8Accept }

/-- `next_frame`. Its loop reads a byte each time. -/
def nextFrame (w : State) : Next :=
  nextFrameLoop validateUtf8 env (w.source.stream.length + 1) w.start

/-- The end of a connection. -/
inductive End
  | closed (log : List Event)
  | fault (f : Fault)
  deriving DecidableEq, Repr

/-- The loop of `ws_establishconnection` over the frames. -/
def serveLoop : Nat → State → End
  | 0, w => .closed (w.log ++ [.onclose])
  | fuel + 1, w =>
    match nextFrame validateUtf8 env w with
    | .fault f => .fault f
    | .failed w => .closed (w.log ++ [.onclose])
    | .frame w =>
      if w.frameType = some opTxt ∨ w.frameType = some opBin then
        serveLoop fuel { w with
          log := w.log ++ [.onmessage w.msgData w.frameSize (w.frameType.getD 0)] }
      else if w.frameType = some opClse then
        let w := if (env w.frames).closing then w
          else w.send (env w.frames).sendOk (doClose w.msgCtrl w.frameSize none)
        .closed (w.log ++ [.onclose])
      else serveLoop fuel w

/-- `ws_establishconnection` behind the handshake. -/
def serve (w : State) : End := serveLoop validateUtf8 env (w.source.stream.length + 1) w

end

end Ws
