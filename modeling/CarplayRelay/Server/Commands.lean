import CarplayRelay.CryptoInit
import Mathlib.Tactic.SplitIfs

/-!
# Commands of a client (`process_command`, `app_cmd`)

A text message is parsed and its `cmd` selects a handler, which reads its parameters. Here is what
the code reads of the JSON value; `none` is the dereference of a null pointer. `cJSON_Parse` is a
parameter (`none` for invalid input), and so is what `printf` does with a null string. The effects
of the handlers on the streams are those of `Server.Streaming` and `Server.StopCommand`.

* `onmessage_isSome`: a text message is processed exactly if it is `Answerable`.
* `onmessage_number`: a `cmd` that is a number is compared as a string.
-/

namespace Server

open Bytes Crypto

/-! ## Reading JSON -/

/-- `cJSON_GetObjectItem`, also of a null pointer. -/
def getItem (object : Option Json) (name : String) : Option Json :=
  object.bind (·.getObjectItem name)

/-- `item->valueint`. The value itself only is printed. -/
def valueint (item : Option Json) : Option Unit := item.map fun _ => ()

/-- `printf` of `item->valuestring`; `printsNull` if a null string is printed as such. -/
def printString (printsNull : Bool) (item : Option Json) : Option Unit :=
  item.bind fun j => if j.valuestring = none ∧ ¬ printsNull then none else some ()

/-! ## The handlers -/

/-- The handlers of `app_cmd`. -/
inductive Handler
  | startVideoStream
  | startVideoStream2
  | stopVideoStream
  | startAudioStream
  | stopAudioStream
  | getVersion
  | setSmartbitrate
  | setConfig
  | getConfig
  | motionDetection
  | ircutOnoff
  | ispFps
  | startMp4Record
  | stopMp4Record
  | mp4RecordStatus
  deriving DecidableEq, Repr

/-- `motion_detection`. -/
def motionDetection (obj : Option Json) : Option Unit :=
  let param := getItem obj "param"
  if param.isSome then
    let enable := getItem param "enable"
    let tbase := getItem param "Tbase"
    let tlum := getItem param "Tlum"
    let dynamicThr := getItem param "dynamic_thr"
    let triggerBlocks := getItem param "trigger_blocks"
    if enable.isSome ∧ tbase.isSome ∧ tlum.isSome ∧ dynamicThr.isSome ∧ triggerBlocks.isSome then do
      valueint enable
      valueint tbase
      valueint tlum
      valueint dynamicThr
      valueint triggerBlocks
    else some ()
  else some ()

/-- `ircut_onoff`. -/
def ircutOnoff (obj : Option Json) : Option Unit :=
  let param := getItem obj "param"
  let on := getItem param "on"
  valueint on

/-- `isp_fps`. -/
def ispFps (obj : Option Json) : Option Unit :=
  let param := getItem obj "param"
  let ispFps := getItem param "isp_fps"
  valueint ispFps

/-- `start_mp4_record`; the folder is printed twice. -/
def startMp4Record (printsNull : Bool) (obj : Option Json) : Option Unit := do
  let param := getItem obj "param"
  let folder := getItem param "folder"
  let _filename := getItem param "filename"
  let recordSeconds := getItem param "record_seconds"
  printString printsNull folder
  printString printsNull folder
  valueint recordSeconds

/-- What a handler reads of the message; the other ones ignore it. -/
def handlerFunc (printsNull : Bool) (obj : Option Json) : Handler → Option Unit
  | .motionDetection => motionDetection obj
  | .ircutOnoff => ircutOnoff obj
  | .ispFps => ispFps obj
  | .startMp4Record => startMp4Record printsNull obj
  | _ => some ()

/-- `app_cmd`. -/
def appCmd : List (String × Handler) :=
  [("start_stream", .startVideoStream), ("start_stream2", .startVideoStream2),
    ("stop_stream", .stopVideoStream), ("start_audio_stream", .startAudioStream),
    ("stop_audio_stream", .stopAudioStream), ("get_version", .getVersion),
    ("set_smartbitrate", .setSmartbitrate), ("set_config", .setConfig),
    ("get_config", .getConfig), ("md", .motionDetection), ("ircut", .ircutOnoff),
    ("isp_fps", .ispFps), ("start_mp4_record", .startMp4Record),
    ("stop_mp4_record", .stopMp4Record), ("mp4_record_status", .mp4RecordStatus)]

/-- The loop of `process_command` over `app_cmd`: the handler called, if any. -/
def dispatch (printsNull : Bool) (root rCmd : Json) :
    List (String × Handler) → Option (Option Handler)
  | [] => some none
  | (name, handler) :: rest => do
    -- `strcmp` reads `r_cmd->valuestring`
    let v ← rCmd.valuestring
    if ascii name = cString v then
      handlerFunc printsNull (some root) handler
      some (some handler)
    else dispatch printsNull root rCmd rest

/-- `process_command`. -/
def processCommand (cJSONParse : Bytes → Option Json) (printsNull : Bool) (msg : Bytes) :
    Option (Option Handler) :=
  let root := cJSONParse (cString msg)
  match root, getItem root "cmd" with
  | some root, some rCmd => dispatch printsNull root rCmd appCmd
  | _, _ => some none

/-- `onmessage`: `WS_FR_OP_TXT` is 1. -/
def onmessage (cJSONParse : Bytes → Option Json) (printsNull : Bool) (msg : Bytes) (type : Int) :
    Option (Option Handler) :=
  if type % 2 = 1 then processCommand cJSONParse printsNull msg else some none

/-! ## Which messages are answered -/

/-- The parameters a handler dereferences are there. -/
def HasParams (printsNull : Bool) (obj : Option Json) : Handler → Prop
  | .ircutOnoff => (getItem (getItem obj "param") "on").isSome
  | .ispFps => (getItem (getItem obj "param") "isp_fps").isSome
  | .startMp4Record =>
    (∃ folder, getItem (getItem obj "param") "folder" = some folder ∧
      (printsNull = false → folder.valuestring ≠ none)) ∧
      (getItem (getItem obj "param") "record_seconds").isSome
  | _ => True

/-- The message is no object with a `cmd`, or its `cmd` is a string, and the parameters of the
handler of this name are there. -/
def Answerable (printsNull : Bool) (root : Option Json) : Prop :=
  ∀ rCmd, getItem root "cmd" = some rCmd → ∃ v, rCmd.valuestring = some v ∧
    ∀ name handler, (name, handler) ∈ appCmd → ascii name = cString v →
      HasParams printsNull root handler

section
variable {printsNull : Bool} {obj : Option Json} {root rCmd : Json}

theorem valueint_isSome (item : Option Json) : (valueint item).isSome = item.isSome :=
  Option.isSome_map

theorem printString_isSome (item : Option Json) :
    (printString printsNull item).isSome ↔
      ∃ j, item = some j ∧ (printsNull = false → j.valuestring ≠ none) := by
  unfold printString
  cases item with
  | none => simp
  | some j => cases printsNull <;> by_cases hj : j.valuestring = none <;> simp [hj]

theorem motionDetection_isSome (obj : Option Json) : (motionDetection obj).isSome := by
  unfold motionDetection
  dsimp only
  split_ifs with hparam hall
  · simp only [← valueint_isSome, Option.isSome_iff_exists] at hall
    obtain ⟨⟨_, h1⟩, ⟨_, h2⟩, ⟨_, h3⟩, ⟨_, h4⟩, ⟨_, h5⟩⟩ := hall
    rw [h1, h2, h3, h4, h5]
    rfl
  · rfl
  · rfl

theorem startMp4Record_isSome :
    (startMp4Record printsNull obj).isSome ↔ HasParams printsNull obj .startMp4Record := by
  have hprint := @printString_isSome printsNull (getItem (getItem obj "param") "folder")
  have hvalue := valueint_isSome (getItem (getItem obj "param") "record_seconds")
  unfold startMp4Record HasParams
  rw [← hprint, ← hvalue]
  dsimp only
  generalize printString printsNull (getItem (getItem obj "param") "folder") = folder
  generalize valueint (getItem (getItem obj "param") "record_seconds") = recordSeconds
  cases folder <;> simp

theorem handlerFunc_isSome (handler : Handler) :
    (handlerFunc printsNull obj handler).isSome ↔ HasParams printsNull obj handler := by
  cases handler
  case motionDetection => exact iff_of_true (motionDetection_isSome obj) trivial
  case ircutOnoff => exact (Bool.eq_iff_iff.1 (valueint_isSome _))
  case ispFps => exact (Bool.eq_iff_iff.1 (valueint_isSome _))
  case startMp4Record => exact startMp4Record_isSome
  all_goals exact iff_of_true rfl trivial

theorem dispatch_isSome {v : Bytes} (hv : rCmd.valuestring = some v)
    {table : List (String × Handler)} (hnodup : (table.map fun e => ascii e.1).Nodup) :
    (dispatch printsNull root rCmd table).isSome ↔ ∀ name handler, (name, handler) ∈ table →
      ascii name = cString v → HasParams printsNull (some root) handler := by
  induction table with
  | nil => exact iff_of_true rfl fun _ _ hmem => absurd hmem List.not_mem_nil
  | cons entry table ih =>
    obtain ⟨name, handler⟩ := entry
    rw [List.map_cons, List.nodup_cons] at hnodup
    have ih := ih hnodup.2
    have hfunc := @handlerFunc_isSome printsNull (some root) handler
    unfold dispatch
    rw [hv]
    simp only [Option.bind_eq_bind, Option.bind_some]
    by_cases hname : ascii name = cString v
    · rw [if_pos hname]
      have hbind : ((handlerFunc printsNull (some root) handler).bind fun _ =>
          some (some handler)).isSome = (handlerFunc printsNull (some root) handler).isSome := by
        cases handlerFunc printsNull (some root) handler <;> rfl
      rw [hbind, hfunc]
      refine ⟨?_,
        fun h => h name handler List.mem_cons_self hname⟩
      intro hparams name' handler' hmem hname'
      obtain heq | hmem := List.mem_cons.1 hmem
      · cases heq
        exact hparams
      · -- the names are distinct
        refine absurd (List.mem_map.2 ⟨(name', handler'), hmem, ?_⟩) hnodup.1
        exact hname'.trans hname.symm
    · rw [if_neg hname, ih]
      refine ⟨?_,
        fun h name' handler' hmem => h name' handler' (List.mem_cons_of_mem _ hmem)⟩
      intro h name' handler' hmem hname'
      obtain heq | hmem := List.mem_cons.1 hmem
      · cases heq
        exact absurd hname' hname
      · exact h name' handler' hmem hname'

theorem dispatch_none (hv : rCmd.valuestring = none) :
    dispatch printsNull root rCmd appCmd = none := by
  unfold dispatch appCmd
  simp only [hv]
  rfl

theorem processCommand_isSome (cJSONParse : Bytes → Option Json) (printsNull : Bool)
    (msg : Bytes) :
    (processCommand cJSONParse printsNull msg).isSome ↔
      Answerable printsNull (cJSONParse (cString msg)) := by
  unfold processCommand Answerable
  dsimp only
  cases hroot : cJSONParse (cString msg) with
  | none => exact iff_of_true rfl fun _ h => (by cases h)
  | some root =>
    cases hcmd : getItem (some root) "cmd" with
    | none => exact iff_of_true rfl fun _ h => (by cases h)
    | some rCmd =>
      dsimp only
      cases hv : rCmd.valuestring with
      | none =>
        rw [dispatch_none hv]
        apply iff_of_false Bool.false_ne_true
        intro h
        obtain ⟨v, heq, -⟩ := h rCmd rfl
        rw [hv] at heq
        cases heq
      | some v =>
        rw [dispatch_isSome hv (by decide)]
        constructor
        · rintro h rCmd' heq
          cases heq
          exact ⟨v, hv, h⟩
        · intro h
          obtain ⟨v', heq, hparams⟩ := h rCmd rfl
          rw [hv, Option.some.injEq] at heq
          exact heq ▸ hparams

/-- **A text message is processed without dereferencing a null pointer exactly if it is
`Answerable`.** -/
theorem onmessage_isSome (cJSONParse : Bytes → Option Json) (printsNull : Bool) (msg : Bytes)
    (type : Int) :
    (onmessage cJSONParse printsNull msg type).isSome ↔
      (type % 2 = 1 → Answerable printsNull (cJSONParse (cString msg))) := by
  unfold onmessage
  split_ifs with htext
  · rw [processCommand_isSome]
    exact ⟨fun h _ => h, fun h => h htext⟩
  · exact iff_of_true rfl fun h => absurd h htext

/-- A `cmd` that is a number: the message `{"cmd":5}`. -/
theorem onmessage_number :
    let msg := Json.leftBrace :: (ascii "\"cmd\":5" ++ [Json.rightBrace])
    let cJSONParse := fun text : Bytes =>
      if text = msg then some (Json.object [(ascii "cmd", .other)]) else none
    onmessage cJSONParse true msg 1 = none := by
  decide

end

end Server
