import CarplayRelay.Base64
import CarplayRelay.CryptoInit
import CarplayRelay.Lib.Lines
import CarplayRelay.Ws.Reading
import CarplayRelay.Ws.Sha1
import CarplayRelay.WsClient

/-!
# The handshake of the WebSocket server

`do_handshake` has to find the whole request in what its first `recv` gives. `strtok_r` cuts it
into lines and the line of the key into words, with a terminator in the place of each delimiter; the
bytes behind the request stay in the same buffer and are the first of the frames. No build compiles
`handshake.c`.

* `doHandshake_eq`: the answer, for all that the first `recv` may give.
-/

namespace Ws

open Bytes Recv Lines
open Crypto (cString)

def wsKeyLen : Nat := 24
def wsMsLen : Nat := 36
def magicString : Bytes := ascii "258EAFA5-E914-47DA-95CA-C5AB0DC85B11"
def wsHsReq : Bytes := ascii "Sec-WebSocket-Key"
def wsHsAcclen : Nat := 130
def wsHsAccept : Bytes := ascii ("HTTP/1.1 101 Switching Protocols\r\nUpgrade: websocket\r\n" ++
  "Connection: Upgrade\r\nSec-WebSocket-Accept: ")

/-- What the calls give that may fail. -/
structure HandshakeCalls where
  callocOk : Bool := true
  base64Ok : Bool := true
  mallocOk : Bool := true
  sendOk : Bool := true

/-- Why there is no answer. -/
inductive Unanswered
  /-- -1 is returned. -/
  | error
  /-- The result of `base64_encode` is `NULL`, and is used. -/
  | null
  /-- The answer has no room in its buffer. -/
  | overrun
  deriving DecidableEq, Repr

/-- `strtok_r` from `pos` on: the token, with the position where it starts, the saved pointer, and
the string, in which a terminator is behind the token. -/
def strtokR (delims buf : Bytes) (pos : Nat) : Option (Nat × Bytes) × Nat × Bytes :=
  let s := cString (buf.drop pos)
  let start := pos + (s.takeWhile (· ∈ delims)).length
  let token := (s.dropWhile (· ∈ delims)).takeWhile (· ∉ delims)
  if token = [] then (none, start, buf)
  else if start + token.length = pos + s.length then
    (some (start, token), start + token.length, buf)
  else (some (start, token), start + token.length + 1, buf.set (start + token.length) 0)

/-- The loop of `get_handshake_response` over the lines: where the line of the key starts. -/
def keyLine : Nat → Bytes → Nat → Option Nat × Bytes
  | 0, buf, _ => (none, buf)
  | fuel + 1, buf, pos =>
    match strtokR crlf buf pos with
    | (none, _, buf) => (none, buf)
    | (some (start, line), pos, buf) =>
      if (strstr wsHsReq line).isSome then (some start, buf) else keyLine fuel buf pos

/-- The second word of the line that starts at `start`. -/
def keyWord (buf : Bytes) (start : Nat) : Option Bytes × Bytes :=
  let (_, saveptr, buf) := strtokR [32] buf start
  let (s, _, buf) := strtokR [32] buf saveptr
  (s.map Prod.snd, buf)

/-- `get_handshake_accept`; `ctx` is what its context holds before `SHA1Reset`. -/
def getHandshakeAccept (calls : HandshakeCalls) (ctx : SHA1Context) (wsKey : Option Bytes) :
    Except Unanswered Bytes :=
  match wsKey with
  | none => .error .error
  | some wsKey =>
    if ¬ calls.callocOk then .error .error
    else
      -- `calloc` has zeroed `str`
      let str := wsKey.take wsKeyLen ++ magicString
      let str := str ++ List.replicate (wsKeyLen + wsMsLen - str.length) 0
      let ctx := (sha1Input (sha1Reset ctx) str).2
      match Base64.base64Encode calls.base64Ok ((sha1Result ctx).2.1.getD []) with
      | none => .error .null
      | some dest => .ok (cString dest).dropLast

/-- `get_handshake_response` with the request at the start of `buf`: the answer, and the buffer
afterwards. -/
def getHandshakeResponse (calls : HandshakeCalls) (ctx : SHA1Context) (buf : Bytes) :
    Except Unanswered Bytes × Bytes :=
  match keyLine (buf.length + 1) buf 0 with
  | (none, buf) => (.error .error, buf)
  | (some start, buf) =>
    let (s, buf) := keyWord buf start
    match getHandshakeAccept calls ctx s with
    | .error e => (.error e, buf)
    | .ok accept =>
      if ¬ calls.mallocOk then (.error .error, buf)
      else
        let response := wsHsAccept ++ accept ++ crlfcrlf
        if wsHsAcclen < response.length + 1 then (.error .overrun, buf) else (.ok response, buf)

theorem length_strtokR (delims buf : Bytes) (pos : Nat) :
    (strtokR delims buf pos).2.2.length = buf.length := by
  unfold strtokR
  dsimp only
  split
  · rfl
  · split
    · rfl
    · exact List.length_set

theorem length_keyLine (fuel : Nat) (buf : Bytes) (pos : Nat) :
    (keyLine fuel buf pos).2.length = buf.length := by
  induction fuel generalizing buf pos with
  | zero => rfl
  | succ fuel ih =>
    have hlen := length_strtokR crlf buf pos
    unfold keyLine
    split
    · rename_i heq
      rwa [heq] at hlen
    · rename_i heq
      rw [heq] at hlen
      split
      · exact hlen
      · rw [ih]
        exact hlen

theorem length_keyWord (buf : Bytes) (start : Nat) : (keyWord buf start).2.length = buf.length :=
  (length_strtokR [32] _ (strtokR [32] buf start).2.1).trans (length_strtokR [32] buf start)

theorem length_getHandshakeResponse (calls : HandshakeCalls) (ctx : SHA1Context) (buf : Bytes) :
    (getHandshakeResponse calls ctx buf).2.length = buf.length := by
  have hline := length_keyLine (buf.length + 1) buf 0
  unfold getHandshakeResponse
  split
  · rename_i heq
    rwa [heq] at hline
  · rename_i start buf' heq
    rw [heq] at hline
    have hword := (length_keyWord buf' start).trans hline
    dsimp only
    split
    · exact hword
    · split
      · exact hword
      · split <;> exact hword

/-- What `do_handshake` comes to, with the answer and what is left to read. -/
inductive Handshake
  | unanswered (e : Unanswered)
  | answered (response : Bytes) (source : Source)
  deriving DecidableEq, Repr

theorem crlfcrlf_le {frm : Bytes} {p : Nat} (h : strstr crlfcrlf (cString frm) = some p) :
    p + 4 ≤ frm.length := by
  have hle := (strstr_some h).length_le
  have hfrm := (List.takeWhile_prefix (· ≠ 0) (l := frm)).length_le
  rw [List.length_drop] at hle
  have : crlfcrlf.length = 4 := rfl
  unfold cString at hle
  omega

/-- `do_handshake` behind its `recv`. -/
def answerRequest (calls : HandshakeCalls) (ctx : SHA1Context) (bytes : Bytes)
    (rs : List Result) : Handshake :=
  let frm := bytes.take (messageLength - 1)
  match hp : strstr crlfcrlf (cString frm) with
  | none => .unanswered .error
  | some p =>
    match (getHandshakeResponse calls ctx frm).1 with
    | .error e => .unanswered e
    | .ok response =>
      if ¬ calls.sendOk then .unanswered .error
      else .answered response
        { frm := (getHandshakeResponse calls ctx frm).2
          curPos := p + 4
          socket := leave bytes (messageLength - 1) rs
          pos_le := by
            rw [length_getHandshakeResponse]
            exact crlfcrlf_le hp }

def doHandshake (calls : HandshakeCalls) (ctx : SHA1Context) : List Result → Handshake
  | .data bytes :: rs => answerRequest calls ctx bytes rs
  | _ => .unanswered .error

def End.behind (events : List Event) : End → End
  | .closed log => .closed (events ++ log)
  | .fault f => .fault f

/-- What `ws_establishconnection` comes to. -/
inductive Connection
  | refused (e : Unanswered)
  | served (e : End)
  deriving DecidableEq, Repr

def wsEstablishconnection (validateUtf8 : Bool) (env : Nat → Env) (calls : HandshakeCalls)
    (ctx : SHA1Context) (socket : List Result) : Connection :=
  match doHandshake calls ctx socket with
  | .unanswered e => .refused e
  | .answered response source =>
    .served ((serve validateUtf8 env { source := source }).behind [.sent response, .onopen])

/-! ## Tokens -/

section
variable {delims pre s before token tail buf : Bytes} {sep : UInt8}

/-- `strtok_r` on a token behind delimiters, up to what it does with its end. -/
theorem strtokR_parts (hbefore : ∀ b ∈ before, b ≠ 0 ∧ b ∈ delims) (hne : token ≠ [])
    (htoken : ∀ b ∈ token, b ≠ 0 ∧ b ∉ delims)
    (htail : (cString tail).takeWhile (· ∉ delims) = []) :
    strtokR delims (pre ++ (before ++ (token ++ tail))) pre.length =
      (some ((pre ++ before).length, token),
        if cString tail = [] then
          ((pre ++ before ++ token).length, pre ++ (before ++ (token ++ tail)))
        else ((pre ++ before ++ token).length + 1,
          (pre ++ (before ++ (token ++ tail))).set (pre ++ before ++ token).length 0)) := by
  have hs : cString ((pre ++ (before ++ (token ++ tail))).drop pre.length) =
      before ++ (token ++ cString tail) := by
    rw [List.drop_left, WsClient.cString_append fun b hb => (hbefore b hb).1,
      WsClient.cString_append fun b hb => (htoken b hb).1]
  obtain ⟨b, token', rfl⟩ := List.exists_cons_of_ne_nil hne
  have hskip : (before ++ (b :: token' ++ cString tail)).takeWhile (· ∈ delims) = before := by
    rw [List.takeWhile_append_of_pos fun b hb => by simpa using (hbefore b hb).2]
    simp [(htoken b List.mem_cons_self).2]
  have hdrop : (before ++ (b :: token' ++ cString tail)).dropWhile (· ∈ delims) =
      b :: token' ++ cString tail := by
    rw [List.dropWhile_append_of_pos fun b hb => by simpa using (hbefore b hb).2]
    simp [(htoken b List.mem_cons_self).2]
  have htake : (b :: token' ++ cString tail).takeWhile (· ∉ delims) = b :: token' := by
    rw [List.takeWhile_append_of_pos fun b hb => by simpa using (htoken b hb).2, htail,
      List.append_nil]
  rw [strtokR, hs, hskip, hdrop, htake, if_neg hne]
  simp only [List.length_append, ← Nat.add_assoc]
  by_cases hend : cString tail = []
  · rw [if_pos (by rw [hend]; rfl), if_pos hend]
  · rw [if_neg (by
      have := List.length_pos_of_ne_nil hend
      omega), if_neg hend]

/-- **The last token** of a string. -/
theorem strtokR_last (hbefore : ∀ b ∈ before, b ≠ 0 ∧ b ∈ delims) (hne : token ≠ [])
    (htoken : ∀ b ∈ token, b ≠ 0 ∧ b ∉ delims) (htail : cString tail = []) :
    strtokR delims (pre ++ (before ++ (token ++ tail))) pre.length =
      (some ((pre ++ before).length, token), (pre ++ before ++ token).length,
        pre ++ (before ++ (token ++ tail))) := by
  rw [strtokR_parts hbefore hne htoken (by rw [htail]; rfl), if_pos htail]

/-- **A token with a delimiter behind it**, which becomes its terminator. -/
theorem strtokR_next (hbefore : ∀ b ∈ before, b ≠ 0 ∧ b ∈ delims) (hne : token ≠ [])
    (htoken : ∀ b ∈ token, b ≠ 0 ∧ b ∉ delims) (hsep : sep ≠ 0 ∧ sep ∈ delims) :
    strtokR delims (pre ++ (before ++ (token ++ sep :: tail))) pre.length =
      (some ((pre ++ before).length, token), (pre ++ before ++ token ++ [0]).length,
        pre ++ before ++ token ++ [0] ++ tail) := by
  have hcons : cString (sep :: tail) = sep :: cString tail := by
    simp [cString, hsep.1]
  rw [strtokR_parts hbefore hne htoken (by rw [hcons]; simp [hsep.2]), hcons,
    if_neg (List.cons_ne_nil _ _)]
  have hassoc : pre ++ (before ++ (token ++ sep :: tail)) =
      (pre ++ before ++ token) ++ sep :: tail := by simp
  rw [hassoc, List.set_append_right _ _ (Nat.le_refl _), Nat.sub_self, List.set_cons_zero]
  simp [Nat.add_assoc]

/-- No token is left. -/
theorem strtokR_none (hbefore : ∀ b ∈ before, b ≠ 0 ∧ b ∈ delims) (htail : cString tail = []) :
    strtokR delims (pre ++ (before ++ tail)) pre.length =
      (none, (pre ++ before).length, pre ++ (before ++ tail)) := by
  have hs : cString ((pre ++ (before ++ tail)).drop pre.length) = before := by
    rw [List.drop_left, WsClient.cString_append fun b hb => (hbefore b hb).1, htail,
      List.append_nil]
  have htake : before.takeWhile (· ∈ delims) = before :=
    List.takeWhile_eq_self_iff.2 fun b hb => by simpa using (hbefore b hb).2
  have hdrop : before.dropWhile (· ∈ delims) = [] :=
    List.dropWhile_eq_nil_iff.2 fun b hb => by simpa using (hbefore b hb).2
  rw [strtokR, hs, htake, hdrop, if_pos (by rfl), List.length_append]

/-- The first token of a C string. -/
theorem tokens_cString (delims : Bytes) (hs : ∀ b ∈ s, b ≠ 0) :
    ((∀ b ∈ s, b ≠ 0 ∧ b ∈ delims) ∧ tokens (· ∈ delims) s = []) ∨
    ∃ before token after, s = before ++ (token ++ after) ∧ (∀ b ∈ before, b ≠ 0 ∧ b ∈ delims) ∧
      token ≠ [] ∧ (∀ b ∈ token, b ≠ 0 ∧ b ∉ delims) ∧
      ((after = [] ∧ tokens (· ∈ delims) s = [token]) ∨
        ∃ sep rest, after = sep :: rest ∧ (sep ≠ 0 ∧ sep ∈ delims) ∧
          tokens (· ∈ delims) s = token :: tokens (· ∈ delims) rest) := by
  rcases tokens_cases (· ∈ delims) s with
    ⟨hall, hnone⟩ | ⟨before, token, after, rfl, hbefore, hne, htoken, hafter⟩
  · exact .inl ⟨fun b hb => ⟨hs b hb, by simpa using hall b hb⟩, hnone⟩
  · refine .inr ⟨before, token, after, rfl, fun b hb => ⟨hs b (by simp [hb]), ?_⟩, hne,
      fun b hb => ⟨hs b (by simp [hb]), ?_⟩, ?_⟩
    · simpa using hbefore b hb
    · simpa using htoken b hb
    · rcases hafter with hend | ⟨sep, rest, rfl, hsep, htokens⟩
      · exact .inl hend
      · exact .inr ⟨sep, rest, rfl, ⟨hs sep (by simp), by simpa using hsep⟩, htokens⟩

/-- The line of the key. -/
def hasKey (line : Bytes) : Bool := (strstr wsHsReq line).isSome

theorem drop_behind (x y t : Bytes) (h : y.length = x.length) :
    (x ++ t).drop (y.length + 1) = t.drop 1 := by
  rw [h, ← List.drop_drop, List.drop_left]

/-- **The line of the key is found**, by induction on the lines before it. What stands behind the
text does not matter, and is left as it is. -/
theorem keyLine_found {fuel : Nat} {line : Bytes} (hfuel : s.length < fuel)
    (hs : ∀ b ∈ s, b ≠ 0)
    (htail : cString tail = [] ∨ ∃ sep t, tail = sep :: t ∧ sep ≠ 0 ∧ sep ∈ crlf)
    (h : (tokens isBreak s).find? hasKey = some line) :
    ∃ pre' tail', keyLine fuel (pre ++ (s ++ tail)) pre.length =
        (some pre'.length, pre' ++ (line ++ tail')) ∧ cString tail' = [] ∧
      (∀ b ∈ line, b ≠ 0) ∧ pre'.length + line.length ≤ pre.length + s.length ∧
      (pre' ++ (line ++ tail')).drop ((pre ++ s).length + 1) = tail.drop 1 := by
  induction fuel generalizing s pre with
  | zero => omega
  | succ fuel ih =>
    rcases tokens_cString crlf hs with
      ⟨-, hnone⟩ | ⟨before, token, after, rfl, hbefore, hne, htoken, hafter⟩
    · rw [show tokens isBreak s = [] from hnone] at h
      cases h
    have hzero := fun b hb => (htoken b hb).1
    have hassoc : pre ++ (before ++ (token ++ after) ++ tail) =
        pre ++ (before ++ (token ++ (after ++ tail))) := by simp
    rw [hassoc, keyLine]
    rcases hafter with ⟨rfl, htokens⟩ | ⟨sep, rest, rfl, hsep, htokens⟩
    · -- the last line of the text
      rw [show tokens isBreak _ = _ from htokens] at h
      obtain ⟨hkey, rfl⟩ : hasKey token = true ∧ token = line := by
        by_cases hkey : hasKey token = true
        · rw [List.find?_cons_of_pos hkey] at h
          exact ⟨hkey, Option.some.inj h⟩
        · rw [List.find?_cons_of_neg hkey] at h
          cases h
      have hle : (pre ++ before).length + token.length ≤
          pre.length + (before ++ (token ++ [])).length := by simp [Nat.add_assoc]
      rw [List.nil_append]
      rcases htail with htail | ⟨sep, t, rfl, hsep⟩
      · rw [strtokR_last hbefore hne htoken htail]
        refine ⟨pre ++ before, tail, if_pos hkey |>.trans (by simp), htail, hzero, hle, ?_⟩
        rw [← List.append_assoc (pre ++ before)]
        exact drop_behind _ _ _ (by simp)
      · rw [strtokR_next hbefore hne htoken hsep]
        refine ⟨pre ++ before, 0 :: t, if_pos hkey |>.trans (by simp), rfl, hzero, hle, ?_⟩
        rw [← List.append_assoc (pre ++ before)]
        exact drop_behind _ _ _ (by simp)
    · rw [show tokens isBreak _ = _ from htokens] at h
      have hassoc' : pre ++ before ++ token ++ [0] ++ (rest ++ tail) =
          pre ++ before ++ (token ++ 0 :: (rest ++ tail)) := by simp
      have hlen : (pre ++ (before ++ (token ++ sep :: rest))).length =
          (pre ++ before ++ token ++ [0] ++ rest).length := by simp
      rw [List.cons_append, strtokR_next hbefore hne htoken hsep]
      by_cases hkey : hasKey token = true
      · rw [List.find?_cons_of_pos hkey] at h
        cases h
        refine ⟨pre ++ before, 0 :: (rest ++ tail), if_pos hkey |>.trans (by rw [hassoc']), rfl,
          hzero, by simp [Nat.add_assoc], ?_⟩
        rw [← hassoc', ← List.append_assoc (pre ++ before ++ line ++ [0])]
        exact drop_behind _ _ _ hlen
      · rw [List.find?_cons_of_neg hkey] at h
        obtain ⟨pre', tail', hline, htail', hzero', hle, hdrop⟩ :=
          @ih (pre ++ before ++ token ++ [0]) rest
            (by simp at hfuel; omega) (fun b hb => hs b (by simp [hb])) h
        refine ⟨pre', tail', (if_neg hkey).trans hline, htail', hzero', ?_, ?_⟩
        · simp only [List.length_append, List.length_cons, List.length_nil] at hle ⊢
          omega
        · rw [hlen]
          exact hdrop

/-- A token of a C string, and those that are left. -/
theorem strtokR_tokens (delims : Bytes) (hs : ∀ b ∈ s, b ≠ 0) (htail : cString tail = []) :
    (tokens (· ∈ delims) s = [] ∧ strtokR delims (pre ++ (s ++ tail)) pre.length =
      (none, (pre ++ s).length, pre ++ (s ++ tail))) ∨
    ∃ token start pre' s', tokens (· ∈ delims) s = token :: tokens (· ∈ delims) s' ∧
      strtokR delims (pre ++ (s ++ tail)) pre.length =
        (some (start, token), pre'.length, pre' ++ (s' ++ tail)) ∧
      (∀ b ∈ s', b ≠ 0) ∧ s'.length < s.length ∧ (pre' ++ s').length = (pre ++ s).length := by
  rcases tokens_cString delims hs with
    ⟨hall, hnone⟩ | ⟨before, token, after, rfl, hbefore, hne, htoken, hafter⟩
  · exact .inl ⟨hnone, strtokR_none hall htail⟩
  · have hpos := List.length_pos_of_ne_nil hne
    have hassoc : pre ++ (before ++ (token ++ after) ++ tail) =
        pre ++ (before ++ (token ++ (after ++ tail))) := by simp
    rw [hassoc]
    refine .inr ⟨token, (pre ++ before).length, ?_⟩
    rcases hafter with ⟨rfl, htokens⟩ | ⟨sep, rest, rfl, hsep, htokens⟩
    · refine ⟨pre ++ before ++ token, [], htokens, ?_, by simp, ?_, by simp⟩
      · rw [List.nil_append, strtokR_last hbefore hne htoken htail]
        simp
      · simp only [List.length_append, List.length_nil]
        omega
    · refine ⟨pre ++ before ++ token ++ [0], rest, htokens,
        strtokR_next hbefore hne htoken hsep, fun b hb => hs b (by simp [hb]), ?_, by simp⟩
      simp only [List.length_append, List.length_cons]
      omega

theorem keyLine_none {fuel : Nat} (hfuel : s.length < fuel) (hs : ∀ b ∈ s, b ≠ 0)
    (htail : cString tail = []) (h : (tokens isBreak s).find? hasKey = none) :
    (keyLine fuel (pre ++ (s ++ tail)) pre.length).1 = none := by
  induction fuel generalizing s pre with
  | zero => omega
  | succ fuel ih =>
    rw [keyLine]
    rcases @strtokR_tokens pre s tail crlf hs htail with
      ⟨-, heq⟩ | ⟨token, start, pre', s', htokens, heq, hs', hless, -⟩
    · rw [heq]
    · rw [show tokens isBreak s = _ from htokens] at h
      have hkey : ¬ hasKey token = true := fun hkey => by
        rw [List.find?_cons_of_pos hkey] at h
        cases h
      rw [List.find?_cons_of_neg hkey] at h
      rw [heq]
      dsimp only
      rw [show (strstr wsHsReq token).isSome = hasKey token from rfl, if_neg hkey]
      exact ih (by omega) hs' h

/-- **The second word** of a line. -/
theorem keyWord_eq (hs : ∀ b ∈ s, b ≠ 0) (htail : cString tail = []) :
    (keyWord (pre ++ (s ++ tail)) pre.length).1 = (tokens (· ∈ [32]) s)[1]? ∧
      (keyWord (pre ++ (s ++ tail)) pre.length).2.drop (pre ++ s).length = tail := by
  unfold keyWord
  rcases @strtokR_tokens pre s tail [32] hs htail with
    ⟨htokens, heq⟩ | ⟨token, start, pre', s', htokens, heq, hs', -, hlen⟩
  · have hnone := @strtokR_none [32] (pre ++ s) [] tail (by simp) htail
    rw [List.nil_append, List.append_assoc] at hnone
    rw [heq, htokens]
    dsimp only
    rw [hnone]
    exact ⟨rfl, by rw [← List.append_assoc, List.drop_left]⟩
  · rw [heq, htokens, ← hlen]
    dsimp only
    rcases @strtokR_tokens pre' s' tail [32] hs' htail with
      ⟨htokens', heq'⟩ | ⟨token', start', pre'', s'', htokens', heq', -, -, hlen'⟩
    · rw [heq', htokens']
      exact ⟨rfl, by rw [← List.append_assoc, List.drop_left]⟩
    · rw [heq', htokens', ← hlen']
      exact ⟨rfl, by rw [← List.append_assoc, List.drop_left]⟩

end

/-! ## The answer -/

/-- A text of one line in base64: characters of the alphabet and the line break behind them. -/
theorem encodeFrom_line (src : Bytes) (lineLen : Nat) (hne : src ≠ [] ∨ lineLen ≠ 0)
    (hline : lineLen + 4 * ((src.length + 2) / 3) < 72) :
    ∃ chars, Base64.encodeFrom src lineLen = chars ++ [Base64.newline] ∧
      chars.length = 4 * ((src.length + 2) / 3) ∧ ∀ ch ∈ chars, Base64.dtable ch ≠ 0x80 := by
  have htable {i : UInt8} (hi : i < 64) : Base64.dtable (Base64.tableAt i) ≠ 0x80 := by
    rw [Base64.dtable_tableAt hi]
    exact Base64.ne_skip hi
  have heq : Base64.dtable Base64.equals ≠ 0x80 := by decide
  induction src, lineLen using Base64.encodeFrom.induct with
  | case1 a b c rest lineLen ih0 ih =>
    obtain ⟨hw, hx, hy, hz⟩ := Base64.sextets a b c
    simp only [List.length_cons] at hline
    obtain ⟨chars, hchars, hlen, hall⟩ := ih (.inr (by omega)) (by omega)
    rw [Base64.encodeFrom, if_neg (by omega), hchars]
    refine ⟨_ :: _ :: _ :: _ :: chars, rfl, ?_, ?_⟩
    · simp only [List.length_cons, hlen]
      omega
    · simp only [List.forall_mem_cons]
      exact ⟨htable hw, htable hx, htable hy, htable hz, hall⟩
  | case2 a b =>
    obtain ⟨hw, hx, hy, -⟩ := Base64.sextets a b 0
    simp only [UInt8.zero_shiftRight, UInt8.or_zero] at hy
    refine ⟨[_, _, _, _], rfl, by simp, ?_⟩
    simp only [List.forall_mem_cons]
    exact ⟨htable hw, htable hx, htable hy, heq, by simp⟩
  | case3 a =>
    obtain ⟨hw, hx, -, -⟩ := Base64.sextets a 0 0
    simp only [UInt8.zero_shiftRight, UInt8.or_zero] at hx
    refine ⟨[_, _, _, _], rfl, by simp, ?_⟩
    simp only [List.forall_mem_cons]
    exact ⟨htable hw, htable hx, heq, heq, by simp⟩
  | case4 lineLen h => exact ⟨[], by rw [Base64.encodeFrom, if_pos h]; rfl, rfl, by simp⟩
  | case5 lineLen h =>
    rcases hne with hne | hne
    · exact absurd rfl hne
    · exact absurd hne h

/-- What is hashed for a key: the first bytes of it and the magic string, filled up with zeros. -/
def keyBlock (key : Bytes) : Bytes :=
  let str := key.take wsKeyLen ++ magicString
  str ++ List.replicate (wsKeyLen + wsMsLen - str.length) 0

/-- The digest of the key in base64. -/
def acceptOf (key : Bytes) : Bytes :=
  (Base64.encodeFrom (Sha1.digest (keyBlock key)) 0).dropLast

def answerTo (key : Bytes) : Bytes := wsHsAccept ++ acceptOf key ++ crlfcrlf

/-- The key of a request: the second word of the first line that names the field. -/
def keyOf (request : Bytes) : Option Bytes := do
  let line ← (tokens isBreak request).find? hasKey
  (tokens (· ∈ [32]) line)[1]?

theorem keyOf_of_find {request line : Bytes}
    (h : (tokens isBreak request).find? hasKey = some line) :
    keyOf request = (tokens (· ∈ [32]) line)[1]? := by
  rw [keyOf, h]
  rfl

theorem acceptOf_chars (key : Bytes) :
    Base64.encodeFrom (Sha1.digest (keyBlock key)) 0 = acceptOf key ++ [Base64.newline] ∧
      (acceptOf key).length = 28 ∧ ∀ ch ∈ acceptOf key, Base64.dtable ch ≠ 0x80 := by
  have hlen := Sha1.length_digest (keyBlock key)
  obtain ⟨chars, hchars, hlen', hall⟩ := encodeFrom_line (Sha1.digest (keyBlock key)) 0
    (.inl fun hnil => by rw [hnil] at hlen; cases hlen) (by rw [hlen]; decide)
  rw [acceptOf, hchars, List.dropLast_concat]
  exact ⟨rfl, by rw [hlen', hlen], hall⟩

theorem acceptOf_ne {key : Bytes} {ch : UInt8} (h : ch ∈ acceptOf key) :
    ch ≠ 0 ∧ isBreak ch = false := by
  have hall := (acceptOf_chars key).2.2 ch h
  constructor
  · rintro rfl
    exact hall (by decide)
  · rw [isBreak, decide_eq_false_iff_not]
    intro hmem
    simp only [crlf, List.mem_cons, List.not_mem_nil, or_false] at hmem
    rcases hmem with rfl | rfl <;> exact hall (by decide)

theorem sha1_digest {ctx : SHA1Context} (hctx : ctx.messageBlock.length = 64) {m : Bytes}
    (hne : m ≠ []) (hlen : 8 * m.length < 2 ^ 64) :
    (sha1Result (sha1Input (sha1Reset ctx) m).2).2.1 = some (Sha1.digest m) := by
  have hreset : Represents (sha1Reset ctx) (.absorbing []) := absorbs_reset hctx
  obtain ⟨b, m, rfl⟩ := List.exists_cons_of_ne_nil hne
  have hinput := (sha1Input_represents hreset (b :: m)).2
  rw [Hasher.input, List.nil_append, if_pos hlen] at hinput
  exact (sha1Result_represents hinput).2.1

theorem length_keyBlock (key : Bytes) : (keyBlock key).length = 60 := by
  have hmagic : magicString.length = 36 := by decide +kernel
  simp only [keyBlock, wsKeyLen, wsMsLen, List.length_append, List.length_take,
    List.length_replicate, hmagic]
  omega

theorem getHandshakeAccept_eq {ctx : SHA1Context} (hctx : ctx.messageBlock.length = 64)
    {calls : HandshakeCalls} (hcalloc : calls.callocOk = true) (hbase64 : calls.base64Ok = true)
    (key : Bytes) : getHandshakeAccept calls ctx (some key) = .ok (acceptOf key) := by
  have hlen := length_keyBlock key
  have hdigest := @sha1_digest ctx hctx (keyBlock key)
    (fun hnil => by rw [hnil] at hlen; cases hlen) (by rw [hlen]; decide)
  have hzero : ∀ ch ∈ acceptOf key ++ [Base64.newline], ch ≠ 0 := fun ch hch => by
    rcases List.mem_append.1 hch with hch | hch
    · exact (acceptOf_ne hch).1
    · rw [List.mem_singleton.1 hch]
      decide
  have hencode : Base64.base64Encode true (Sha1.digest (keyBlock key)) =
      some (acceptOf key ++ [Base64.newline]) := by
    rw [Base64.base64Encode, Sha1.length_digest, if_neg (by decide), (acceptOf_chars key).1]
    rfl
  show (if ¬ calls.callocOk then Except.error Unanswered.error
    else match Base64.base64Encode calls.base64Ok
        ((sha1Result (sha1Input (sha1Reset ctx) (keyBlock key)).2).2.1.getD []) with
      | none => .error .null
      | some dest => .ok (cString dest).dropLast) = _
  rw [hdigest, Option.getD_some, hbase64, hencode, hcalloc]
  dsimp only
  rw [if_neg (by decide), Crypto.cString_of_ne_zero hzero, List.dropLast_concat]

/-- **The answer fits its buffer**, with nothing to spare. -/
theorem length_answerTo (key : Bytes) : (answerTo key).length + 1 = wsHsAcclen := by
  have haccept : wsHsAccept.length = 97 := by decide +kernel
  simp [answerTo, haccept, (acceptOf_chars key).2.1, crlfcrlf, wsHsAcclen]

/-- Nothing that may fail does. -/
structure HandshakeCalls.Succeed (calls : HandshakeCalls) : Prop where
  callocOk : calls.callocOk = true
  base64Ok : calls.base64Ok = true
  mallocOk : calls.mallocOk = true
  sendOk : calls.sendOk = true

theorem cString_split (p : Bytes) : ∃ tail, p = cString p ++ tail ∧ cString tail = [] := by
  have hpre : cString p <+: p := List.takeWhile_prefix _
  rcases Nat.lt_or_ge (cString p).length p.length with hlt | hge
  · obtain ⟨rest, hrest⟩ := Crypto.cString_ends hlt
    exact ⟨0 :: rest, hrest, rfl⟩
  · exact ⟨[], by rw [List.append_nil]; exact (hpre.eq_of_length_le hge).symm, rfl⟩

section
variable {ctx : SHA1Context} {calls : HandshakeCalls}

/-- What is done with a line that has been found. -/
theorem getHandshakeResponse_line {buf pre line tail : Bytes}
    (hctx : ctx.messageBlock.length = 64) (hcalls : calls.Succeed)
    (hline : keyLine (buf.length + 1) buf 0 = (some pre.length, pre ++ (line ++ tail)))
    (hzero : ∀ b ∈ line, b ≠ 0) (htail : cString tail = []) :
    (getHandshakeResponse calls ctx buf).1 =
        (match (tokens (· ∈ [32]) line)[1]? with
          | some key => .ok (answerTo key)
          | none => .error .error) ∧
      (getHandshakeResponse calls ctx buf).2.drop (pre ++ line).length = tail := by
  obtain ⟨hword, hrest⟩ := @keyWord_eq pre line tail hzero htail
  unfold getHandshakeResponse
  rw [hline]
  dsimp only
  rw [hword]
  cases (tokens (· ∈ [32]) line)[1]? with
  | none => exact ⟨rfl, hrest⟩
  | some key =>
    have hlen := length_answerTo key
    rw [getHandshakeAccept_eq hctx hcalls.callocOk hcalls.base64Ok]
    dsimp only
    rw [if_neg (by rw [hcalls.mallocOk]; decide), if_neg (by
      rw [← hlen]
      exact Nat.lt_irrefl _)]
    exact ⟨rfl, hrest⟩

/-- **The answer** is that to the key of the request. -/
theorem getHandshakeResponse_eq (hctx : ctx.messageBlock.length = 64) (hcalls : calls.Succeed)
    (frm : Bytes) : (getHandshakeResponse calls ctx frm).1 =
      match keyOf (cString frm) with
      | some key => .ok (answerTo key)
      | none => .error .error := by
  obtain ⟨tail, hsplit, htail⟩ := cString_split frm
  have hs : ∀ b ∈ cString frm, b ≠ 0 := fun b hb => Crypto.ne_zero_of_mem_cString hb
  have hfuel : (cString frm).length < frm.length + 1 :=
    Nat.lt_succ_of_le (List.takeWhile_prefix _).length_le
  unfold keyOf
  cases hfind : (tokens isBreak (cString frm)).find? hasKey with
  | none =>
    have hnone := @keyLine_none [] (cString frm) tail _ hfuel hs htail hfind
    rw [List.nil_append, ← hsplit] at hnone
    unfold getHandshakeResponse
    split
    · rfl
    · rename_i heq
      rw [List.length_nil, heq] at hnone
      cases hnone
  | some line =>
    obtain ⟨pre, tail', hline, htail', hzero, -⟩ :=
      @keyLine_found [] (cString frm) tail _ line hfuel hs (.inl htail) hfind
    rw [List.nil_append, ← hsplit] at hline
    exact (getHandshakeResponse_line hctx hcalls hline hzero htail').1

/-- **What stands behind the header stays as it is**, if the key is in the header. -/
theorem getHandshakeResponse_behind (hctx : ctx.messageBlock.length = 64) (hcalls : calls.Succeed)
    {frm : Bytes} {p : Nat} (hend : strstr crlfcrlf (cString frm) = some p)
    (hkey : (keyOf ((cString frm).take p)).isSome) :
    (getHandshakeResponse calls ctx frm).2.drop (p + 4) = frm.drop (p + 4) := by
  obtain ⟨tail, hsplit, htail⟩ := cString_split frm
  have hle := crlfcrlf_le hend
  have hs : ∀ b ∈ (cString frm).take p, b ≠ 0 := fun b hb =>
    Crypto.ne_zero_of_mem_cString (List.mem_of_mem_take hb)
  obtain ⟨rest, hrest⟩ := strstr_some hend
  have hp : ((cString frm).take p).length = p := by
    have hlen := (strstr_some hend).length_le
    rw [List.length_drop] at hlen
    rw [List.length_take]
    have : crlfcrlf.length = 4 := rfl
    omega
  have hfrm : frm = (cString frm).take p ++ (13 :: 10 :: 13 :: 10 :: (rest ++ tail)) := by
    have hcut := List.take_append_drop p (cString frm)
    rw [← hrest] at hcut
    conv_lhs => rw [hsplit, ← hcut]
    simp [crlfcrlf]
  obtain ⟨line, hfind⟩ :
      ∃ line, (tokens isBreak ((cString frm).take p)).find? hasKey = some line := by
    unfold keyOf at hkey
    cases hfind : (tokens isBreak ((cString frm).take p)).find? hasKey with
    | none =>
      rw [hfind] at hkey
      cases hkey
    | some line => exact ⟨line, rfl⟩
  obtain ⟨pre, tail', hline, htail', hzero, hbound, hdrop⟩ :=
    @keyLine_found [] _ (13 :: 10 :: 13 :: 10 :: (rest ++ tail)) (frm.length + 1) line
      (by rw [hp]; omega) hs (.inr ⟨13, _, rfl, by decide, by decide⟩) hfind
  rw [List.nil_append, ← hfrm] at hline
  rw [List.nil_append, hp] at hdrop
  rw [List.length_nil, Nat.zero_add, hp] at hbound
  have hbehind := (getHandshakeResponse_line hctx hcalls hline hzero htail').2
  have hcut : p + 4 = (pre ++ line).length + (p + 4 - (pre ++ line).length) := by
    rw [List.length_append]
    omega
  have htail : (pre ++ (line ++ tail')).drop (p + 4) =
      tail'.drop (p + 4 - (pre ++ line).length) := by
    conv_lhs => rw [← List.append_assoc, hcut, ← List.drop_drop, List.drop_left]
  have hlater : (pre ++ (line ++ tail')).drop (p + 4) = rest ++ tail := by
    rw [show p + 4 = p + 1 + 3 from rfl, ← List.drop_drop, hdrop]
    rfl
  have hbehind' : frm.drop (p + 4) = rest ++ tail := by
    conv_lhs => rw [hfrm, ← List.drop_drop]
    rw [List.drop_left' hp]
    rfl
  rw [hbehind', hcut, ← List.drop_drop, hbehind, ← htail, hlater]

/-- **The handshake, for all that the first `recv` may give.** There is an answer, to the key of the
request, exactly if what was received has an empty line and a key; the frames start behind the
empty line if the key stands before it. -/
theorem answerRequest_eq (hctx : ctx.messageBlock.length = 64) (hcalls : calls.Succeed)
    (bytes : Bytes) (rs : List Result) :
    let request := cString (bytes.take (messageLength - 1))
    match strstr crlfcrlf request, keyOf request with
    | some p, some key => ∃ source,
        answerRequest calls ctx bytes rs = .answered (answerTo key) source ∧
          ((keyOf (request.take p)).isSome → source.stream = bytes.drop (p + 4) ++ received rs)
    | _, _ => answerRequest calls ctx bytes rs = .unanswered .error := by
  have hresponse := getHandshakeResponse_eq hctx hcalls (bytes.take (messageLength - 1))
  dsimp only
  unfold answerRequest
  dsimp only
  split
  · rename_i p key hend hkey
    rw [hkey] at hresponse
    split
    · rename_i hnone
      rw [hend] at hnone
      cases hnone
    · rename_i p' hend'
      rw [hend] at hend'
      cases hend'
      rw [hresponse]
      dsimp only
      rw [if_neg (by rw [hcalls.sendOk]; decide)]
      refine ⟨_, rfl, fun hheader => ?_⟩
      have hbehind := getHandshakeResponse_behind hctx hcalls hend hheader
      have hle := crlfcrlf_le hend
      show (if p + 4 = 0 then [] else (getHandshakeResponse calls ctx _).2.drop (p + 4)) ++
        received (leave bytes (messageLength - 1) rs) = _
      rw [if_neg (Nat.succ_ne_zero _), hbehind]
      cases bytes with
      | nil => cases hle
      | cons b bytes =>
        rw [received_leave, ← List.append_assoc, ← List.drop_append_of_le_length hle,
          List.take_append_drop]
  · rename_i hno
    split
    · rfl
    · rename_i p hend
      cases hkey : keyOf (cString (bytes.take (messageLength - 1))) with
      | none =>
        rw [hkey] at hresponse
        rw [hresponse]
      | some key => exact absurd hkey (hno p key hend)

end

/-- A request with a key, in one piece. -/
def smallRequest : Bytes :=
  ascii ("GET / HTTP/1.1\r\nSec-WebSocket-Key: dGhlIHNhbXBsZSBub25jZQ==\r\n\r\n")

def smallContext : SHA1Context := ⟨Sha1.initial, 0, 0, 0, List.replicate 64 0, false, 0⟩

def sampleKey : Bytes := ascii "dGhlIHNhbXBsZSBub25jZQ=="

/-- The answer to a key of the specification. -/
example : (match getHandshakeAccept {} smallContext (some sampleKey) with
    | .ok accept => accept
    | .error _ => []) = ascii "s3pPLMBiTxaQ9kYGzzhZRbK+xOo=" := by
  decide +kernel

/-- The lines of the answer. -/
def answerLines (key : Bytes) : List Bytes :=
  [ascii "HTTP/1.1 101 Switching Protocols", ascii "Upgrade: websocket",
    ascii "Connection: Upgrade", ascii "Sec-WebSocket-Accept: " ++ acceptOf key]

theorem answerTo_text (key : Bytes) : answerTo key = text (answerLines key) := by
  have haccept : wsHsAccept = ascii "HTTP/1.1 101 Switching Protocols" ++ (crlf ++
      (ascii "Upgrade: websocket" ++ (crlf ++ (ascii "Connection: Upgrade" ++ (crlf ++
        ascii "Sec-WebSocket-Accept: "))))) := by decide +kernel
  simp [answerTo, haccept, text, answerLines, crlfcrlf, crlf]

theorem line_ascii {s : String} (hne : ascii s ≠ []) (h : (ascii s).all (!isBreak ·) = true) :
    Line (ascii s) :=
  ⟨hne, fun b hb => by simpa using List.all_eq_true.1 h b hb⟩

/-- **The answer is a header that says 101**, as a client has to find it. -/
theorem header_answerTo (key : Bytes) : WsClient.Header (answerTo key) where
  no_nul := by
    have haccept : ∀ b ∈ wsHsAccept, b ≠ 0 := by decide +kernel
    intro b hb
    simp only [answerTo, List.mem_append] at hb
    rcases hb with (hb | hb) | hb
    · exact haccept b hb
    · exact (acceptOf_ne hb).1
    · rintro rfl
      exact absurd hb (by decide)
  switching := by
    have haccept : strstr WsClient.switching wsHsAccept = some 9 := by decide +kernel
    rw [answerTo, List.append_assoc, strstr_append haccept]
    rfl
  ends := by
    have hne : ascii "Sec-WebSocket-Accept: " ++ acceptOf key ≠ [] := fun hnil => by
      have haccept := (acceptOf_chars key).2.1
      rw [(List.append_eq_nil_iff.1 hnil).2] at haccept
      cases haccept
    have hlines : ∀ l ∈ answerLines key, Line l := by
      simp only [answerLines, List.forall_mem_cons]
      refine ⟨line_ascii (by decide) (by decide +kernel),
        line_ascii (by decide) (by decide +kernel),
        line_ascii (by decide) (by decide +kernel), ⟨hne, ?_⟩, by simp⟩
      have hname : ∀ b ∈ ascii "Sec-WebSocket-Accept: ", isBreak b = false := by decide +kernel
      intro b hb
      rcases List.mem_append.1 hb with hb | hb
      · exact hname b hb
      · exact (acceptOf_ne hb).2
    rw [answerTo_text]
    exact strstr_text (List.cons_ne_nil _ _) hlines

end Ws
