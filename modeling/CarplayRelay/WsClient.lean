import CarplayRelay.CryptoInit
import CarplayRelay.Lib.Recv
import CarplayRelay.Lib.WebSocket

/-!
# The WebSocket clients of the relays

The gateway (`ws_upstream_client.c`) and the firmware (`gateway_upstream_*`) each have a WebSocket
client of their own: the same code but for the size of the response buffer, the size of a `size_t`
and what they do on `EINTR`. What is read behind the handshake response goes to a prebuffer, which
`readSome` empties before it reads from the socket.

* `handshake_header`: a response header is found however it is cut, and nothing behind it is lost.
* `reads_readSome`: reads take the next bytes of prebuffer and socket.
-/

namespace WsClient

open Bytes Recv

/-! ## The prebuffer -/

/-- `prebuffer`, `prebuffer_len` and `prebuffer_off`. -/
structure Prebuffer where
  bytes : Option Bytes
  off : Nat
  deriving DecidableEq, Repr

/-- No prebuffer. -/
def Prebuffer.null : Prebuffer := ⟨none, 0⟩

/-- The bytes of the prebuffer not read yet. -/
def Prebuffer.pending (p : Prebuffer) : Bytes := (p.bytes.getD []).drop p.off

/-- `ws_read_some` and `gateway_upstream_read_some`, the copy out of the prebuffer, which frees it
when all of it is read. -/
def copyPrebuffer (p : Prebuffer) (len : Nat) : Bytes × Prebuffer :=
  if p.pending = [] ∨ len = 0 then ([], p)
  else
    let copied := p.pending.take len
    let off := p.off + copied.length
    (copied, if off = (p.bytes.getD []).length then .null else { p with off := off })

/-- `ws_read_some` and `gateway_upstream_read_some`, `none` if they fail. -/
def readSome (retry : Bool) (s : Prebuffer × List Result) (len : Nat) :
    Option (Bytes × Prebuffer × List Result) :=
  let (copied, p) := copyPrebuffer s.1 len
  (readExact retry s.2 (len - copied.length)).map fun (b, rs) => (copied ++ b, p, rs)

/-- The stream that is still to be read. -/
def Streams (retry : Bool) (s : Prebuffer × List Result) (stream : Bytes) : Prop :=
  ∃ rest, stream = s.1.pending ++ rest ∧ Delivers retry s.2 rest

theorem copyPrebuffer_spec (p : Prebuffer) (len : Nat) :
    (copyPrebuffer p len).1 = p.pending.take len ∧
      (copyPrebuffer p len).2.pending = p.pending.drop len := by
  unfold copyPrebuffer
  by_cases hnil : p.pending = []
  · rw [if_pos (.inl hnil), hnil]
    simp
  by_cases hlen : len = 0
  · rw [if_pos (.inr hlen), hlen]
    simp
  rw [if_neg (not_or.2 ⟨hnil, hlen⟩)]
  refine ⟨rfl, ?_⟩
  dsimp only
  by_cases hall : p.off + (p.pending.take len).length = (p.bytes.getD []).length
  · rw [if_pos hall]
    have hle : p.pending.length ≤ len := by
      rw [List.length_take, Prebuffer.pending, List.length_drop] at hall
      have hpos : 0 < p.pending.length := List.length_pos_of_ne_nil hnil
      rw [Prebuffer.pending, List.length_drop] at hpos ⊢
      omega
    rw [List.drop_eq_nil_of_le hle]
    rfl
  · rw [if_neg hall]
    show (p.bytes.getD []).drop (p.off + (p.pending.take len).length) = _
    rw [← List.drop_drop]
    show p.pending.drop _ = _
    rw [List.length_take]
    rcases Nat.le_total len p.pending.length with hle | hle
    · rw [Nat.min_eq_left hle]
    · rw [Nat.min_eq_right hle, List.drop_length, List.drop_eq_nil_of_le hle]

/-- **Reads take the next bytes of prebuffer and socket.** -/
theorem reads_readSome (retry : Bool) : WebSocket.Reads (readSome retry) (Streams retry) := by
  rintro ⟨p, rs⟩ b rest ⟨tail, hcut, hdel⟩
  obtain ⟨hcopied, hleft⟩ := copyPrebuffer_spec p b.length
  unfold readSome
  generalize copyPrebuffer p b.length = c at hcopied hleft
  obtain ⟨copied, p'⟩ := c
  simp only at hcopied hleft hcut ⊢
  have hsplit : p.pending = copied ++ p'.pending := by
    rw [hcopied, hleft, List.take_append_drop]
  rcases Nat.le_total b.length p.pending.length with hle | hle
  · have hb : copied = b := by
      have htake := congrArg (List.take b.length) hcut
      rwa [List.take_left, List.take_append_of_le_length hle, ← hcopied, eq_comm] at htake
    subst hb
    refine ⟨(p', rs), ?_, tail, ?_, hdel⟩
    · rw [Nat.sub_self, readExact_zero]
      simp
    · rw [hsplit, List.append_assoc] at hcut
      exact List.append_cancel_left hcut
  · have hcopy : copied = p.pending := by rw [hcopied, List.take_of_length_le hle]
    have hempty : p'.pending = [] := by rw [hleft, List.drop_eq_nil_of_le hle]
    obtain ⟨b', rfl⟩ : ∃ b', b = p.pending ++ b' := by
      have hpre : p.pending <+: b ++ rest := hcut ▸ List.prefix_append _ _
      obtain ⟨b', hb'⟩ := List.prefix_of_prefix_length_le hpre (List.prefix_append _ _) hle
      exact ⟨b', hb'.symm⟩
    rw [List.append_assoc] at hcut
    have htail := List.append_cancel_left hcut
    obtain ⟨rs', hread, hrest⟩ := readExact_delivers (htail ▸ hdel)
    refine ⟨(p', rs'), ?_, rest, by rw [hempty]; rfl, hrest⟩
    rw [hcopy, List.length_append, Nat.add_sub_cancel_left, hread]
    rfl

/-- The socket is read only when the prebuffer is empty. -/
theorem readSome_socket {retry : Bool} {s s' : Prebuffer × List Result} {len : Nat} {b : Bytes}
    (h : readSome retry s len = some (b, s')) : s'.1.pending = [] ∨ s'.2 = s.2 := by
  obtain ⟨hcopied, hleft⟩ := copyPrebuffer_spec s.1 len
  unfold readSome at h
  dsimp only at h
  rw [hcopied] at h
  obtain ⟨r, hr, heq⟩ := Option.map_eq_some_iff.1 h
  cases heq
  dsimp only
  rcases Nat.le_total len s.1.pending.length with hle | hle
  · rw [List.length_take, Nat.min_eq_left hle, Nat.sub_self, readExact_zero] at hr
    cases hr
    exact .inr rfl
  · exact .inl (by rw [hleft, List.drop_eq_nil_of_le hle])

/-- So a frame received either empties the prebuffer, or leaves the socket as it is. -/
theorem recvFrame_socket {retry mallocOk : Bool} {bits : Nat} {s s' : Prebuffer × List Result}
    {frame : UInt8 × Bytes}
    (h : WebSocket.recvFrame bits (readSome retry) mallocOk s = some (frame, s')) :
    s'.1.pending = [] ∨ s'.2 = s.2 := by
  refine WebSocket.recvFrame_inv (P := fun t => t.1.pending = [] ∨ t.2 = s.2) ?_ h (.inr rfl)
  intro t n b t' hread ht
  rcases ht with hempty | hsame
  · obtain ⟨-, hleft⟩ := copyPrebuffer_spec t.1 n
    unfold readSome at hread
    dsimp only at hread
    obtain ⟨r, -, heq⟩ := Option.map_eq_some_iff.1 hread
    cases heq
    exact .inl (by rw [hleft, hempty, List.drop_nil])
  · rcases readSome_socket hread with hempty | hsame'
    · exact .inl hempty
    · exact .inr (hsame'.trans hsame)

/-! ## The handshake -/

def crlfcrlf : Bytes := [13, 10, 13, 10]

/-- "101". -/
def switching : Bytes := [0x31, 0x30, 0x31]

/-- `ws_upstream_connect` and `gateway_upstream_connect`, the loop that reads the response into a
buffer of `size` bytes of which `response` is filled: the bytes behind the header, `none` if the
connection is given up. -/
def handshake (retry : Bool) (size : Nat) : Bytes → List Result → Option (Bytes × List Result)
  | _, [] | _, .failed :: _ => none
  | response, .interrupted :: rs => if retry then handshake retry size response rs else none
  | response, .data bytes :: rs =>
    let room := size - response.length - 1
    if room = 0 ∨ bytes = [] then none
    else
      let response := response ++ bytes.take room
      match strstr crlfcrlf (Crypto.cString response) with
      | some i =>
        if (strstr switching (Crypto.cString response)).isNone then none
        else some (response.drop (i + 4), leave bytes room rs)
      | none => if room < bytes.length then none else handshake retry size response rs

/-- A response header: it has no NUL, says "101" and ends at its first empty line. -/
structure Header (header : Bytes) : Prop where
  no_nul : ∀ b ∈ header, b ≠ 0
  switching : (strstr switching header).isSome
  ends : strstr crlfcrlf header = some (header.length - 4)

/-- The same of any response header. -/
structure ResponseHeader (header : Bytes) : Prop where
  no_nul : ∀ b ∈ header, b ≠ 0
  ends : strstr crlfcrlf header = some (header.length - 4)

theorem Header.response {header : Bytes} (h : Header header) : ResponseHeader header :=
  ⟨h.no_nul, h.ends⟩

/-- The read that completes a header of `headerLen` bytes when `response` has been read: all that
has been read then, and what it had no room for. -/
def lastRead (size headerLen : Nat) : Bytes → List Result → Bytes × Bytes
  | response, [] => (response, [])
  | response, .interrupted :: rs | response, .failed :: rs => lastRead size headerLen response rs
  | response, .data bytes :: rs =>
    let room := size - response.length - 1
    let response := response ++ bytes.take room
    if headerLen ≤ response.length then (response, bytes.drop room)
    else lastRead size headerLen response rs

/-- The socket with `unread` in front of what is still to come. -/
def withUnread (unread : Bytes) (rs : List Result) : List Result :=
  if unread = [] then rs else .data unread :: rs

theorem leave_eq (bytes : Bytes) (n : Nat) (rs : List Result) :
    leave bytes n rs = withUnread (bytes.drop n) rs := by
  unfold leave withUnread
  simp only [List.drop_eq_nil_iff]

theorem delivers_withUnread {retry : Bool} {unread rest : Bytes} {rs : List Result}
    (h : Delivers retry rs rest) : Delivers retry (withUnread unread rs) (unread ++ rest) := by
  unfold withUnread
  split
  · rename_i hnil
    rwa [hnil]
  · exact ⟨‹_›, rest, rfl, h⟩

theorem ResponseHeader.length_ge {header : Bytes} (h : ResponseHeader header) :
    4 ≤ header.length := by
  have hlen := (strstr_some h.ends).length_le
  rw [List.length_drop] at hlen
  have : crlfcrlf.length = 4 := rfl
  omega

theorem cString_append {header : Bytes} (h : ∀ b ∈ header, b ≠ 0) (tail : Bytes) :
    Crypto.cString (header ++ tail) = header ++ Crypto.cString tail :=
  List.takeWhile_append_of_pos fun b hb => by simpa using h b hb

section
variable {retry : Bool} {size : Nat} {header response left : Bytes} {rs : List Result}

theorem left_le_room (hsize : header.length < size) (hpart : response ++ left = header) :
    left.length ≤ size - response.length - 1 := by
  rw [← hpart, List.length_append] at hsize
  omega

/-- A read with which the header is still not complete. -/
theorem handshake_short (h : ResponseHeader header) (hsize : header.length < size) {bytes : Bytes}
    (hne : bytes ≠ []) (hleft : left ≠ []) (hpart : response ++ (bytes ++ left) = header) :
    handshake retry size response (.data bytes :: rs) =
        handshake retry size (response ++ bytes) rs ∧
      lastRead size header.length response (.data bytes :: rs) =
        lastRead size header.length (response ++ bytes) rs := by
  have hroom := left_le_room hsize hpart
  have hpos := List.length_pos_of_ne_nil hleft
  rw [List.length_append] at hroom
  rw [handshake, lastRead]
  dsimp only
  rw [if_neg (not_or.2 ⟨by omega, hne⟩)]
  generalize size - response.length - 1 = room at hroom
  have hall : bytes.take room = bytes := List.take_of_length_le (by omega)
  have hread : response ++ bytes <+: header := ⟨left, by rw [← hpart, List.append_assoc]⟩
  have hstr : Crypto.cString (response ++ bytes) = response ++ bytes :=
    Crypto.cString_of_ne_zero fun b hb => h.no_nul b (hread.subset hb)
  have hlen := congrArg List.length hpart
  have hge := h.length_ge
  have hfour : crlfcrlf.length = 4 := rfl
  simp only [List.length_append] at hlen
  have hshort : (response ++ bytes).length < header.length - 4 + crlfcrlf.length := by
    rw [List.length_append]
    omega
  rw [hall, hstr, strstr_prefix h.ends (by decide) hread hshort]
  dsimp only
  rw [if_neg (by omega), if_neg (by rw [List.length_append]; omega)]
  exact ⟨rfl, rfl⟩

/-- The read that completes the header; of what is read behind it, `extra`, the buffer has room
for some. -/
theorem handshake_full (h : ResponseHeader header) (hsize : header.length < size)
    (hleft : left ≠ []) (hpart : response ++ left = header) (extra : Bytes) :
    ∃ n, handshake retry size response (.data (left ++ extra) :: rs) =
        (if (strstr switching (header ++ Crypto.cString (extra.take n))).isNone then none
          else some (extra.take n, withUnread (extra.drop n) rs)) ∧
      lastRead size header.length response (.data (left ++ extra) :: rs) =
        (header ++ extra.take n, extra.drop n) := by
  have hroom := left_le_room hsize hpart
  have hpos := List.length_pos_of_ne_nil hleft
  refine ⟨size - response.length - 1 - left.length, ?_⟩
  rw [handshake, lastRead]
  dsimp only
  rw [if_neg (not_or.2 ⟨by omega, by simp [hleft]⟩)]
  generalize size - response.length - 1 = room at hroom
  have htake : response ++ (left ++ extra).take room =
      header ++ extra.take (room - left.length) := by
    rw [List.take_append, List.take_of_length_le hroom, ← List.append_assoc, hpart]
  have hdrop : (left ++ extra).drop room = extra.drop (room - left.length) := by
    rw [List.drop_append, List.drop_of_length_le hroom, List.nil_append]
  rw [htake, cString_append h.no_nul, strstr_append h.ends, leave_eq, hdrop]
  dsimp only
  rw [Nat.sub_add_cancel h.length_ge, List.drop_left]
  exact ⟨rfl, if_pos (by rw [List.length_append]; omega)⟩

/-- The loop with a part of the header read, by induction on the results. -/
theorem handshake_part (h : ResponseHeader header) (hsize : header.length < size) {rest : Bytes}
    (hpart : response ++ left = header) (hleft : left ≠ [])
    (hdel : Delivers retry rs (left ++ rest)) :
    ∃ got unread rs' tail, rest = got ++ (unread ++ tail) ∧ Delivers retry rs' tail ∧
      lastRead size header.length response rs = (header ++ got, unread) ∧
      handshake retry size response rs =
        if (strstr switching (header ++ Crypto.cString got)).isNone then none
        else some (got, withUnread unread rs') := by
  induction rs generalizing response left with
  | nil => exact absurd (List.append_eq_nil_iff.1 hdel).1 hleft
  | cons r rs ih =>
    cases r with
    | failed => exact hdel.elim
    | interrupted =>
      rw [handshake, if_pos hdel.1, lastRead]
      exact ih hpart hleft hdel.2
    | data bytes =>
      obtain ⟨hne, stream, hcut, hdel⟩ := hdel
      have hbytes : bytes <+: left ++ rest := hcut ▸ List.prefix_append _ _
      rcases Nat.lt_or_ge bytes.length left.length with hlt | hge
      · obtain ⟨left', rfl⟩ :=
          List.prefix_of_prefix_length_le hbytes (List.prefix_append _ _) hlt.le
        have hleft' : left' ≠ [] := by
          rintro rfl
          simp at hlt
        obtain ⟨hshake, hlast⟩ :=
          @handshake_short retry size header response left' rs h hsize bytes hne hleft' hpart
        rw [hshake, hlast]
        apply ih ((List.append_assoc _ _ _).trans hpart) hleft'
        rw [List.append_assoc] at hcut
        rw [List.append_cancel_left hcut]
        exact hdel
      · obtain ⟨extra, rfl⟩ :=
          List.prefix_of_prefix_length_le (List.prefix_append _ _) hbytes hge
        obtain ⟨n, hfull, hlast⟩ :=
          @handshake_full retry size header response left rs h hsize hleft hpart extra
        rw [List.append_assoc] at hcut
        refine ⟨extra.take n, extra.drop n, rs, stream, ?_, hdel, hlast, hfull⟩
        rw [List.append_cancel_left hcut, ← List.append_assoc, List.take_append_drop]

end

section
variable {retry : Bool} {size : Nat} {header rest : Bytes} {rs : List Result}

/-- **The response is judged by what has been read when its header is complete**, however it is
cut: the handshake is accepted if that says "101", and nothing behind the header is lost. -/
theorem handshake_response (h : ResponseHeader header) (hsize : header.length < size)
    (hdel : Delivers retry rs (header ++ rest)) :
    ∃ got unread rs' tail, rest = got ++ (unread ++ tail) ∧ Delivers retry rs' tail ∧
      lastRead size header.length [] rs = (header ++ got, unread) ∧
      handshake retry size [] rs =
        if (strstr switching (header ++ Crypto.cString got)).isNone then none
        else some (got, withUnread unread rs') := by
  apply handshake_part h hsize (List.nil_append _) _ hdel
  rintro rfl
  have := h.length_ge
  simp at this

/-- **The response header is found however it is cut**, and what was read behind it and what is
still to come are the rest of the stream. -/
theorem handshake_header (h : Header header) (hsize : header.length < size)
    (hdel : Delivers retry rs (header ++ rest)) :
    ∃ extra rs' tail, handshake retry size [] rs = some (extra, rs') ∧ rest = extra ++ tail ∧
      Delivers retry rs' tail := by
  obtain ⟨got, unread, rs', tail, hrest, hdel', -, hshake⟩ :=
    handshake_response h.response hsize hdel
  obtain ⟨i, hi⟩ := Option.isSome_iff_exists.1 h.switching
  rw [strstr_append hi, if_neg (by simp)] at hshake
  exact ⟨got, _, unread ++ tail, hshake, hrest, delivers_withUnread hdel'⟩

end

/-- The bytes behind the header become the prebuffer. -/
def prebufferOf (extra : Bytes) : Prebuffer := if extra = [] then .null else ⟨some extra, 0⟩

theorem pending_prebufferOf (extra : Bytes) : (prebufferOf extra).pending = extra := by
  unfold prebufferOf
  split
  · rename_i h
    rw [h]
    rfl
  · rfl

/-- The decimal digits of a port. -/
def decimal (n : Nat) : Bytes := (Nat.toDigits 10 n).map fun c => c.toNat.toUInt8

/-- What `snprintf` makes of the upgrade request. -/
def upgradeRequest (path host : Bytes) (port : UInt16) : Bytes :=
  ascii "GET " ++ path ++ ascii " HTTP/1.1\r\nHost: " ++ host ++ ascii ":" ++
    decimal port.toNat ++ ascii ("\r\nUpgrade: websocket\r\nConnection: Upgrade\r\n" ++
    "Sec-WebSocket-Key: dGhlIHNhbXBsZSBub25jZQ==\r\nSec-WebSocket-Version: 13\r\n\r\n")

/-- `sizeof(request)`. -/
def requestSize : Nat := 512

/-! ## Sending a frame -/

/-- What the calls of a `ws_send_masked_frame` return: `headerSent` and `maskedSent` are `none`
where all is written, and the number of bytes written where the call fails. -/
structure SendCalls where
  headerSent : Option Nat
  mallocOk : Bool
  maskedSent : Option Nat

/-- `tcp_transport_write_all` and `gateway_upstream_write_all` (`true` for 0), with what they
write. -/
def writeAll (sent : Option Nat) (buf : Bytes) : Bool × Bytes :=
  match sent with
  | none => (true, buf)
  | some n => (false, buf.take n)

/-- The two bytes and the extended length of `ws_send_masked_frame`. -/
def maskedHeader (opcode : UInt8) (length : Nat) : Bytes :=
  if length ≤ 125 then [0x80 ||| opcode, 0x80 ||| UInt8.ofNat length]
  else if length ≤ 0xffff then
    [0x80 ||| opcode, 0x80 ||| 126, UInt8.ofNat (length >>> 8), UInt8.ofNat length]
  else
    [0x80 ||| opcode, 0x80 ||| 127] ++
      [7, 6, 5, 4, 3, 2, 1, 0].map fun i => UInt8.ofNat (length >>> (i * 8))

/-- `ws_send_masked_frame` and `gateway_upstream_send_masked_frame` with their mask: the result and
the bytes written. -/
def sendMaskedFrame (mask : WebSocket.Mask) (opcode : UInt8) (payload : Bytes)
    (calls : SendCalls) : Int × Bytes :=
  let (ok, header) := writeAll calls.headerSent (maskedHeader opcode payload.length ++ mask.1)
  if ¬ ok then (-1, header)
  else if payload.length = 0 then (0, header)
  else if ¬ calls.mallocOk then (-1, header)
  else
    let (ok, masked) := writeAll calls.maskedSent (WebSocket.applyMask mask.1 payload)
    (if ok then 0 else -1, header ++ masked)

/-- The bytes are one final frame with the opcode, the mask and the payload, in the shortest
encoding of its length. -/
def IsMaskedFrame (opcode : UInt8) (mask : WebSocket.Mask) (payload bytes : Bytes) : Prop :=
  ∃ width : WebSocket.Width, width.Expresses payload.length ∧
    (∀ w : WebSocket.Width, w.Expresses payload.length → width.size ≤ w.size) ∧
    bytes = WebSocket.layout (0x80 ||| opcode) width (some mask) payload

/-- The header is that of a masked frame in the shortest encoding. -/
theorem maskedHeader_eq (opcode : UInt8) (n : Nat) :
    maskedHeader opcode n =
      [0x80 ||| opcode, 0x80 ||| (WebSocket.Width.shortest n).lowBits n] ++
        (WebSocket.Width.shortest n).ext n := by
  unfold maskedHeader WebSocket.Width.shortest
  by_cases h1 : n < 126
  · rw [if_pos (by omega), if_pos h1]
    rfl
  rw [if_neg (by omega), if_neg h1]
  by_cases h2 : n < 2 ^ 16
  · rw [if_pos (by omega), if_pos h2]
    simp only [WebSocket.Width.lowBits, WebSocket.Width.ext, be16_ofNat]
    rfl
  · rw [if_neg (by omega), if_neg h2]
    simp only [WebSocket.Width.lowBits, WebSocket.Width.ext, be32_ofNat, ← Nat.shiftRight_add]
    rfl

/-- **What a send that returns 0 has written** is one final frame in the shortest encoding. -/
theorem sendMaskedFrame_frame {mask : WebSocket.Mask} {opcode : UInt8} {payload bytes : Bytes}
    {calls : SendCalls} (hlen : payload.length < 2 ^ 64)
    (h : sendMaskedFrame mask opcode payload calls = (0, bytes)) :
    IsMaskedFrame opcode mask payload bytes := by
  obtain ⟨hexpr, hmin⟩ := WebSocket.Width.shortest_min hlen
  refine ⟨_, hexpr, hmin, ?_⟩
  have hlayout : WebSocket.layout (0x80 ||| opcode) (WebSocket.Width.shortest payload.length)
      (some mask) payload =
        maskedHeader opcode payload.length ++ mask.1 ++ WebSocket.applyMask mask.1 payload := by
    rw [maskedHeader_eq, List.append_assoc, List.append_assoc]
    rfl
  rw [hlayout]
  unfold sendMaskedFrame writeAll at h
  obtain ⟨headerSent, mallocOk, maskedSent⟩ := calls
  cases headerSent with
  | some n => cases h
  | none =>
    dsimp only at h
    rw [if_neg (by simp)] at h
    split at h
    · rename_i hzero
      cases h
      rw [List.length_eq_zero_iff.1 hzero]
      exact (List.append_nil _).symm
    split at h
    · cases h
    cases maskedSent with
    | some n => cases h
    | none =>
      cases h
      rfl

end WsClient
