import CarplayRelay.Lib.Loop
import CarplayRelay.Proto
import Mathlib.Data.List.Basic
import Mathlib.Tactic.SplitIfs

/-!
# The client's framing parser

`network_reader` reads the relay stream record by record: `read_next_gateway_header` slides a
16-byte window until a magic is at its front, `read_gateway_payload_resync` reads the payload
of a media record, or pushes its first bytes back when they start another record. The bytes
come from a prefetch buffer first and from the transport after it (`Source`), and every
operation is described by what it does to the bytes `remaining` in both.

A stream is a list of `Segment`s. In a `WellFormed` one every media header is followed by its
payload or directly by another record, and garbage holds no magic.

* `readRecords_render`: on every well-formed stream, however it is split between prefetch and
  transport, the parser reports exactly the records, the lost headers and the numbers of
  garbage bytes.
-/

namespace Client

open Bytes Proto

/-! ## Reading bytes -/

/-- Where the client's bytes come from. -/
structure Source where
  prefetch : Bytes
  prefetchOff : Nat
  transport : Bytes

/-- The bytes of the prefetch buffer not read yet. -/
def Source.prefetched (s : Source) : Bytes := s.prefetch.drop s.prefetchOff

/-- The bytes still to be read. -/
def Source.remaining (s : Source) : Bytes := s.prefetched ++ s.transport

/-- The copy out of the prefetch buffer at the head of `read_exact_prefetched`, which empties
the buffer when all of it is read. -/
def copyPrefetched (s : Source) (len : Nat) : Bytes × Source :=
  let copied := s.prefetched.take len
  let off := s.prefetchOff + copied.length
  if s.prefetch.length ≤ off then (copied, { s with prefetch := [], prefetchOff := 0 })
  else (copied, { s with prefetchOff := off })

/-- `read_exact_prefetched`, `none` at the end of the transport. -/
def readExactPrefetched (s : Source) (len : Nat) : Option (Bytes × Source) :=
  let (copied, s) := copyPrefetched s len
  if copied.length = len then some (copied, s)
  else
    let rest := len - copied.length
    if s.transport.length < rest then none
    else some (copied ++ s.transport.take rest, { s with transport := s.transport.drop rest })

/-- `prepend_prefetch`. -/
def prependPrefetch (s : Source) (buf : Bytes) : Source :=
  { s with prefetch := buf ++ s.prefetched, prefetchOff := 0 }

theorem copyPrefetched_fst (s : Source) (len : Nat) :
    (copyPrefetched s len).1 = s.prefetched.take len := by
  dsimp only [copyPrefetched]; split_ifs <;> rfl

theorem copyPrefetched_transport (s : Source) (len : Nat) :
    (copyPrefetched s len).2.transport = s.transport := by
  dsimp only [copyPrefetched]; split_ifs <;> rfl

theorem copyPrefetched_prefetched (s : Source) (len : Nat) :
    (copyPrefetched s len).2.prefetched = s.prefetched.drop len := by
  dsimp only [copyPrefetched, Source.prefetched]
  simp only [List.length_take, List.length_drop]
  split_ifs with h
  · simp; omega
  · simp only [List.drop_drop]
    congr 1
    omega

/-- A read takes the next bytes of the stream. -/
theorem readExactPrefetched_some {s s' : Source} {len : Nat} {b : Bytes}
    (h : readExactPrefetched s len = some (b, s')) :
    b.length = len ∧ s.remaining = b ++ s'.remaining := by
  have hfst := copyPrefetched_fst s len
  have htr := copyPrefetched_transport s len
  have hpre := copyPrefetched_prefetched s len
  unfold readExactPrefetched at h
  generalize copyPrefetched s len = c at h hfst htr hpre
  obtain ⟨copied, c⟩ := c
  simp only at h hfst htr hpre
  have hcut : s.prefetched = copied ++ c.prefetched := by
    rw [hfst, hpre, List.take_append_drop]
  split_ifs at h with hlen hshort
  · cases h
    exact ⟨hlen, by simp only [Source.remaining, ← htr, hcut, List.append_assoc]⟩
  · cases h
    have hnil : c.prefetched = [] := by
      rw [hpre]
      simp only [hfst, List.length_take] at hlen
      exact List.drop_eq_nil_of_le (by omega)
    refine ⟨?_, ?_⟩
    · simp only [hfst, List.length_take, List.length_append] at hshort ⊢
      omega
    · show s.prefetched ++ s.transport = _ ++ (c.prefetched ++ _)
      rw [hcut, hnil, ← htr]
      simp

/-- A read fails only where fewer bytes are left. -/
theorem readExactPrefetched_none {s : Source} {len : Nat}
    (h : readExactPrefetched s len = none) : s.remaining.length < len := by
  have hfst := copyPrefetched_fst s len
  have htr := copyPrefetched_transport s len
  unfold readExactPrefetched at h
  generalize copyPrefetched s len = c at h hfst htr
  obtain ⟨copied, c⟩ := c
  simp only at h hfst htr
  have hcopied : copied.length = min len s.prefetched.length := by simp [hfst]
  split_ifs at h with hlen hshort
  show (s.prefetched ++ s.transport).length < len
  rw [List.length_append, ← htr]
  omega

theorem readExactPrefetched_of_append {s : Source} {b r : Bytes} (h : s.remaining = b ++ r) :
    ∃ s', readExactPrefetched s b.length = some (b, s') ∧ s'.remaining = r := by
  cases he : readExactPrefetched s b.length with
  | none =>
    have := readExactPrefetched_none he
    rw [h, List.length_append] at this
    omega
  | some p =>
    obtain ⟨b', s'⟩ := p
    obtain ⟨hlen, hcut⟩ := readExactPrefetched_some he
    rw [h] at hcut
    obtain ⟨rfl, rfl⟩ := List.append_inj hcut hlen.symm
    exact ⟨s', rfl, rfl⟩

@[simp] theorem prependPrefetch_remaining (s : Source) (buf : Bytes) :
    (prependPrefetch s buf).remaining = buf ++ s.remaining := by
  simp [prependPrefetch, Source.remaining, Source.prefetched]

/-! ## Magics -/

/-- `starts_gateway_magic`. -/
def startsGatewayMagic (buf : Bytes) : Bool :=
  if buf.length < 4 then false else ofBe32 buf = initMagic || ofBe32 buf = packetMagic

theorem ofBe32_append {p : Bytes} (h : 4 ≤ p.length) (r : Bytes) : ofBe32 (p ++ r) = ofBe32 p := by
  match p, h with
  | _ :: _ :: _ :: _ :: _, _ => rfl

theorem startsGatewayMagic_append {p : Bytes} (h : 4 ≤ p.length) (r : Bytes) :
    startsGatewayMagic (p ++ r) = startsGatewayMagic p := by
  have h' : ¬ (p ++ r).length < 4 := by simp; omega
  simp only [startsGatewayMagic, ofBe32_append h, if_neg h', if_neg (Nat.not_lt.2 h)]

theorem startsGatewayMagic_iff {p : Bytes} (h : 4 ≤ p.length) :
    startsGatewayMagic p ↔ ofBe32 p = initMagic ∨ ofBe32 p = packetMagic := by
  simp [startsGatewayMagic, Nat.not_lt.2 h]

/-- Both magics are spelled `GW.1`: only their first byte is a `G`. -/
theorem startsGatewayMagic_bytes {p : Bytes} (h : startsGatewayMagic p) :
    p.byteAt 0 = 0x47 ∧ p.byteAt 1 ≠ 0x47 ∧ p.byteAt 2 ≠ 0x47 ∧ p.byteAt 3 ≠ 0x47 := by
  match p with
  | [] | [_] | [_, _] | [_, _, _] => simp [startsGatewayMagic] at h
  | a :: b :: c :: d :: r =>
    have hb := be32_ofBe32 a b c d r
    rw [startsGatewayMagic_iff (by simp)] at h
    rcases h with h | h <;> rw [h] at hb <;> injection hb with ha hb <;>
      injection hb with hb hc <;> injection hc with hc hd <;> injection hd with hd _ <;>
      subst ha <;> subst hb <;> subst hc <;> subst hd <;>
      simp only [byteAt_cons_zero, byteAt_cons_succ] <;> decide

/-- Nothing in `g` starts a record, not even across its end. -/
def NoMagic (g r : Bytes) : Prop := ∀ i < g.length, startsGatewayMagic ((g ++ r).drop i) = false

theorem NoMagic.tail {x : UInt8} {g r : Bytes} (h : NoMagic (x :: g) r) : NoMagic g r := by
  intro i hi
  exact h (i + 1) (by simpa using hi)

/-- No magic starts within the four bytes in front of a `G`. -/
theorem not_startsGatewayMagic_append {g r : Bytes} (hpos : 0 < g.length) (h4 : g.length < 4)
    (hr : r.byteAt 0 = 0x47) : startsGatewayMagic (g ++ r) = false := by
  rw [Bool.eq_false_iff]
  intro hm
  obtain ⟨-, h1, h2, h3⟩ := startsGatewayMagic_bytes hm
  -- the `G` is at an offset of 1, 2 or 3
  have hG := byteAt_append_right g r 0
  rw [hr] at hG
  have : g.length = 1 ∨ g.length = 2 ∨ g.length = 3 := by omega
  rcases this with hl | hl | hl <;> rw [hl] at hG
  · exact h1 hG
  · exact h2 hG
  · exact h3 hG

/-- Garbage in front of a record: no magic straddles the boundary. -/
theorem noMagic_append {g r : Bytes} (hg : NoMagic g []) (hr : startsGatewayMagic r) :
    NoMagic g r := by
  intro i hi
  rw [List.drop_append_of_le_length (by omega)]
  by_cases h4 : 4 ≤ (g.drop i).length
  · rw [startsGatewayMagic_append h4]
    simpa using hg i hi
  · refine not_startsGatewayMagic_append ?_ (by omega) (startsGatewayMagic_bytes hr).1
    rw [List.length_drop]
    omega

/-! ## Headers -/

/-- What `read_next_gateway_header` finds: `1` with a media header or `2` with an INIT record. -/
inductive Header
  | media (info : MediaInfo)
  | init (info : InitInfo)
  deriving DecidableEq, Repr

/-- The variables of `read_next_gateway_header`: its 16-byte window, the number of bytes the
window has slid over, and the bytes behind it. -/
structure Scan where
  headerBuf : Bytes
  skipped : Int32
  source : Source

/-- The two readers the loop of `read_next_gateway_header` tries on its window, in order. -/
def readHeader (w : Scan) : Option Header :=
  match gatewayProtoReadMediaHeader w.headerBuf with
  | some info => some (.media info)
  | none => (gatewayProtoReadInit w.headerBuf).map .init

/-- The end of an iteration: the window moves by one byte. -/
def slideWindow (w : Scan) : Option Scan :=
  (readExactPrefetched w.source 1).map fun (b, s) =>
    ⟨w.headerBuf.drop 1 ++ b, w.skipped + 1, s⟩

theorem slideWindow_lt {w w' : Scan} (h : slideWindow w = some w') :
    w'.source.remaining.length < w.source.remaining.length := by
  unfold slideWindow at h
  obtain ⟨⟨b, s⟩, hp, rfl⟩ := Option.map_eq_some_iff.1 h
  obtain ⟨hb, hs⟩ := readExactPrefetched_some hp
  rw [hs, List.length_append, hb]
  show s.remaining.length < 1 + s.remaining.length
  omega

/-- The loop of `read_next_gateway_header`. -/
def scanHeader (w : Scan) : Option (Header × Scan) :=
  Loop.seek (fun w => w.source.remaining.length) readHeader slideWindow slideWindow_lt w

/-- `read_next_gateway_header`: the header and the number of bytes skipped before it. -/
def readNextGatewayHeader (s : Source) : Option (Header × Int32 × Source) :=
  match readExactPrefetched s packetHeaderSize with
  | none => none
  | some (headerBuf, s) =>
    (scanHeader ⟨headerBuf, 0, s⟩).map fun (header, w) => (header, w.skipped, w.source)

/-- The header of a 16-byte record. -/
def headerOf (record : Bytes) : Header :=
  if ofBe32 record = packetMagic then .media (mediaInfoOf record) else .init (initInfoOf record)

section
variable {buf record r : Bytes} {k : Int32} {s : Source}

theorem readHeader_record (hm : startsGatewayMagic record) (h4 : 4 ≤ record.length) :
    readHeader ⟨record, k, s⟩ = some (headerOf record) := by
  rw [startsGatewayMagic_iff h4] at hm
  unfold readHeader headerOf gatewayProtoReadMediaHeader gatewayProtoReadInit
  rcases hm with hm | hm
  · rw [hm, if_neg initMagic_ne_packetMagic, if_pos rfl, if_neg initMagic_ne_packetMagic]
    rfl
  · rw [hm, if_pos rfl, if_pos rfl]

theorem readHeader_none (hm : startsGatewayMagic buf = false) (h4 : 4 ≤ buf.length) :
    readHeader ⟨buf, k, s⟩ = none := by
  have hne : ¬ (ofBe32 buf = initMagic ∨ ofBe32 buf = packetMagic) := by
    rw [← startsGatewayMagic_iff h4, hm]; simp
  rw [not_or] at hne
  unfold readHeader gatewayProtoReadMediaHeader gatewayProtoReadInit
  rw [if_neg hne.2, if_neg hne.1]
  rfl

theorem slideWindow_eq (x : UInt8) (buf : Bytes) (k : Int32) {y : UInt8} {rem : Bytes}
    (hs : s.remaining = y :: rem) :
    ∃ s', slideWindow ⟨x :: buf, k, s⟩ = some ⟨buf ++ [y], k + 1, s'⟩ ∧ s'.remaining = rem := by
  obtain ⟨s', hread, hs'⟩ := readExactPrefetched_of_append (b := [y]) hs
  rw [List.length_singleton] at hread
  exact ⟨s', by simp [slideWindow, hread], hs'⟩

/-- The window slides over garbage to the record behind it. -/
theorem scanHeader_garbage {g : Bytes} (hg : NoMagic g (record ++ r))
    (hm : startsGatewayMagic record) (h16 : record.length = 16) (hbuf : buf.length = 16)
    (hs : buf ++ s.remaining = g ++ (record ++ r)) :
    ∃ s', scanHeader ⟨buf, k, s⟩ =
        some (headerOf record, ⟨record, k + Int32.ofNat g.length, s'⟩) ∧ s'.remaining = r := by
  induction g generalizing buf k s with
  | nil =>
    obtain ⟨rfl, hr⟩ := List.append_inj (hs.trans (List.nil_append _)) (by omega)
    refine ⟨s, ?_, hr⟩
    rw [scanHeader, Loop.seek_found (readHeader_record hm (by omega))]
    simp
  | cons x g ih =>
    have hfront : startsGatewayMagic buf = false := by
      rw [← startsGatewayMagic_append (by omega) s.remaining, hs]
      exact hg 0 (by simp)
    obtain ⟨b, buf, rfl⟩ := List.exists_cons_of_length_eq_add_one hbuf
    have hlen := congrArg List.length hs
    simp only [List.length_append, List.length_cons] at hlen hbuf
    obtain ⟨y, rem, hrem⟩ := List.exists_cons_of_length_pos (l := s.remaining) (by omega)
    obtain ⟨s', hslide, hs'⟩ := slideWindow_eq b buf k hrem
    rw [hrem, List.cons_append, List.cons_append, List.cons.injEq] at hs
    have hlen' : (buf ++ [y]).length = 16 := by simpa using hbuf
    obtain ⟨s'', hscan, hr⟩ := ih hg.tail hlen' (k := k + 1) (s := s')
      (by rw [hs', List.append_assoc, ← hs.2]; rfl)
    refine ⟨s'', ?_, hr⟩
    rw [scanHeader, Loop.seek_step (readHeader_none hfront (by simp; omega)) hslide]
    rw [scanHeader] at hscan
    rw [hscan, List.length_cons, Int32.ofNat_add, Int32.add_assoc, Int32.add_comm 1]
    rfl

/-- Nothing is found in garbage that ends the stream. -/
theorem scanHeader_end {g : Bytes} (hg : NoMagic g []) (hbuf : buf.length = 16)
    (hs : buf ++ s.remaining = g) : scanHeader ⟨buf, k, s⟩ = none := by
  induction g generalizing buf k s with
  | nil => simp_all
  | cons x g ih =>
    have hfront : startsGatewayMagic buf = false := by
      rw [← startsGatewayMagic_append (by omega) s.remaining, hs]
      simpa using hg 0 (by simp)
    have hprobe := readHeader_none (k := k) (s := s) hfront (by omega)
    obtain ⟨b, buf, rfl⟩ := List.exists_cons_of_length_eq_add_one hbuf
    cases hrem : s.remaining with
    | nil =>
      have hslide : slideWindow ⟨b :: buf, k, s⟩ = none := by
        cases hread : readExactPrefetched s 1 with
        | none => simp [slideWindow, hread]
        | some p =>
          obtain ⟨hy, hs'⟩ := readExactPrefetched_some hread
          simp_all
      exact Loop.seek_fail hprobe hslide
    | cons y rem =>
      obtain ⟨s', hslide, hs'⟩ := slideWindow_eq b buf k hrem
      rw [List.cons_append, List.cons.injEq, hrem] at hs
      rw [scanHeader, Loop.seek_step hprobe hslide]
      exact ih hg.tail (by simpa using hbuf) (by rw [hs', ← hs.2]; simp)

/-- A record is found behind garbage, and the bytes after it are left. -/
theorem readNextGatewayHeader_record {g : Bytes} (hg : NoMagic g [])
    (hm : startsGatewayMagic record) (h16 : record.length = 16)
    (hs : s.remaining = g ++ (record ++ r)) :
    ∃ s', readNextGatewayHeader s = some (headerOf record, Int32.ofNat g.length, s') ∧
      s'.remaining = r := by
  have hfront : startsGatewayMagic (record ++ r) := by
    rw [startsGatewayMagic_append (by omega), hm]
  have hcut : s.remaining = (g ++ (record ++ r)).take 16 ++ (g ++ (record ++ r)).drop 16 := by
    rw [hs, List.take_append_drop]
  have hlen : ((g ++ (record ++ r)).take 16).length = 16 := by
    simp only [List.length_take, List.length_append]
    omega
  obtain ⟨s₁, hread, hs₁⟩ := readExactPrefetched_of_append hcut
  rw [hlen] at hread
  obtain ⟨s', hscan, hr⟩ := scanHeader_garbage (k := 0) (s := s₁) (noMagic_append hg hfront) hm h16
    hlen (by rw [hs₁, List.take_append_drop])
  refine ⟨s', ?_, hr⟩
  rw [readNextGatewayHeader, packetHeaderSize, hread]
  simp [hscan]

theorem readNextGatewayHeader_end {g : Bytes} (hg : NoMagic g []) (hs : s.remaining = g) :
    readNextGatewayHeader s = none := by
  rw [readNextGatewayHeader, packetHeaderSize]
  cases hread : readExactPrefetched s 16 with
  | none => rfl
  | some p =>
    obtain ⟨buf, s'⟩ := p
    obtain ⟨hbuf, hcut⟩ := readExactPrefetched_some hread
    simp [scanHeader_end (k := 0) hg hbuf (hcut.symm.trans hs)]

end

/-! ## Payloads -/

/-- What `read_gateway_payload_resync` returns: `1` with the payload, or `0`. -/
inductive PayloadResult
  | payload (p : Bytes)
  | desync
  deriving DecidableEq, Repr

/-- `read_gateway_payload_resync`, `none` for `-1`. -/
def readGatewayPayloadResync (s : Source) (payloadLen : Nat) : Option (PayloadResult × Source) :=
  if payloadLen = 0 then some (.payload [], s)
  else
    let prefixLen := min payloadLen packetHeaderSize
    match readExactPrefetched s prefixLen with
    | none => none
    | some (front, s) =>
      if startsGatewayMagic front then some (.desync, prependPrefetch s front)
      else if payloadLen = prefixLen then some (.payload front, s)
      else
        match readExactPrefetched s (payloadLen - prefixLen) with
        | none => none
        | some (rest, s) => some (.payload (front ++ rest), s)

section
variable {p r : Bytes} {s : Source}

theorem startsGatewayMagic_take (n : Nat) (h : startsGatewayMagic p = false) :
    startsGatewayMagic (p.take n) = false := by
  by_cases h4 : 4 ≤ (p.take n).length
  · rw [← startsGatewayMagic_append h4 (p.drop n), List.take_append_drop, h]
  · rw [startsGatewayMagic, if_pos (by omega)]

/-- A payload that does not look like a record is read whole. -/
theorem readGatewayPayloadResync_payload (hp : startsGatewayMagic p = false)
    (hs : s.remaining = p ++ r) :
    ∃ s', readGatewayPayloadResync s p.length = some (.payload p, s') ∧ s'.remaining = r := by
  unfold readGatewayPayloadResync
  by_cases h0 : p.length = 0
  · rw [if_pos h0, List.eq_nil_of_length_eq_zero h0]
    rw [List.eq_nil_of_length_eq_zero h0] at hs
    exact ⟨s, rfl, hs⟩
  · obtain ⟨s₁, hread, hs₁⟩ := readExactPrefetched_of_append
      (b := p.take 16) (r := p.drop 16 ++ r) (s := s) (by rw [hs]; simp [← List.append_assoc])
    rw [List.length_take, Nat.min_comm] at hread
    rw [if_neg h0, packetHeaderSize]
    simp only [hread, startsGatewayMagic_take 16 hp, Bool.false_eq_true, if_false]
    by_cases hle : p.length ≤ 16
    · rw [if_pos (by omega), List.take_of_length_le hle]
      rw [List.drop_of_length_le hle, List.nil_append] at hs₁
      exact ⟨s₁, rfl, hs₁⟩
    · obtain ⟨s₂, hrest, hs₂⟩ := readExactPrefetched_of_append hs₁
      rw [List.length_drop] at hrest
      rw [if_neg (by omega), Nat.min_eq_right (by omega), hrest]
      exact ⟨s₂, by simp, hs₂⟩

/-- A missing payload: the next record is recognised and pushed back. -/
theorem readGatewayPayloadResync_desync {len : Nat} (hlen : 4 ≤ len)
    (hm : startsGatewayMagic s.remaining) (h16 : 16 ≤ s.remaining.length) :
    ∃ s', readGatewayPayloadResync s len = some (.desync, s') ∧ s'.remaining = s.remaining := by
  have hcut := (List.take_append_drop (min len 16) s.remaining).symm
  have hfront : (s.remaining.take (min len 16)).length = min len 16 := by
    rw [List.length_take]
    omega
  obtain ⟨s₁, hread, hs₁⟩ := readExactPrefetched_of_append hcut
  rw [hfront] at hread
  have hm' : startsGatewayMagic (s.remaining.take (min len 16)) := by
    rw [← startsGatewayMagic_append (by omega) (s.remaining.drop (min len 16)), ← hcut, hm]
  unfold readGatewayPayloadResync
  rw [if_neg (by omega), packetHeaderSize]
  simp only [hread, hm', if_true]
  exact ⟨_, rfl, by rw [prependPrefetch_remaining, hs₁, ← hcut]⟩

end

/-! ## Records -/

/-- What one iteration of `network_reader` reads: an INIT record, a media record, or a header
whose payload is missing; each with the number of bytes skipped before it. -/
inductive Record
  | init (info : InitInfo) (skipped : Int)
  | media (info : MediaInfo) (payload : Bytes) (skipped : Int)
  | lost (info : MediaInfo) (skipped : Int)
  deriving DecidableEq, Repr

/-- The reads of one iteration of `network_reader`, `none` where its loop breaks. -/
def nextRecord (s : Source) : Option (Record × Source) :=
  match readNextGatewayHeader s with
  | none => none
  | some (.init info, skipped, s) => some (.init info skipped.toInt, s)
  | some (.media info, skipped, s) =>
    match readGatewayPayloadResync s info.payloadLen.toNat with
    | none => none
    | some (.desync, s) => some (.lost info skipped.toInt, s)
    | some (.payload p, s) => some (.media info p skipped.toInt, s)

theorem readNextGatewayHeader_lt {s s' : Source} {header : Header} {k : Int32}
    (h : readNextGatewayHeader s = some (header, k, s')) :
    s'.remaining.length + 16 ≤ s.remaining.length := by
  unfold readNextGatewayHeader at h
  cases hread : readExactPrefetched s packetHeaderSize with
  | none => simp [hread] at h
  | some p =>
    obtain ⟨buf, s₁⟩ := p
    obtain ⟨hbuf, hcut⟩ := readExactPrefetched_some hread
    simp only [hread, Option.map_eq_some_iff] at h
    obtain ⟨⟨header', w⟩, hscan, heq⟩ := h
    cases heq
    have hle := Loop.seek_le hscan
    change w.source.remaining.length ≤ s₁.remaining.length at hle
    rw [hcut, List.length_append, hbuf, packetHeaderSize]
    show w.source.remaining.length + 16 ≤ _
    omega

theorem readGatewayPayloadResync_le {s s' : Source} {len : Nat} {res : PayloadResult}
    (h : readGatewayPayloadResync s len = some (res, s')) :
    s'.remaining.length ≤ s.remaining.length := by
  unfold readGatewayPayloadResync at h
  split_ifs at h with h0
  · cases h; omega
  · cases hread : readExactPrefetched s (min len packetHeaderSize) with
    | none => simp [hread] at h
    | some p =>
      obtain ⟨front, s₁⟩ := p
      have hcut := (readExactPrefetched_some hread).2
      simp only [hread] at h
      split_ifs at h with hm hlen
      · cases h
        exact Nat.le_of_eq (by rw [prependPrefetch_remaining, ← hcut])
      · cases h
        simp [hcut]
      · cases hrest : readExactPrefetched s₁ (len - min len packetHeaderSize) with
        | none => simp [hrest] at h
        | some q =>
          obtain ⟨rest, s₂⟩ := q
          have hcut' := (readExactPrefetched_some hrest).2
          simp only [hrest] at h
          cases h
          simp [hcut, hcut']
          omega

theorem nextRecord_lt {s s' : Source} {r : Record} (h : nextRecord s = some (r, s')) :
    s'.remaining.length < s.remaining.length := by
  unfold nextRecord at h
  split at h
  · cases h
  · rename_i hread
    cases h
    have := readNextGatewayHeader_lt hread
    omega
  · rename_i hread
    have := readNextGatewayHeader_lt hread
    split at h
    · cases h
    all_goals
      rename_i hpay
      cases h
      have := readGatewayPayloadResync_le hpay
      omega

/-- The records `network_reader` reads until its loop breaks. -/
def readRecords (s : Source) : List Record :=
  Loop.drain (fun s => s.remaining.length) nextRecord nextRecord_lt s

/-! ## Streams -/

/-- A piece of a damaged stream. -/
inductive Segment
  /-- An INIT record. -/
  | init (record : Bytes)
  /-- A media header and its payload. -/
  | media (header payload : Bytes)
  /-- A media header whose payload is missing. -/
  | lost (header : Bytes)
  | garbage (bytes : Bytes)

namespace Segment

def render : Segment → Bytes
  | .init record => record
  | .media header payload => header ++ payload
  | .lost header => header
  | .garbage bytes => bytes

def IsGarbage : Segment → Prop
  | .garbage _ => True
  | _ => False

/-- A segment is well formed in front of `next`. A record has the length and the magic of its
kind; a present payload has the announced length and does not start like a record; a missing one
was announced with at least 4 bytes, and a record follows; garbage is a maximal run without a
magic. -/
def Ok : Segment → List Segment → Prop
  | .init record, _ => record.length = 16 ∧ ofBe32 record = initMagic
  | .media header payload, _ =>
    header.length = 16 ∧ ofBe32 header = packetMagic ∧
      (mediaInfoOf header).payloadLen.toNat = payload.length ∧ startsGatewayMagic payload = false
  | .lost header, next =>
    header.length = 16 ∧ ofBe32 header = packetMagic ∧ 4 ≤ (mediaInfoOf header).payloadLen.toNat ∧
      ∃ seg rest, next = seg :: rest ∧ ¬ seg.IsGarbage
  | .garbage bytes, next =>
    bytes.length < 2 ^ 31 ∧ (∀ i < bytes.length, startsGatewayMagic (bytes.drop i) = false) ∧
      ∀ seg rest, next = seg :: rest → ¬ seg.IsGarbage

end Segment

/-- Every segment is well formed in front of the ones after it. -/
def WellFormed : List Segment → Prop
  | [] => True
  | seg :: segs => seg.Ok segs ∧ WellFormed segs

/-- The bytes of a stream. -/
def render (segs : List Segment) : Bytes := (segs.map Segment.render).flatten

/-- What is in a stream: its records and the lost headers in order, each with the number of
garbage bytes before it; `skipped` of them come before the stream. -/
def expected (skipped : Nat) : List Segment → List Record
  | [] => []
  | .init record :: segs => .init (initInfoOf record) skipped :: expected 0 segs
  | .media header payload :: segs => .media (mediaInfoOf header) payload skipped :: expected 0 segs
  | .lost header :: segs => .lost (mediaInfoOf header) skipped :: expected 0 segs
  | .garbage bytes :: segs => expected (skipped + bytes.length) segs

@[simp] theorem render_cons (seg : Segment) (segs : List Segment) :
    render (seg :: segs) = seg.render ++ render segs := rfl

/-! ## The parser reports what is in the stream -/

section
variable {s : Source} {g : Bytes} {segs : List Segment}

/-- Every segment but garbage starts a record. -/
theorem Segment.Ok.starts {seg : Segment} {next : List Segment} (h : seg.Ok next)
    (hseg : ¬ seg.IsGarbage) (r : Bytes) :
    startsGatewayMagic (seg.render ++ r) ∧ 16 ≤ (seg.render ++ r).length := by
  have key {record : Bytes} (h16 : record.length = 16)
      (hm : ofBe32 record = initMagic ∨ ofBe32 record = packetMagic) (r : Bytes) :
      startsGatewayMagic (record ++ r) ∧ 16 ≤ (record ++ r).length := by
    rw [startsGatewayMagic_append (by omega), startsGatewayMagic_iff (by omega), List.length_append]
    exact ⟨hm, by omega⟩
  cases seg with
  | init record => exact key h.1 (.inl h.2) r
  | media header payload =>
    rw [Segment.render, List.append_assoc]
    exact key h.1 (.inr h.2.1) _
  | lost header => exact key h.1 (.inr h.2.1) r
  | garbage bytes => exact absurd trivial hseg

theorem nextRecord_init {record r : Bytes} (hg : NoMagic g []) (hlen : g.length < 2 ^ 31)
    (h16 : record.length = 16) (hm : ofBe32 record = initMagic)
    (hs : s.remaining = g ++ (record ++ r)) :
    ∃ s', nextRecord s = some (.init (initInfoOf record) g.length, s') ∧ s'.remaining = r := by
  obtain ⟨s', hread, hr⟩ := readNextGatewayHeader_record hg
    ((startsGatewayMagic_iff (by omega)).2 (.inl hm)) h16 hs
  refine ⟨s', ?_, hr⟩
  rw [headerOf, hm, if_neg initMagic_ne_packetMagic] at hread
  simp only [nextRecord, hread, Int32.toInt_ofNat_of_lt hlen]

theorem readNextGatewayHeader_media {header r : Bytes} (hg : NoMagic g [])
    (h16 : header.length = 16) (hm : ofBe32 header = packetMagic)
    (hs : s.remaining = g ++ (header ++ r)) :
    ∃ s', readNextGatewayHeader s =
        some (.media (mediaInfoOf header), Int32.ofNat g.length, s') ∧ s'.remaining = r := by
  obtain ⟨s', hread, hr⟩ := readNextGatewayHeader_record hg
    ((startsGatewayMagic_iff (by omega)).2 (.inr hm)) h16 hs
  rw [headerOf, if_pos hm] at hread
  exact ⟨s', hread, hr⟩

theorem nextRecord_media {header payload r : Bytes} (hg : NoMagic g []) (hlen : g.length < 2 ^ 31)
    (h16 : header.length = 16) (hm : ofBe32 header = packetMagic)
    (hp : (mediaInfoOf header).payloadLen.toNat = payload.length)
    (hpm : startsGatewayMagic payload = false)
    (hs : s.remaining = g ++ (header ++ (payload ++ r))) :
    ∃ s', nextRecord s = some (.media (mediaInfoOf header) payload g.length, s') ∧
      s'.remaining = r := by
  obtain ⟨s₁, hread, hs₁⟩ := readNextGatewayHeader_media hg h16 hm hs
  obtain ⟨s', hpay, hr⟩ := readGatewayPayloadResync_payload hpm hs₁
  rw [← hp] at hpay
  refine ⟨s', ?_, hr⟩
  simp only [nextRecord, hread, hpay, Int32.toInt_ofNat_of_lt hlen]

theorem nextRecord_lost {header r : Bytes} (hg : NoMagic g []) (hlen : g.length < 2 ^ 31)
    (h16 : header.length = 16) (hm : ofBe32 header = packetMagic)
    (hp : 4 ≤ (mediaInfoOf header).payloadLen.toNat)
    (hr : startsGatewayMagic r ∧ 16 ≤ r.length) (hs : s.remaining = g ++ (header ++ r)) :
    ∃ s', nextRecord s = some (.lost (mediaInfoOf header) g.length, s') ∧ s'.remaining = r := by
  obtain ⟨s₁, hread, hs₁⟩ := readNextGatewayHeader_media hg h16 hm hs
  obtain ⟨s', hpay, hs'⟩ := readGatewayPayloadResync_desync (s := s₁) hp
    (by rw [hs₁]; exact hr.1) (by rw [hs₁]; exact hr.2)
  refine ⟨s', ?_, hs'.trans hs₁⟩
  simp only [nextRecord, hread, hpay, Int32.toInt_ofNat_of_lt hlen]

theorem readRecords_cons {s' : Source} {r : Record} (h : nextRecord s = some (r, s')) :
    readRecords s = r :: readRecords s' := Loop.drain_some h

/-- The parser on a stream behind garbage `g`, by induction on the segments: every segment but
garbage is one iteration, and a garbage segment is the `g` of the segments after it. -/
theorem readRecords_garbage_render (hwf : WellFormed segs) (hg : NoMagic g [])
    (hlen : g.length < 2 ^ 31) (hnext : g ≠ [] → ∀ seg rest, segs = seg :: rest → ¬ seg.IsGarbage)
    (hs : s.remaining = g ++ render segs) : readRecords s = expected g.length segs := by
  have hnil : NoMagic [] [] := fun i hi => absurd hi (by simp)
  induction segs generalizing g s with
  | nil =>
    have hend := readNextGatewayHeader_end hg (hs.trans (List.append_nil g))
    exact Loop.drain_none (by rw [nextRecord, hend])
  | cons seg segs ih =>
    obtain ⟨hok, hwf⟩ := hwf
    have iter {r : Record} (h : ∃ s', nextRecord s = some (r, s') ∧ s'.remaining = render segs) :
        readRecords s = r :: expected 0 segs := by
      obtain ⟨s', hnext, hs'⟩ := h
      rw [readRecords_cons hnext, ih hwf hnil (by simp) (by simp) hs']
      rfl
    cases seg with
    | init record => exact iter (nextRecord_init hg hlen hok.1 hok.2 hs)
    | media header payload =>
      refine iter (nextRecord_media hg hlen hok.1 hok.2.1 hok.2.2.1 hok.2.2.2 ?_)
      rw [hs, render_cons, Segment.render, List.append_assoc]
    | lost header =>
      obtain ⟨h16, hm, hp, seg, rest, rfl, hseg⟩ := hok
      exact iter (nextRecord_lost hg hlen h16 hm hp (hwf.1.starts hseg (render rest)) hs)
    | garbage bytes =>
      obtain ⟨hbytes, hno, hmax⟩ := hok
      have hempty : g = [] := by
        by_contra hne
        exact hnext hne _ _ rfl trivial
      subst hempty
      rw [expected, List.length_nil, Nat.zero_add]
      exact ih hwf (fun i hi => by simpa using hno i hi) hbytes (fun _ => hmax) hs

/-- **Resynchronisation is exact.** However the bytes of a well-formed stream are split between
the prefetch buffer and the transport, `network_reader` reads exactly its records. -/
theorem readRecords_render (hwf : WellFormed segs) (hs : s.remaining = render segs) :
    readRecords s = expected 0 segs :=
  readRecords_garbage_render (g := []) hwf (fun i hi => absurd hi (by simp)) (by simp) (by simp) hs

end

/-- A damaged stream: garbage that ends like a magic begins, an INIT record, a header without its
payload, and a whole record. -/
def damagedStream : List Segment :=
  let info : MediaInfo := ⟨streamVideo, flagKeyframe, 7, 5⟩
  [.garbage [0xff, 0x47, 0x57], .init (gatewayProtoWriteInit gatewayProtoDefaultInit),
   .lost (gatewayProtoWriteMediaHeader info),
   .media (gatewayProtoWriteMediaHeader info) [1, 2, 3, 4, 5], .garbage [0x47]]

theorem readRecords_render_damagedStream :
    readRecords ⟨0x00 :: (render damagedStream).take 21, 1, (render damagedStream).drop 21⟩ =
      expected 0 damagedStream := by
  refine readRecords_render ?_ ?_
  · refine ⟨⟨by decide, by decide, ?_⟩, ⟨by decide, by decide⟩,
      ⟨by decide, by decide, by decide, ?_⟩, ⟨by decide, by decide, by decide, by decide⟩,
      ⟨by decide, by decide, ?_⟩, trivial⟩
    · rintro _ _ ⟨⟩ ⟨⟩
    · exact ⟨_, _, rfl, id⟩
    · rintro _ _ ⟨⟩
  · exact List.take_append_drop 21 (render damagedStream)

end Client
