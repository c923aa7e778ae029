import CarplayRelay.Client.Reader

/-!
# The packets in a broken stream

What one iteration of `network_reader` reads depends only on the bytes to come. `nextPacket` is the
iteration as a function of these bytes, without the prefetch buffer and the counter of skipped
bytes, and `packetsOf` the packets of all iterations.

* `readRecords_packetsOf`: `network_reader` reads the packets of the bytes to come, however these
  are split between the prefetch buffer and the transport;
* `packetsOf_garbage` to `packetsOf_lost`: the packets of a stream, byte by byte and record by
  record, also where a payload is missing;
* `packetsOf_append`: the packets of what has arrived are read first when more arrives.
-/

namespace Client

open Bytes Proto

/-! ## An iteration as a function of the bytes -/

/-- The first record, and the bytes behind its 16 bytes. -/
def firstRecord : Bytes → Option (Bytes × Bytes)
  | [] => none
  | x :: r =>
    if (x :: r).length < 16 then none
    else if startsGatewayMagic (x :: r) then some ((x :: r).take 16, (x :: r).drop 16)
    else firstRecord r

/-- The payload of a header, `none` if it is missing or the bytes end; and the bytes behind it. -/
def payloadAt (len : Nat) (bytes : Bytes) : Option (Option Bytes × Bytes) :=
  if len = 0 then some (some [], bytes)
  else if bytes.length < min len 16 then none
  else if startsGatewayMagic (bytes.take (min len 16)) then some (none, bytes)
  else if bytes.length < len then none
  else some (some (bytes.take len), bytes.drop len)

/-- The packet of an iteration, if it reads one, and the bytes behind it. -/
def nextPacket (bytes : Bytes) : Option (Option (MediaInfo × Bytes) × Bytes) :=
  (firstRecord bytes).bind fun (record, r) =>
    match headerOf record with
    | .init _ => some (none, r)
    | .media info => (payloadAt info.payloadLen.toNat r).map fun (p, r) =>
        (p.map fun p => (info, p), r)

def Record.packet : Record → Option (MediaInfo × Bytes)
  | .media info payload _ => some (info, payload)
  | .init _ _ | .lost _ _ => none

/-- The payload `read_gateway_payload_resync` reads. -/
def PayloadResult.read : PayloadResult → Option Bytes
  | .payload p => some p
  | .desync => none

section
variable {s : Source} {bytes r : Bytes}

theorem readExactPrefetched_eq (s : Source) (len : Nat) :
    (readExactPrefetched s len).map (fun (b, s) => (b, s.remaining)) =
      if s.remaining.length < len then none
      else some (s.remaining.take len, s.remaining.drop len) := by
  split
  · rename_i hlt
    cases h : readExactPrefetched s len with
    | none => rfl
    | some p =>
      obtain ⟨hlen, hcut⟩ := readExactPrefetched_some h
      have := congrArg List.length hcut
      simp only [List.length_append] at this
      omega
  · rename_i hle
    have hlen : (s.remaining.take len).length = len := by
      rw [List.length_take]
      omega
    obtain ⟨s', hread, hs'⟩ := readExactPrefetched_of_append
      (List.take_append_drop len s.remaining).symm
    rw [hlen] at hread
    rw [hread, ← hs']
    rfl

theorem firstRecord_short (h : bytes.length < 16) : firstRecord bytes = none := by
  cases bytes with
  | nil => rfl
  | cons x r => rw [firstRecord, if_pos h]

theorem firstRecord_cons {x : UInt8} (h : startsGatewayMagic (x :: r) = false) :
    firstRecord (x :: r) = firstRecord r := by
  rw [firstRecord, h]
  split
  · rename_i hlt
    exact (firstRecord_short (Nat.lt_of_succ_lt hlt)).symm
  · rfl

/-- The window of `read_next_gateway_header` moves on to the first record. -/
theorem scanHeader_firstRecord {w : Scan} (hw : w.headerBuf.length = 16) :
    (scanHeader w).map (fun (header, w) => (header, w.source.remaining)) =
      (firstRecord (w.headerBuf ++ w.source.remaining)).map fun (record, r) =>
        (headerOf record, r) := by
  induction hn : w.source.remaining.length using Nat.strongRecOn generalizing w with
  | ind n ih =>
    obtain ⟨buf, k, s⟩ := w
    obtain ⟨x, buf, rfl⟩ := List.exists_cons_of_length_eq_add_one hw
    dsimp only at hw hn ⊢
    have hmagic : startsGatewayMagic (x :: (buf ++ s.remaining)) = startsGatewayMagic (x :: buf) :=
      startsGatewayMagic_append (p := x :: buf) (by omega) s.remaining
    cases hm : startsGatewayMagic (x :: buf) with
    | true =>
      have hlen : ¬ (x :: (buf ++ s.remaining)).length < 16 := by
        simp only [List.length_cons, List.length_append] at hw ⊢
        omega
      rw [scanHeader, Loop.seek_found (readHeader_record hm (by omega)), List.cons_append,
        firstRecord, if_neg hlen, hmagic, hm, if_pos rfl, ← List.cons_append, List.take_left' hw,
        List.drop_left' hw]
      rfl
    | false =>
      have hprobe : readHeader ⟨x :: buf, k, s⟩ = none := readHeader_none hm (by omega)
      rw [List.cons_append, firstRecord_cons (hmagic.trans hm)]
      cases hrem : s.remaining with
      | nil =>
        have hslide : slideWindow ⟨x :: buf, k, s⟩ = none := by
          have hread := readExactPrefetched_eq s 1
          rw [hrem, if_pos (by simp), Option.map_eq_none_iff] at hread
          simp [slideWindow, hread]
        have hend : firstRecord (buf ++ []) = none := by
          rw [List.append_nil]
          exact firstRecord_short (by simp only [List.length_cons] at hw; omega)
        rw [scanHeader, Loop.seek_fail hprobe hslide, hend]
        rfl
      | cons y rem =>
        obtain ⟨s', hslide, hs'⟩ := slideWindow_eq x buf k hrem
        have hlt : s'.remaining.length < n := by
          rw [← hn, hs', hrem]
          exact Nat.lt_succ_self _
        rw [scanHeader, Loop.seek_step hprobe hslide]
        have hih := ih _ hlt (w := ⟨buf ++ [y], k + 1, s'⟩) (by simpa using hw) rfl
        rw [scanHeader] at hih
        rw [hih, hs', List.append_assoc]
        rfl

theorem length_firstRecord {record : Bytes} (h : firstRecord bytes = some (record, r)) :
    16 + r.length ≤ bytes.length := by
  induction bytes with
  | nil => cases h
  | cons x bytes ih =>
    rw [firstRecord] at h
    split at h
    · cases h
    split at h
    · cases h
      rw [List.length_drop]
      omega
    · exact Nat.le_trans (ih h) (Nat.le_succ _)

theorem readNextGatewayHeader_firstRecord (s : Source) :
    (readNextGatewayHeader s).map (fun (header, _, s) => (header, s.remaining)) =
      (firstRecord s.remaining).map fun (record, r) => (headerOf record, r) := by
  have hread := readExactPrefetched_eq s 16
  unfold readNextGatewayHeader
  rw [packetHeaderSize]
  split at hread
  · rename_i hlt
    rw [Option.map_eq_none_iff.1 hread, firstRecord_short hlt]
    rfl
  · obtain ⟨⟨buf, s'⟩, hbuf, hs⟩ := Option.map_eq_some_iff.1 hread
    obtain ⟨hlen, hcut⟩ := readExactPrefetched_some hbuf
    have hscan := scanHeader_firstRecord (w := ⟨buf, 0, s'⟩) hlen
    dsimp only at hscan
    rw [← hcut] at hscan
    rw [hbuf, ← hscan, Option.map_map]
    rfl

theorem readGatewayPayloadResync_payloadAt (s : Source) (len : Nat) :
    (readGatewayPayloadResync s len).map (fun (p, s) => (p.read, s.remaining)) =
      payloadAt len s.remaining := by
  unfold readGatewayPayloadResync payloadAt
  rw [packetHeaderSize]
  dsimp only
  by_cases h0 : len = 0
  · rw [if_pos h0, if_pos h0]
    rfl
  rw [if_neg h0, if_neg h0]
  have hread := readExactPrefetched_eq s (min len 16)
  by_cases hlt : s.remaining.length < min len 16
  · rw [if_pos hlt] at hread
    rw [if_pos hlt, Option.map_eq_none_iff.1 hread]
    rfl
  rw [if_neg hlt] at hread ⊢
  obtain ⟨⟨front, s₁⟩, hfront, heq⟩ := Option.map_eq_some_iff.1 hread
  obtain ⟨rfl, hs₁⟩ := Prod.mk.inj heq
  simp only [hfront]
  by_cases hm : startsGatewayMagic (s.remaining.take (min len 16)) = true
  · rw [if_pos hm, if_pos hm]
    simp [PayloadResult.read, hs₁]
  rw [if_neg hm, if_neg hm]
  by_cases hle : len = min len 16
  · rw [if_pos hle, if_neg (by omega), ← hle]
    simp [PayloadResult.read, hs₁, ← hle]
  rw [if_neg hle]
  have hrest := readExactPrefetched_eq s₁ (len - min len 16)
  rw [hs₁, List.length_drop] at hrest
  by_cases hshort : s.remaining.length < len
  · rw [if_pos (by omega), Option.map_eq_none_iff] at hrest
    rw [if_pos hshort, hrest]
    rfl
  · rw [if_neg (by omega)] at hrest
    obtain ⟨⟨rest, s₂⟩, hrest, heq⟩ := Option.map_eq_some_iff.1 hrest
    obtain ⟨rfl, hs₂⟩ := Prod.mk.inj heq
    rw [if_neg hshort, hrest]
    have hdrop : min len 16 + (len - min len 16) = len := by omega
    rw [List.drop_drop, hdrop] at hs₂
    simp only [Option.map_some, PayloadResult.read, hs₂]
    rw [← List.take_add, hdrop]

/-- **An iteration of `network_reader` depends on the bytes to come only.** -/
theorem nextRecord_nextPacket (s : Source) :
    (nextRecord s).map (fun (record, s) => (record.packet, s.remaining)) =
      nextPacket s.remaining := by
  have hheader := readNextGatewayHeader_firstRecord s
  unfold nextRecord nextPacket
  cases hread : readNextGatewayHeader s with
  | none =>
    rw [hread] at hheader
    rw [Option.map_eq_none_iff.1 hheader.symm]
    rfl
  | some h =>
    obtain ⟨header, k, s₁⟩ := h
    rw [hread] at hheader
    obtain ⟨⟨record, r⟩, hfirst, heq⟩ := Option.map_eq_some_iff.1 hheader.symm
    obtain ⟨hrecord, rfl⟩ := Prod.mk.inj heq
    rw [hfirst, Option.bind_some]
    dsimp only at hrecord ⊢
    rw [hrecord]
    cases header with
    | init info => rfl
    | media info =>
      have hpay := readGatewayPayloadResync_payloadAt s₁ info.payloadLen.toNat
      dsimp only
      rw [← hpay]
      cases readGatewayPayloadResync s₁ info.payloadLen.toNat with
      | none => rfl
      | some p =>
        obtain ⟨res, s₂⟩ := p
        cases res <;> rfl

end

/-! ## The packets of a stream -/

theorem length_payloadAt {len : Nat} {bytes r : Bytes} {p : Option Bytes}
    (h : payloadAt len bytes = some (p, r)) : r.length ≤ bytes.length := by
  unfold payloadAt at h
  split_ifs at h <;> cases h <;> simp

theorem nextPacket_lt {bytes r : Bytes} {p : Option (MediaInfo × Bytes)}
    (h : nextPacket bytes = some (p, r)) : r.length < bytes.length := by
  obtain ⟨⟨record, r'⟩, hfirst, h⟩ := Option.bind_eq_some_iff.1 h
  have hlen := length_firstRecord hfirst
  dsimp only at h
  split at h
  · cases h
    omega
  · obtain ⟨⟨q, r''⟩, hpay, heq⟩ := Option.map_eq_some_iff.1 h
    cases heq
    have hle : r''.length ≤ r'.length := length_payloadAt hpay
    dsimp only
    omega

/-- The packets in the bytes. -/
def packetsOf (bytes : Bytes) : List (MediaInfo × Bytes) :=
  (Loop.drain List.length nextPacket nextPacket_lt bytes).filterMap id

section
variable {bytes r : Bytes}

theorem packetsOf_none (h : nextPacket bytes = none) : packetsOf bytes = [] := by
  rw [packetsOf, Loop.drain_none h]
  rfl

theorem packetsOf_some {p : Option (MediaInfo × Bytes)} (h : nextPacket bytes = some (p, r)) :
    packetsOf bytes = p.toList ++ packetsOf r := by
  rw [packetsOf, Loop.drain_some h, packetsOf]
  cases p <;> rfl

/-- **`network_reader` reads the packets of the bytes to come.** -/
theorem readRecords_packetsOf (s : Source) :
    (readRecords s).filterMap Record.packet = packetsOf s.remaining := by
  induction hn : s.remaining.length using Nat.strongRecOn generalizing s with
  | ind n ih =>
    have hspec := nextRecord_nextPacket s
    cases hnext : nextRecord s with
    | none =>
      rw [hnext] at hspec
      rw [readRecords, Loop.drain_none hnext, packetsOf_none hspec.symm]
      rfl
    | some q =>
      obtain ⟨record, s'⟩ := q
      rw [hnext] at hspec
      have hlt := nextRecord_lt hnext
      rw [readRecords_cons hnext, packetsOf_some hspec.symm, ← ih _ (hn ▸ hlt) s' rfl]
      cases hp : record.packet with
      | none => rw [List.filterMap_cons_none hp]; rfl
      | some p => rw [List.filterMap_cons_some hp]; rfl

/-! ## The stream, record by record -/

theorem packetsOf_nil : packetsOf [] = [] := packetsOf_none rfl

theorem packetsOf_short (h : bytes.length < 16) : packetsOf bytes = [] :=
  packetsOf_none (by rw [nextPacket, firstRecord_short h]; rfl)

theorem packetsOf_cons {x : UInt8} (h : startsGatewayMagic (x :: r) = false) :
    packetsOf (x :: r) = packetsOf r := by
  have hnext : nextPacket (x :: r) = nextPacket r := by
    rw [nextPacket, nextPacket, firstRecord_cons h]
  cases hr : nextPacket r with
  | none => rw [packetsOf_none hr, packetsOf_none (hnext.trans hr)]
  | some q => rw [packetsOf_some hr, packetsOf_some (hnext.trans hr)]

/-- Bytes without a `G` start no record. -/
theorem packetsOf_garbage {g : Bytes} (hg : ∀ x ∈ g, x ≠ 0x47) (r : Bytes) :
    packetsOf (g ++ r) = packetsOf r := by
  induction g with
  | nil => rfl
  | cons x g ih =>
    rw [List.cons_append, packetsOf_cons, ih fun y hy => hg y (List.mem_cons_of_mem _ hy)]
    rw [Bool.eq_false_iff]
    intro hm
    exact hg x List.mem_cons_self (startsGatewayMagic_bytes hm).1

/-- A part of a magic, with a `G` or nothing behind it, is passed over. -/
theorem packetsOf_magicPart {g : Bytes} (hlen : g.length < 4) (hg : ∀ x ∈ g.drop 1, x ≠ 0x47)
    {r : Bytes} (hr : r = [] ∨ r.byteAt 0 = 0x47) : packetsOf (g ++ r) = packetsOf r := by
  cases g with
  | nil => rfl
  | cons x g =>
    have hno : startsGatewayMagic ((x :: g) ++ r) = false := by
      rcases hr with rfl | hr
      · rw [List.append_nil, startsGatewayMagic, if_pos hlen]
      · exact not_startsGatewayMagic_append (Nat.zero_lt_succ _) hlen hr
    rw [List.cons_append] at hno ⊢
    rw [packetsOf_cons hno]
    exact packetsOf_garbage hg r

/-- A record at the front of the bytes. -/
theorem firstRecord_record {record : Bytes} (hm : startsGatewayMagic record)
    (h16 : record.length = 16) (r : Bytes) : firstRecord (record ++ r) = some (record, r) := by
  obtain ⟨x, record, rfl⟩ := List.exists_cons_of_length_eq_add_one h16
  have hmagic : startsGatewayMagic ((x :: record) ++ r) = true := by
    rw [startsGatewayMagic_append (by omega)]
    exact hm
  have hlen : ¬ ((x :: record) ++ r).length < 16 := by
    rw [List.length_append]
    omega
  rw [List.cons_append] at hmagic hlen ⊢
  rw [firstRecord, if_neg hlen, if_pos hmagic, ← List.cons_append, List.take_left' h16,
    List.drop_left' h16]

theorem packetsOf_init {record : Bytes} (h16 : record.length = 16)
    (hm : ofBe32 record = initMagic) (r : Bytes) : packetsOf (record ++ r) = packetsOf r := by
  have hmagic := (startsGatewayMagic_iff (p := record) (by omega)).2 (.inl hm)
  have hheader : headerOf record = .init (initInfoOf record) := by
    rw [headerOf, hm, if_neg initMagic_ne_packetMagic]
  apply packetsOf_some (p := none)
  simp only [nextPacket, firstRecord_record hmagic h16, Option.bind_some, hheader]

theorem nextPacket_header {header : Bytes} (h16 : header.length = 16)
    (hm : ofBe32 header = packetMagic) (r : Bytes) :
    nextPacket (header ++ r) =
      (payloadAt (mediaInfoOf header).payloadLen.toNat r).map fun (p, r) =>
        (p.map fun p => (mediaInfoOf header, p), r) := by
  have hmagic := (startsGatewayMagic_iff (p := header) (by omega)).2 (.inr hm)
  have hheader : headerOf header = .media (mediaInfoOf header) := by rw [headerOf, if_pos hm]
  simp only [nextPacket, firstRecord_record hmagic h16, Option.bind_some, hheader]

theorem packetsOf_packet {header payload : Bytes} (h16 : header.length = 16)
    (hm : ofBe32 header = packetMagic)
    (hlen : (mediaInfoOf header).payloadLen.toNat = payload.length)
    (hp : startsGatewayMagic payload = false) (r : Bytes) :
    packetsOf (header ++ (payload ++ r)) = (mediaInfoOf header, payload) :: packetsOf r := by
  have hpay : payloadAt payload.length (payload ++ r) = some (some payload, r) := by
    unfold payloadAt
    by_cases h0 : payload.length = 0
    · rw [if_pos h0, List.eq_nil_of_length_eq_zero h0]
      rfl
    · have hfront : startsGatewayMagic ((payload ++ r).take (min payload.length 16)) = false := by
        rw [List.take_append_of_le_length (by omega)]
        exact startsGatewayMagic_take _ hp
      have htotal : (payload ++ r).length = payload.length + r.length := List.length_append
      rw [if_neg h0, if_neg (by omega), hfront, if_neg Bool.false_ne_true, if_neg (by omega),
        List.take_left, List.drop_left]
  apply packetsOf_some (p := some (mediaInfoOf header, payload))
  rw [nextPacket_header h16 hm, hlen, hpay]
  rfl

/-- A header whose payload is missing: another record follows, if anything does. -/
theorem packetsOf_lost {header : Bytes} (h16 : header.length = 16)
    (hm : ofBe32 header = packetMagic) (hlen : 4 ≤ (mediaInfoOf header).payloadLen.toNat)
    (hr : r.length < 4 ∨ startsGatewayMagic r = true) : packetsOf (header ++ r) = packetsOf r := by
  have hnext := nextPacket_header h16 hm r
  generalize (mediaInfoOf header).payloadLen.toNat = len at hnext hlen
  unfold payloadAt at hnext
  rw [if_neg (by omega)] at hnext
  by_cases hshort : r.length < min len 16
  · rw [if_pos hshort] at hnext
    rw [packetsOf_none hnext, packetsOf_short (by omega)]
  · have hmagic : startsGatewayMagic (r.take (min len 16)) = true := by
      rcases hr with hr | hr
      · omega
      · rw [← startsGatewayMagic_append (by rw [List.length_take]; omega) (r.drop (min len 16)),
          List.take_append_drop, hr]
    rw [if_neg hshort, if_pos hmagic] at hnext
    exact packetsOf_some (p := none) hnext

/-! ## More bytes -/

theorem firstRecord_append {record : Bytes} (h : firstRecord bytes = some (record, r)) (x : Bytes) :
    firstRecord (bytes ++ x) = some (record, r ++ x) := by
  induction bytes with
  | nil => cases h
  | cons y bytes ih =>
    rw [firstRecord] at h
    split at h
    · cases h
    rename_i hlen
    have hlen' : ¬ (y :: (bytes ++ x)).length < 16 := by
      simp only [List.length_cons, List.length_append] at hlen ⊢
      omega
    have hmagic : startsGatewayMagic (y :: (bytes ++ x)) = startsGatewayMagic (y :: bytes) :=
      startsGatewayMagic_append (p := y :: bytes) (by omega) x
    rw [List.cons_append, firstRecord, if_neg hlen', hmagic]
    split at h
    · rename_i hm
      cases h
      rw [if_pos hm, ← List.cons_append, List.take_append_of_le_length (by omega),
        List.drop_append_of_le_length (by omega)]
    · rename_i hm
      rw [if_neg hm]
      exact ih h

theorem payloadAt_append {len : Nat} {p : Option Bytes} (h : payloadAt len bytes = some (p, r))
    (x : Bytes) : payloadAt len (bytes ++ x) = some (p, r ++ x) := by
  unfold payloadAt at h ⊢
  have hlen : (bytes ++ x).length = bytes.length + x.length := List.length_append
  split_ifs at h with h0 hfront hm hshort
  · cases h
    rw [if_pos h0]
  · cases h
    rw [if_neg h0, if_neg (by omega), List.take_append_of_le_length (by omega), if_pos hm]
  · cases h
    rw [if_neg h0, if_neg (by omega), List.take_append_of_le_length (by omega), if_neg hm,
      if_neg (by omega), List.take_append_of_le_length (by omega),
      List.drop_append_of_le_length (by omega)]

theorem nextPacket_append {p : Option (MediaInfo × Bytes)} (h : nextPacket bytes = some (p, r))
    (x : Bytes) : nextPacket (bytes ++ x) = some (p, r ++ x) := by
  obtain ⟨⟨record, r'⟩, hfirst, h⟩ := Option.bind_eq_some_iff.1 h
  rw [nextPacket, firstRecord_append hfirst, Option.bind_some]
  dsimp only at h ⊢
  split at h
  · cases h
    rfl
  · obtain ⟨⟨q, r''⟩, hpay, heq⟩ := Option.map_eq_some_iff.1 h
    cases heq
    rw [payloadAt_append hpay]
    rfl

/-- **What arrives later changes no packet read before.** -/
theorem packetsOf_append (bytes x : Bytes) : packetsOf bytes <+: packetsOf (bytes ++ x) := by
  induction hn : bytes.length using Nat.strongRecOn generalizing bytes with
  | ind n ih =>
    cases hnext : nextPacket bytes with
    | none =>
      rw [packetsOf_none hnext]
      exact List.nil_prefix
    | some q =>
      obtain ⟨p, r⟩ := q
      have hlt := nextPacket_lt hnext
      rw [packetsOf_some hnext, packetsOf_some (nextPacket_append hnext x)]
      exact (List.prefix_append_right_inj _).2 (ih _ (hn ▸ hlt) r rfl)

end

end Client
