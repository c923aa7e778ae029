import CarplayRelay.Lib.Bytes
import Mathlib.Data.List.Basic
import Mathlib.Tactic.SplitIfs

/-!
# Encrypted packets (`crypto_stream.c`)

A crypto packet is an 8-byte header (`CH`, version, stream id, sequence number) followed by the
plaintext XORed with the ChaCha20 keystream of (key, packet nonce, counter 1). The cipher itself
is a submodule: `KeyStream` is its keystream, a function of key, nonce, counter and position,
and `chacha20Xor` XORs with it.

* `decryptPacket_encryptPacket`: decryption of an encrypted packet under the same session nonce
  returns stream id, sequence number and plaintext.
* `encryptPacket_decryptPacket`: an accepted packet is the encryption of what is reported of it.
* `cryptoStream_bijective`: both, with the return values and the memory written.
* `cryptoStreamPacketNonce_inj`: distinct sequence numbers get distinct packet nonces.
-/

namespace Crypto

open Bytes

def headerSize : Nat := 8
def nonceSize : Nat := 12

/-- `CRYPTO_STREAM_ID_VIDEO`, `CRYPTO_STREAM_ID_AUDIO`. -/
def streamIdVideo : UInt8 := 1
def streamIdAudio : UInt8 := 2

/-- A buffer of `CRYPTO_STREAM_NONCE_SIZE` bytes. -/
abbrev Nonce := { n : Bytes // n.length = nonceSize }

/-- `g_crypto_stream_key`: "CarplayPoCChaChaStreamKey-v1!!!!". -/
def defaultKey : Bytes :=
  [0x43, 0x61, 0x72, 0x70, 0x6c, 0x61, 0x79, 0x50, 0x6f, 0x43, 0x43, 0x68, 0x61, 0x43, 0x68, 0x61,
   0x53, 0x74, 0x72, 0x65, 0x61, 0x6d, 0x4b, 0x65, 0x79, 0x2d, 0x76, 0x31, 0x21, 0x21, 0x21, 0x21]

/-- The cipher's keystream byte at a position, for a key, a nonce and an initial counter. -/
abbrev KeyStream := Bytes → Bytes → UInt32 → Nat → UInt8

/-- `chacha20_xor`. -/
def chacha20Xor (ks : KeyStream) (input key nonce : Bytes) (counter : UInt32) : Bytes :=
  input.mapIdx fun i b => b ^^^ ks key nonce counter i

@[simp] theorem length_chacha20Xor (ks : KeyStream) (input key nonce : Bytes) (c : UInt32) :
    (chacha20Xor ks input key nonce c).length = input.length := by simp [chacha20Xor]

theorem chacha20Xor_take (ks : KeyStream) (input key nonce : Bytes) (c : UInt32) (n : Nat) :
    (chacha20Xor ks input key nonce c).take n = chacha20Xor ks (input.take n) key nonce c := by
  apply List.ext_getElem <;> simp [chacha20Xor]

@[simp] theorem chacha20Xor_chacha20Xor (ks : KeyStream) (input key nonce : Bytes) (c : UInt32) :
    chacha20Xor ks (chacha20Xor ks input key nonce c) key nonce c = input := by
  refine List.ext_getElem (by simp) fun i hi hi' => ?_
  simp only [chacha20Xor, List.getElem_mapIdx, UInt8.xor_assoc, UInt8.xor_self, UInt8.xor_zero]

/-- A media packet: stream id, sequence number and plaintext. -/
abbrev Plain := UInt8 × UInt32 × Bytes

/-! ## Packet nonces -/

/-- `crypto_stream_packet_nonce`: the last word of the session nonce advanced by `seqNo`. -/
def cryptoStreamPacketNonce (sessionNonce : Nonce) (seqNo : UInt32) : Bytes :=
  sessionNonce.1.take 8 ++ le32 (ofLe32 (sessionNonce.1.drop 8) + seqNo)

theorem cryptoStreamPacketNonce_inj {n : Nonce} {s t : UInt32}
    (h : cryptoStreamPacketNonce n s = cryptoStreamPacketNonce n t) : s = t := by
  unfold cryptoStreamPacketNonce at h
  exact UInt32.add_right_inj _ |>.1 (le32_inj (List.append_cancel_left h))

/-! ## Encryption and decryption -/

def cryptoStreamPacketSize (plaintextLen : Nat) : Nat := headerSize + plaintextLen

/-- What `crypto_stream_encrypt_packet` writes: header and ciphertext. -/
def packetBytes (ks : KeyStream) (streamId : UInt8) (seqNo : UInt32) (sessionNonce : Nonce)
    (plaintext : Bytes) : Bytes :=
  [0x43, 0x48, 1, streamId] ++ be32 seqNo ++
    chacha20Xor ks plaintext defaultKey (cryptoStreamPacketNonce sessionNonce seqNo) 1

/-- `crypto_stream_encrypt_packet`: the returned `int` and the bytes written to a buffer of
`outPacketSize` bytes, `none` for `-1` with nothing written. -/
def cryptoStreamEncryptPacket (ks : KeyStream) (outPacketSize : Nat) (streamId : UInt8)
    (seqNo : UInt32) (sessionNonce : Nonce) (plaintext : Bytes) : Option (Int × Bytes) :=
  let packetSize := cryptoStreamPacketSize plaintext.length
  if outPacketSize < packetSize then none
  else some (toInt32 packetSize, packetBytes ks streamId seqNo sessionNonce plaintext)

/-- What `crypto_stream_decrypt_packet` reports on success. -/
structure Decrypted where
  rc : Int
  streamId : UInt8
  seqNo : UInt32
  plaintext : Bytes
  deriving DecidableEq, Repr

/-- `crypto_stream_decrypt_packet` into a buffer of `outPlaintextSize` bytes, `none` for `-1`. -/
def cryptoStreamDecryptPacket (ks : KeyStream) (outPlaintextSize : Nat) (sessionNonce : Nonce)
    (packet : Bytes) : Option Decrypted :=
  if packet.length < headerSize then none
  else if packet.byteAt 0 ≠ 0x43 ∨ packet.byteAt 1 ≠ 0x48 then none
  else if packet.byteAt 2 ≠ 1 then none
  else
    let ciphertextLen := packet.length - headerSize
    if outPlaintextSize < ciphertextLen then none
    else
      let seqNo := ofBe32 (packet.drop 4)
      some { rc := toInt32 ciphertextLen
             streamId := packet.byteAt 3
             seqNo := seqNo
             plaintext := chacha20Xor ks (packet.drop headerSize) defaultKey
               (cryptoStreamPacketNonce sessionNonce seqNo) 1 }

@[simp] theorem length_packetBytes (ks : KeyStream) (sid : UInt8) (seq : UInt32) (n : Nonce)
    (p : Bytes) : (packetBytes ks sid seq n p).length = cryptoStreamPacketSize p.length := by
  simp [packetBytes, cryptoStreamPacketSize, headerSize]; omega

theorem cryptoStreamEncryptPacket_eq (ks : KeyStream) (sid : UInt8) (seq : UInt32) (n : Nonce)
    (p : Bytes) :
    cryptoStreamEncryptPacket ks (cryptoStreamPacketSize p.length) sid seq n p =
      some (toInt32 (cryptoStreamPacketSize p.length), packetBytes ks sid seq n p) := by
  simp [cryptoStreamEncryptPacket]

/-- **Decryption inverts encryption** under the same session nonce, into any buffer that holds
the plaintext. -/
theorem decryptPacket_encryptPacket (ks : KeyStream) (sid : UInt8) (seq : UInt32) (n : Nonce)
    (p : Bytes) {size : Nat} (hs : p.length ≤ size) :
    cryptoStreamDecryptPacket ks size n (packetBytes ks sid seq n p) =
      some ⟨toInt32 p.length, sid, seq, p⟩ := by
  have hlen := length_packetBytes ks sid seq n p
  have h4 : ofBe32 ((packetBytes ks sid seq n p).drop 4) = seq := by
    show ofBe32 (be32 seq ++ _) = seq
    exact ofBe32_be32 seq _
  have h8 : (packetBytes ks sid seq n p).drop headerSize =
      chacha20Xor ks p defaultKey (cryptoStreamPacketNonce n seq) 1 := rfl
  unfold cryptoStreamDecryptPacket
  rw [hlen, h4, h8]
  simp only [cryptoStreamPacketSize, Nat.add_sub_cancel_left, chacha20Xor_chacha20Xor]
  simp [packetBytes, hs]

/-- What decryption accepts: the header is one of a crypto packet, and the buffer is large
enough. -/
def Accepted (outPlaintextSize : Nat) (packet : Bytes) : Prop :=
  headerSize ≤ packet.length ∧ packet.byteAt 0 = 0x43 ∧ packet.byteAt 1 = 0x48 ∧
    packet.byteAt 2 = 1 ∧ packet.length - headerSize ≤ outPlaintextSize

theorem decryptPacket_isSome {ks : KeyStream} {size : Nat} {n : Nonce} {packet : Bytes} :
    (cryptoStreamDecryptPacket ks size n packet).isSome ↔ Accepted size packet := by
  unfold cryptoStreamDecryptPacket Accepted
  dsimp only
  split_ifs with hlen hmagic hversion hsize
  · exact iff_of_false Bool.false_ne_true fun h => absurd h.1 (by omega)
  · exact iff_of_false Bool.false_ne_true fun h => hmagic.elim (absurd h.2.1) (absurd h.2.2.1)
  · exact iff_of_false Bool.false_ne_true fun h => hversion h.2.2.2.1
  · exact iff_of_false Bool.false_ne_true fun h => absurd h.2.2.2.2 (by omega)
  · rw [not_or, not_not, not_not] at hmagic
    exact iff_of_true rfl ⟨by omega, hmagic.1, hmagic.2, not_not.1 hversion, by omega⟩

theorem exists_header {p : Bytes} (h : headerSize ≤ p.length) :
    ∃ b0 b1 b2 b3 b4 b5 b6 b7 rest, p = b0 :: b1 :: b2 :: b3 :: b4 :: b5 :: b6 :: b7 :: rest := by
  rcases p with
    _ | ⟨b0, _ | ⟨b1, _ | ⟨b2, _ | ⟨b3, _ | ⟨b4, _ | ⟨b5, _ | ⟨b6, _ | ⟨b7, rest⟩⟩⟩⟩⟩⟩⟩⟩
  case cons.cons.cons.cons.cons.cons.cons.cons => exact ⟨b0, b1, b2, b3, b4, b5, b6, b7, rest, rfl⟩
  all_goals exact absurd h (by simp [headerSize])

/-- Every byte of a packet with the header of a crypto packet is determined by its stream id, its
sequence number and the bytes after the header. -/
theorem packet_eq {size : Nat} {packet : Bytes} (h : Accepted size packet) :
    packet = [0x43, 0x48, 1, packet.byteAt 3] ++ be32 (ofBe32 (packet.drop 4)) ++
      packet.drop headerSize := by
  obtain ⟨hlen, hmagic0, hmagic1, hversion, -⟩ := h
  obtain ⟨b0, b1, b2, b3, b4, b5, b6, b7, rest, rfl⟩ := exists_header hlen
  cases hmagic0
  cases hmagic1
  cases hversion
  show _ = _ :: _ :: _ :: b3 :: (be32 (ofBe32 (b4 :: b5 :: b6 :: b7 :: rest)) ++ rest)
  rw [be32_ofBe32]
  rfl

/-- **An accepted packet is the encryption of what is reported of it.** -/
theorem encryptPacket_decryptPacket {ks : KeyStream} {size : Nat} {n : Nonce} {packet : Bytes}
    {d : Decrypted} (h : cryptoStreamDecryptPacket ks size n packet = some d) :
    packetBytes ks d.streamId d.seqNo n d.plaintext = packet ∧ d.rc = toInt32 d.plaintext.length ∧
      d.plaintext.length ≤ size := by
  have hacc : Accepted size packet := decryptPacket_isSome.1 (Option.isSome_of_eq_some h)
  unfold cryptoStreamDecryptPacket at h
  dsimp only at h
  split_ifs at h
  cases h
  refine ⟨?_, by simp, by simpa using hacc.2.2.2.2⟩
  rw [packetBytes, chacha20Xor_chacha20Xor]
  exact (packet_eq hacc).symm

/-! ## The memory written -/

/-- `crypto_stream_encrypt_packet` over the buffer `out`: the returned `int` and the buffer. -/
def cryptoStreamEncryptPacketTo (ks : KeyStream) (out : Bytes) (streamId : UInt8) (seqNo : UInt32)
    (sessionNonce : Nonce) (plaintext : Bytes) : Int × Bytes :=
  let packetSize := cryptoStreamPacketSize plaintext.length
  if out.length < packetSize then (-1, out)
  else
    let out := out.set 0 0x43
    let out := out.set 1 0x48
    let out := out.set 2 1
    let out := out.set 3 streamId
    let out := out.take 4 ++ be32 seqNo ++ out.drop 8
    let nonce := cryptoStreamPacketNonce sessionNonce seqNo
    let out := out.take headerSize ++ chacha20Xor ks plaintext defaultKey nonce 1 ++
      out.drop packetSize
    (toInt32 packetSize, out)

/-- The memory at the output pointers of `crypto_stream_decrypt_packet`. -/
structure DecryptOut where
  plaintext : Bytes
  streamId : UInt8
  seqNo : UInt32
  deriving DecidableEq, Repr

/-- `crypto_stream_decrypt_packet` over the memory `out`: the returned `int` and the memory. -/
def cryptoStreamDecryptPacketTo (ks : KeyStream) (out : DecryptOut) (sessionNonce : Nonce)
    (packet : Bytes) : Int × DecryptOut :=
  if packet.length < headerSize then (-1, out)
  else if packet.byteAt 0 ≠ 0x43 ∨ packet.byteAt 1 ≠ 0x48 then (-1, out)
  else if packet.byteAt 2 ≠ 1 then (-1, out)
  else
    let ciphertextLen := packet.length - headerSize
    if out.plaintext.length < ciphertextLen then (-1, out)
    else
      let seqNo := ofBe32 (packet.drop 4)
      let out := { out with streamId := packet.byteAt 3 }
      let out := { out with seqNo := seqNo }
      let nonce := cryptoStreamPacketNonce sessionNonce seqNo
      let out := { out with
        plaintext := chacha20Xor ks (packet.drop headerSize) defaultKey nonce 1 ++
          out.plaintext.drop ciphertextLen }
      (toInt32 ciphertextLen, out)

theorem drop_packetSize (rest : Bytes) (b0 b1 b2 b3 b4 b5 b6 b7 : UInt8) (k : Nat) :
    (b0 :: b1 :: b2 :: b3 :: b4 :: b5 :: b6 :: b7 :: rest).drop (cryptoStreamPacketSize k) =
      rest.drop k := by
  unfold cryptoStreamPacketSize
  rw [← List.drop_drop]
  rfl

theorem encryptPacketTo_eq (ks : KeyStream) {out : Bytes} (sid : UInt8) (seq : UInt32) (n : Nonce)
    {p : Bytes} (h : cryptoStreamPacketSize p.length ≤ out.length) :
    cryptoStreamEncryptPacketTo ks out sid seq n p =
      (toInt32 (cryptoStreamPacketSize p.length),
        packetBytes ks sid seq n p ++ out.drop (cryptoStreamPacketSize p.length)) := by
  unfold cryptoStreamEncryptPacketTo
  rw [if_neg (by omega)]
  have hlen : headerSize ≤ out.length := by
    unfold cryptoStreamPacketSize at h
    omega
  obtain ⟨b0, b1, b2, b3, b4, b5, b6, b7, rest, rfl⟩ := exists_header hlen
  refine Prod.ext rfl ?_
  show _ ++ _ ++ (0x43 :: 0x48 :: 1 :: sid :: (be32 seq ++ rest)).drop _ = _
  rw [drop_packetSize]
  exact congrArg _ (drop_packetSize rest 0x43 0x48 1 sid _ _ _ _ p.length)

theorem decryptPacketTo_eq (ks : KeyStream) (out : DecryptOut) (n : Nonce) (packet : Bytes) :
    cryptoStreamDecryptPacketTo ks out n packet =
      ((cryptoStreamDecryptPacket ks out.plaintext.length n packet).map fun d =>
        (d.rc, ⟨d.plaintext ++ out.plaintext.drop d.plaintext.length, d.streamId, d.seqNo⟩)).getD
          (-1, out) := by
  unfold cryptoStreamDecryptPacketTo cryptoStreamDecryptPacket
  dsimp only
  split_ifs <;> simp

/-- **Crypto packets are a bijective encoding**: decryption gives back what was encrypted,
encryption gives back what decryption accepted, and what it does not accept writes nothing. -/
theorem cryptoStream_bijective (ks : KeyStream) (n : Nonce) :
    (∀ (out : Bytes) (outPlain : DecryptOut) (sid : UInt8) (seq : UInt32) (p : Bytes),
      p.length < 2 ^ 31 - 8 → cryptoStreamPacketSize p.length ≤ out.length →
        p.length ≤ outPlain.plaintext.length →
          ∃ packet, cryptoStreamEncryptPacketTo ks out sid seq n p =
              ((packet.length : Int), packet ++ out.drop packet.length) ∧
            cryptoStreamDecryptPacketTo ks outPlain n packet =
              ((p.length : Int), ⟨p ++ outPlain.plaintext.drop p.length, sid, seq⟩)) ∧
      (∀ (out : Bytes) (outPlain : DecryptOut) (packet : Bytes),
        Accepted outPlain.plaintext.length packet → packet.length ≤ out.length →
          ∃ p sid seq, cryptoStreamDecryptPacketTo ks outPlain n packet =
              (toInt32 p.length, ⟨p ++ outPlain.plaintext.drop p.length, sid, seq⟩) ∧
            cryptoStreamEncryptPacketTo ks out sid seq n p =
              (toInt32 packet.length, packet ++ out.drop packet.length)) ∧
      (∀ (outPlain : DecryptOut) (packet : Bytes), ¬ Accepted outPlain.plaintext.length packet →
        cryptoStreamDecryptPacketTo ks outPlain n packet = (-1, outPlain)) ∧
      ∀ (out : Bytes) (sid : UInt8) (seq : UInt32) (p : Bytes),
        out.length < cryptoStreamPacketSize p.length →
          cryptoStreamEncryptPacketTo ks out sid seq n p = (-1, out) := by
  refine ⟨?_,
    ?_, ?_,
    fun out sid seq p hlen => if_pos hlen⟩
  · intro out outPlain sid seq p hlen hout hplain
    have hsize := length_packetBytes ks sid seq n p
    refine ⟨packetBytes ks sid seq n p, ?_, ?_⟩
    · rw [encryptPacketTo_eq ks sid seq n hout, hsize, toInt32_of_lt]
      unfold cryptoStreamPacketSize headerSize
      omega
    · rw [decryptPacketTo_eq, decryptPacket_encryptPacket ks sid seq n p hplain]
      simp only [Option.map_some, Option.getD_some]
      rw [toInt32_of_lt (by omega)]
  · intro out outPlain packet hacc hout
    obtain ⟨d, hd⟩ := Option.isSome_iff_exists.1 ((@decryptPacket_isSome ks _ n _).2 hacc)
    obtain ⟨hpacket, hrc, hle⟩ := encryptPacket_decryptPacket hd
    have hsize : packet.length = cryptoStreamPacketSize d.plaintext.length := by
      rw [← hpacket, length_packetBytes]
    refine ⟨d.plaintext, d.streamId, d.seqNo, ?_, ?_⟩
    · rw [decryptPacketTo_eq, hd, ← hrc]
      rfl
    · rw [encryptPacketTo_eq ks _ _ _ (hsize ▸ hout), hpacket, hsize]
  · intro outPlain packet hacc
    have hnone : cryptoStreamDecryptPacket ks outPlain.plaintext.length n packet = none := by
      rw [← Option.not_isSome_iff_eq_none, decryptPacket_isSome]
      exact hacc
    rw [decryptPacketTo_eq, hnone]
    rfl

theorem cryptoStream_bijective_letter :
    ∃ packet, cryptoStreamEncryptPacketTo (fun _ _ _ _ => 7) (List.replicate 10 0) 1 5
          ⟨List.replicate 12 3, rfl⟩ [0x61] =
        ((packet.length : Int), packet ++ (List.replicate 10 0).drop packet.length) ∧
      cryptoStreamDecryptPacketTo (fun _ _ _ _ => 7) ⟨[0, 0], 0, 0⟩ ⟨List.replicate 12 3, rfl⟩
          packet = (1, ⟨[0x61, 0], 1, 5⟩) :=
  (cryptoStream_bijective _ _).1 _ ⟨[0, 0], 0, 0⟩ 1 5 [0x61] (by decide) (by decide) (by decide)

end Crypto
