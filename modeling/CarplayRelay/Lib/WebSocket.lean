import CarplayRelay.Lib.Bytes
import Mathlib.Tactic.SplitIfs

/-!
# WebSocket frames

A frame is two bytes, the length in one of three encodings, an optional mask and the payload.
`recvFrame` decodes one with a function that reads an exact number of bytes; sizes are integers of
`bits` bits.

* `recvFrame_layout`: a frame is decoded to its opcode and its payload, and nothing after it is
  read, when the length is below `2 ^ bits`; `recvFrame_encode` is the case of a `Frame`.
* `Width.shortest_min`: the shortest encoding of a length.
-/

namespace WebSocket

open Bytes

/-- The encoding of a length: 7, 16 or 64 bits. -/
inductive Width
  | short
  | medium
  | long
  deriving DecidableEq, Repr

/-- The lengths an encoding can express; a long one below the range of a signed 32-bit size. -/
def Width.Fits : Width → Nat → Prop
  | .short, n => n < 126
  | .medium, n => n < 2 ^ 16
  | .long, n => n < 2 ^ 31

instance (w : Width) (n : Nat) : Decidable (w.Fits n) := by
  cases w <;> unfold Width.Fits <;> infer_instance

/-- The lengths an encoding can express. -/
def Width.Expresses : Width → Nat → Prop
  | .short, n => n < 126
  | .medium, n => n < 2 ^ 16
  | .long, n => n < 2 ^ 64

/-- The number of bytes of the extended length. -/
def Width.size : Width → Nat
  | .short => 0
  | .medium => 2
  | .long => 8

/-- The shortest encoding of a length. -/
def Width.shortest (n : Nat) : Width :=
  if n < 126 then .short else if n < 2 ^ 16 then .medium else .long

/-- A mask of four bytes. -/
abbrev Mask := { m : Bytes // m.length = 4 }

/-- A frame: `first` holds the opcode in its low four bits. -/
structure Frame where
  first : UInt8
  width : Width
  mask : Option Mask
  payload : Bytes
  fits : width.Fits payload.length

def Frame.opcode (f : Frame) : UInt8 := f.first &&& 0x0f

/-- The payload XORed with the mask, which also undoes it. -/
def applyMask (mask payload : Bytes) : Bytes :=
  payload.mapIdx fun i b => b ^^^ mask.byteAt (i % 4)

/-- The seven bits of the second byte. -/
def Width.lowBits : Width → Nat → UInt8
  | .short, n => UInt8.ofNat n
  | .medium, _ => 126
  | .long, _ => 127

/-- The extended length. -/
def Width.ext : Width → Nat → Bytes
  | .short, _ => []
  | .medium, n => be16 (UInt16.ofNat n)
  | .long, n => be32 (UInt32.ofNat (n >>> 32)) ++ be32 (UInt32.ofNat n)

def Frame.maskBit (f : Frame) : UInt8 := if f.mask.isSome then 0x80 else 0

def Frame.maskBytes (f : Frame) : Bytes :=
  match f.mask with
  | none => []
  | some m => m.1

def Frame.body (f : Frame) : Bytes :=
  match f.mask with
  | none => f.payload
  | some m => applyMask m.1 f.payload

def Frame.encode (f : Frame) : Bytes :=
  [f.first, f.maskBit ||| f.width.lowBits f.payload.length] ++
    (f.width.ext f.payload.length ++ (f.maskBytes ++ f.body))

def maskBit (mask : Option Mask) : UInt8 := if mask.isSome then 0x80 else 0

def maskBytes : Option Mask → Bytes
  | none => []
  | some m => m.1

def body (payload : Bytes) : Option Mask → Bytes
  | none => payload
  | some m => applyMask m.1 payload

/-- The bytes of a frame with any length. -/
def layout (first : UInt8) (width : Width) (mask : Option Mask) (payload : Bytes) : Bytes :=
  [first, maskBit mask ||| width.lowBits payload.length] ++
    (width.ext payload.length ++ (maskBytes mask ++ body payload mask))

/-- The bytes start with all of a frame. -/
def StartsFrame (bytes : Bytes) : Prop :=
  ∃ first width mask payload rest, Width.Expresses width payload.length ∧
    bytes = layout first width mask payload ++ rest

/-! ## Decoding -/

variable {σ : Type*} (bits : Nat) (read : σ → Nat → Option (Bytes × σ))

/-- The loop over the bytes of a 64-bit length. -/
def longLength (ext : Bytes) : Nat :=
  ext.foldl (fun len b => (len <<< 8 ||| b.toNat) % 2 ^ bits) 0

def recvLength (s : σ) (second : UInt8) : Option (Nat × σ) :=
  let len := (second &&& 0x7f).toNat
  if len = 126 then
    (read s 2).map fun (ext, s) => ((ext.byteAt 0).toNat <<< 8 ||| (ext.byteAt 1).toNat, s)
  else if len = 127 then (read s 8).map fun (ext, s) => (longLength bits ext, s)
  else some (len, s)

def recvMask (s : σ) (second : UInt8) : Option (Bytes × σ) :=
  if second &&& 0x80 ≠ 0 then read s 4 else some ([0, 0, 0, 0], s)

/-- The opcode and the payload of the next frame; `mallocOk` is the outcome of the allocation of
the payload. -/
def recvFrame (mallocOk : Bool) (s : σ) : Option ((UInt8 × Bytes) × σ) := do
  let (header, s) ← read s 2
  let opcode := header.byteAt 0 &&& 0x0f
  let (len, s) ← recvLength bits read s (header.byteAt 1)
  let (mask, s) ← recvMask read s (header.byteAt 1)
  if len = 0 then some ((opcode, []), s)
  else if ¬ mallocOk then none
  else
    let (payload, s) ← read s len
    some ((opcode, if header.byteAt 1 &&& 0x80 ≠ 0 then applyMask mask payload else payload), s)

/-- Calls of `recvFrame`, one for each allocation outcome. -/
def recvFrames : List Bool → σ → Option (List (UInt8 × Bytes) × σ)
  | [], s => some ([], s)
  | ok :: oks, s => do
    let (frame, s) ← recvFrame bits read ok s
    let (frames, s) ← recvFrames oks s
    some (frame :: frames, s)

/-- A reader takes the next bytes of the stream that `R` relates to its state. -/
def Reads (R : σ → Bytes → Prop) : Prop :=
  ∀ s b rest, R s (b ++ rest) → ∃ s', read s b.length = some (b, s') ∧ R s' rest

/-! ## Decoding what was encoded -/

@[simp] theorem length_applyMask (m p : Bytes) : (applyMask m p).length = p.length := by
  simp [applyMask]

@[simp] theorem applyMask_applyMask (m p : Bytes) : applyMask m (applyMask m p) = p := by
  refine List.ext_getElem (by simp) fun i hi hi' => ?_
  simp only [applyMask, List.getElem_mapIdx, UInt8.xor_assoc, UInt8.xor_self, UInt8.xor_zero]

@[simp] theorem length_body (payload : Bytes) (mask : Option Mask) :
    (body payload mask).length = payload.length := by
  cases mask <;> simp [body]

theorem Frame.encode_eq (f : Frame) : f.encode = layout f.first f.width f.mask f.payload := by
  obtain ⟨first, width, mask, payload, fits⟩ := f
  cases mask <;> rfl

theorem Width.Fits.expresses {w : Width} {n : Nat} (h : w.Fits n) : w.Expresses n := by
  cases w with
  | short => exact h
  | medium => exact h
  | long => exact Nat.lt_trans h (by decide)

theorem Width.Fits.lt {w : Width} {n : Nat} (h : w.Fits n) : n < 2 ^ 31 := by
  cases w with
  | short => exact Nat.lt_trans h (by decide)
  | medium => exact Nat.lt_trans h (by decide)
  | long => exact h

/-- The shortest encoding expresses the length, and no shorter one does. -/
theorem Width.shortest_min {n : Nat} (hn : n < 2 ^ 64) :
    (Width.shortest n).Expresses n ∧
      ∀ w : Width, w.Expresses n → (Width.shortest n).size ≤ w.size := by
  unfold Width.shortest
  by_cases h1 : n < 126
  · rw [if_pos h1]
    exact ⟨h1, fun _ _ => Nat.zero_le _⟩
  rw [if_neg h1]
  by_cases h2 : n < 2 ^ 16
  · rw [if_pos h2]
    refine ⟨h2, ?_⟩
    intro w hw
    cases w with
    | short => exact absurd hw h1
    | medium => exact Nat.le_refl _
    | long => decide
  · rw [if_neg h2]
    refine ⟨hn, ?_⟩
    intro w hw
    cases w with
    | short => exact absurd hw h1
    | medium => exact absurd hw h2
    | long => exact Nat.le_refl _

theorem second_maskBit (mask : Option Mask) {v : UInt8} (hv : v < 128) :
    ((maskBit mask ||| v) &&& 0x80 ≠ 0 ↔ mask.isSome) ∧ (maskBit mask ||| v) &&& 0x7f = v := by
  have hbits : ∀ n : Fin 128,
      (UInt8.ofNat n &&& 0x80 = 0 ∧ UInt8.ofNat n &&& 0x7f = UInt8.ofNat n) ∧
      (0x80 ||| UInt8.ofNat n) &&& 0x80 ≠ 0 ∧
      (0x80 ||| UInt8.ofNat n) &&& 0x7f = UInt8.ofNat n := by
    decide
  have hn := hbits ⟨v.toNat, UInt8.lt_iff_toNat_lt.1 hv⟩
  simp only [UInt8.ofNat_toNat] at hn
  obtain ⟨⟨h1, h2⟩, h3, h4⟩ := hn
  unfold maskBit
  cases mask with
  | none => simp [h1, h2]
  | some m => simp [h3, h4]

theorem lowBits_lt {w : Width} {n : Nat} (h : w.Expresses n) : w.lowBits n < 128 := by
  cases w with
  | short =>
    rw [UInt8.lt_iff_toNat_lt, Width.lowBits, UInt8.toNat_ofNat_of_lt' (Nat.lt_trans h (by decide))]
    exact Nat.lt_trans h (by decide)
  | medium => exact (by decide : (126 : UInt8) < 128)
  | long => exact (by decide : (127 : UInt8) < 128)

theorem not_startsFrame_nil : ¬ StartsFrame [] := by
  rintro ⟨first, width, mask, payload, rest, -, heq⟩
  cases heq

/-- A short frame that is not all there. -/
theorem not_startsFrame_part {first second : UInt8} {tail : Bytes}
    (hshort : (second &&& 0x7f).toNat < 126) (hpart : tail.length < (second &&& 0x7f).toNat) :
    ¬ StartsFrame (first :: second :: tail) := by
  rintro ⟨first', width, mask, payload, rest, hwidth, heq⟩
  simp only [layout, List.cons_append, List.nil_append, List.cons.injEq] at heq
  obtain ⟨-, rfl, rfl⟩ := heq
  rw [(second_maskBit mask (lowBits_lt hwidth)).2] at hshort hpart
  cases width with
  | short =>
    have hlen : payload.length < 126 := hwidth
    rw [Width.lowBits, UInt8.toNat_ofNat_of_lt' (Nat.lt_trans hlen (by decide))] at hpart
    simp only [List.length_append, length_body] at hpart
    omega
  | medium => exact absurd hshort (by decide : ¬ (126 : UInt8).toNat < 126)
  | long => exact absurd hshort (by decide : ¬ (127 : UInt8).toNat < 126)

/-! ## Lengths -/

theorem shiftLeft_or {a b : Nat} (hb : b < 256) : a <<< 8 ||| b = a * 256 + b := by
  rw [← Nat.shiftLeft_add_eq_or_of_lt (show b < 2 ^ 8 from hb), Nat.shiftLeft_eq]

theorem medium_eq {n : Nat} (h : n < 2 ^ 16) :
    ((be16 (UInt16.ofNat n)).byteAt 0).toNat <<< 8 ||| ((be16 (UInt16.ofNat n)).byteAt 1).toNat =
      n := by
  have hlow := UInt8.toNat_lt ((be16 (UInt16.ofNat n)).byteAt 1)
  rw [shiftLeft_or hlow]
  simp only [be16, byteAt_cons_zero, byteAt_cons_succ]
  simp [Nat.shiftRight_eq_div_pow]
  omega

variable {bits}

/-- The number that bytes are in network order, behind the bytes of `v`. -/
def bigEndian (v : Nat) (ext : Bytes) : Nat := ext.foldl (fun v b => v * 256 + b.toNat) v

theorem bigEndian_be32 (v : Nat) (w : UInt32) : bigEndian v (be32 w) = v * 2 ^ 32 + w.toNat := by
  have hw := w.toNat_lt
  simp [bigEndian, be32, Nat.shiftRight_eq_div_pow]
  omega

theorem bigEndian_lt (v : Nat) (ext : Bytes) : bigEndian v ext < (v + 1) * 256 ^ ext.length := by
  induction ext generalizing v with
  | nil => simp [bigEndian]
  | cons b ext ih =>
    have hb := b.toNat_lt
    calc bigEndian (v * 256 + b.toNat) ext < (v * 256 + b.toNat + 1) * 256 ^ ext.length := ih _
      _ ≤ ((v + 1) * 256) * 256 ^ ext.length := Nat.mul_le_mul_right _ (by omega)
      _ = (v + 1) * 256 ^ (b :: ext).length := by
        rw [List.length_cons, Nat.pow_succ', Nat.mul_assoc]

/-- A number has one form of a length. -/
theorem bigEndian_inj {v w : Nat} {ext ext' : Bytes} (hlen : ext.length = ext'.length)
    (h : bigEndian v ext = bigEndian w ext') : v = w ∧ ext = ext' := by
  induction ext generalizing v w ext' with
  | nil =>
    obtain rfl := List.eq_nil_of_length_eq_zero hlen.symm
    exact ⟨h, rfl⟩
  | cons b ext ih =>
    cases ext' with
    | nil => cases hlen
    | cons c ext' =>
      have hb := b.toNat_lt
      have hc := c.toNat_lt
      obtain ⟨hvw, rfl⟩ := ih (Nat.succ.inj hlen) (show
        bigEndian (v * 256 + b.toNat) ext = bigEndian (w * 256 + c.toNat) ext' from h)
      exact ⟨by omega, by rw [UInt8.toNat_inj.1 (show b.toNat = c.toNat by omega)]⟩

theorem foldl_length (ext : Bytes) (v : Nat) :
    ext.foldl (fun len b => (len <<< 8 ||| b.toNat) % 2 ^ bits) (v % 2 ^ bits) =
      bigEndian v ext % 2 ^ bits := by
  induction ext generalizing v with
  | nil => rfl
  | cons b ext ih =>
    rw [List.foldl_cons, shiftLeft_or b.toNat_lt, Nat.add_mod, Nat.mod_mul_mod, ← Nat.add_mod]
    exact ih (v * 256 + b.toNat)

theorem longLength_eq (ext : Bytes) : longLength bits ext = bigEndian 0 ext % 2 ^ bits := by
  have h := @foldl_length bits ext 0
  rwa [Nat.zero_mod] at h

theorem long_eq {n : Nat} (h : n < 2 ^ 64) :
    longLength bits (be32 (UInt32.ofNat (n >>> 32)) ++ be32 (UInt32.ofNat n)) = n % 2 ^ bits := by
  have hhigh : (UInt32.ofNat (n >>> 32)).toNat = n / 2 ^ 32 := by
    rw [Nat.shiftRight_eq_div_pow]
    exact UInt32.toNat_ofNat_of_lt' (Nat.div_lt_of_lt_mul h)
  have hlow : (UInt32.ofNat n).toNat = n % 2 ^ 32 := UInt32.toNat_ofNat'
  have hvalue : bigEndian 0 (be32 (UInt32.ofNat (n >>> 32)) ++ be32 (UInt32.ofNat n)) = n := by
    rw [bigEndian, List.foldl_append]
    show bigEndian (bigEndian 0 _) _ = n
    rw [bigEndian_be32, bigEndian_be32, hhigh, hlow]
    omega
  rw [longLength_eq, hvalue]

/-! ## A frame -/

variable {read} {R : σ → Bytes → Prop} {s : σ} {rest : Bytes}

section
variable {first : UInt8} {width : Width} {mask : Option Mask} {payload : Bytes}

/-- The length is read modulo the size of an integer. -/
theorem recvLength_layout (mask : Option Mask) (hread : Reads read R) (hbits : 16 ≤ bits)
    (hw : width.Expresses payload.length) (hs : R s (width.ext payload.length ++ rest)) :
    ∃ s', recvLength bits read s (maskBit mask ||| width.lowBits payload.length) =
      some (payload.length % 2 ^ bits, s') ∧ R s' rest := by
  have hlow := (second_maskBit mask (lowBits_lt hw)).2
  have hle : 2 ^ 16 ≤ 2 ^ bits := Nat.pow_le_pow_right (by decide) hbits
  unfold recvLength
  rw [hlow]
  generalize payload.length = n at hs hw
  cases width with
  | short =>
    have hshort : n < 126 := hw
    have hn : (UInt8.ofNat n).toNat = n :=
      UInt8.toNat_ofNat_of_lt' (Nat.lt_trans hw (by decide))
    refine ⟨s, ?_, hs⟩
    simp only [Width.lowBits, hn]
    rw [if_neg (by omega), if_neg (by omega), Nat.mod_eq_of_lt (by omega)]
  | medium =>
    have hmedium : n < 2 ^ 16 := hw
    obtain ⟨s', hr, hs'⟩ := hread s _ _ hs
    refine ⟨s', ?_, hs'⟩
    simp only [Width.ext, length_be16] at hr
    simp [Width.lowBits, hr, medium_eq hmedium, Nat.mod_eq_of_lt (Nat.lt_of_lt_of_le hmedium hle)]
  | long =>
    obtain ⟨s', hr, hs'⟩ := hread s _ _ hs
    refine ⟨s', ?_, hs'⟩
    simp only [Width.ext, List.length_append, length_be32] at hr
    simp [Width.lowBits, hr, long_eq hw]

theorem recvMask_layout (hread : Reads read R) (hw : width.Expresses payload.length)
    (hs : R s (maskBytes mask ++ rest)) :
    ∃ m s', recvMask read s (maskBit mask ||| width.lowBits payload.length) = some (m, s') ∧
      R s' rest ∧ ∀ m', mask = some m' → m = m'.1 := by
  have hbit := (second_maskBit mask (lowBits_lt hw)).1
  unfold recvMask
  cases mask with
  | none =>
    rw [if_neg (by simp [hbit])]
    exact ⟨_, s, rfl, hs, by simp⟩
  | some m =>
    rw [if_pos (by simp [hbit])]
    obtain ⟨s', hr, hs'⟩ := hread s _ _ hs
    rw [maskBytes, m.2] at hr
    exact ⟨m.1, s', hr, hs', fun m' h => by rw [Option.some.inj h]⟩

/-- What is received, with the reader behind the mask. -/
theorem recvFrame_head (hread : Reads read R) (hbits : 16 ≤ bits)
    (hw : width.Expresses payload.length) (hs : R s (layout first width mask payload ++ rest)) :
    ∃ m s', (∀ m', mask = some m' → m = m'.1) ∧ R s' (body payload mask ++ rest) ∧
      recvFrame bits read true s =
        if payload.length % 2 ^ bits = 0 then some ((first &&& 0x0f, []), s')
        else (read s' (payload.length % 2 ^ bits)).map fun r =>
          ((first &&& 0x0f, if mask.isSome then applyMask m r.1 else r.1), r.2) := by
  rw [layout, List.append_assoc] at hs
  obtain ⟨s₁, hheader, hs⟩ := hread s _ _ hs
  rw [List.append_assoc] at hs
  obtain ⟨s₂, hlen, hs⟩ := recvLength_layout mask hread hbits hw hs
  rw [List.append_assoc] at hs
  obtain ⟨m, s₃, hmask, hs, hm⟩ := recvMask_layout hread hw hs
  have hbit := (second_maskBit mask (lowBits_lt hw)).1
  have hheader' : read s 2 =
      some ([first, maskBit mask ||| width.lowBits payload.length], s₁) := hheader
  refine ⟨m, s₃, hm, hs, ?_⟩
  simp only [recvFrame, hheader', Option.bind_eq_bind, Option.bind_some, byteAt_cons_zero,
    byteAt_cons_succ, hlen, hmask, hbit]
  split
  · rfl
  · simp only [not_true, if_false]
    cases read s₃ (payload.length % 2 ^ bits) <;> rfl

/-- **A frame is decoded to its opcode and payload**, and its reader stands behind it. -/
theorem recvFrame_layout (hread : Reads read R) (hbits : 16 ≤ bits)
    (hw : width.Expresses payload.length) (hlt : payload.length < 2 ^ bits)
    (hs : R s (layout first width mask payload ++ rest)) :
    ∃ s', recvFrame bits read true s = some ((first &&& 0x0f, payload), s') ∧ R s' rest := by
  obtain ⟨m, s₃, hm, hs, hrecv⟩ := recvFrame_head hread hbits hw hs
  rw [hrecv, Nat.mod_eq_of_lt hlt]
  by_cases hzero : payload.length = 0
  · have hbody : body payload mask = [] :=
      List.length_eq_zero_iff.1 ((length_body payload mask).trans hzero)
    rw [if_pos hzero, List.length_eq_zero_iff.1 hzero]
    exact ⟨s₃, rfl, by simpa [hbody] using hs⟩
  · obtain ⟨s₄, hpay, hs⟩ := hread s₃ _ _ hs
    rw [length_body] at hpay
    refine ⟨s₄, ?_, hs⟩
    rw [if_neg hzero, hpay]
    cases mask with
    | none => rfl
    | some m' => simp [body, hm m' rfl]

/-- A length that is 0 in an integer is taken for an empty payload. -/
theorem recvFrame_wraps (hread : Reads read R) (hbits : 16 ≤ bits)
    (hw : width.Expresses payload.length) (hzero : payload.length % 2 ^ bits = 0)
    (hs : R s (layout first width mask payload ++ rest)) :
    ∃ s', recvFrame bits read true s = some ((first &&& 0x0f, []), s') := by
  obtain ⟨m, s', -, -, hrecv⟩ := recvFrame_head hread hbits hw hs
  exact ⟨s', by rw [hrecv, if_pos hzero]⟩

end

/-- What every read keeps, receiving a frame keeps. -/
theorem recvFrame_inv {P : σ → Prop} (hread : ∀ {s n b s'}, read s n = some (b, s') → P s → P s')
    {mallocOk : Bool} {frame : UInt8 × Bytes} {s' : σ}
    (h : recvFrame bits read mallocOk s = some (frame, s')) (hs : P s) : P s' := by
  have hlength {second : UInt8} {len : Nat} {s s' : σ}
      (h : recvLength bits read s second = some (len, s')) (hs : P s) : P s' := by
    unfold recvLength at h
    dsimp only at h
    split at h
    · obtain ⟨r, hr, heq⟩ := Option.map_eq_some_iff.1 h
      cases heq
      exact hread hr hs
    split at h
    · obtain ⟨r, hr, heq⟩ := Option.map_eq_some_iff.1 h
      cases heq
      exact hread hr hs
    · cases h
      exact hs
  have hmask {second : UInt8} {mask : Bytes} {s s' : σ}
      (h : recvMask read s second = some (mask, s')) (hs : P s) : P s' := by
    unfold recvMask at h
    split at h
    · exact hread h hs
    · cases h
      exact hs
  simp only [recvFrame, Option.bind_eq_bind, Option.bind_eq_some_iff] at h
  obtain ⟨⟨header, s₁⟩, h1, ⟨len, s₂⟩, h2, ⟨mask, s₃⟩, h3, h⟩ := h
  have hs₃ := hmask h3 (hlength h2 (hread h1 hs))
  split at h
  · cases h
    exact hs₃
  split at h
  · cases h
  obtain ⟨⟨payload, s₄⟩, h4, heq⟩ := Option.bind_eq_some_iff.1 h
  cases heq
  exact hread h4 hs₃

/-- The decoding of a `Frame`. -/
theorem recvFrame_encode (hread : Reads read R) (hbits : 32 ≤ bits) (f : Frame)
    (hs : R s (f.encode ++ rest)) :
    ∃ s', recvFrame bits read true s = some ((f.opcode, f.payload), s') ∧ R s' rest := by
  have hle : 2 ^ 32 ≤ 2 ^ bits := Nat.pow_le_pow_right (by decide) hbits
  have hlt := f.fits.lt
  rw [f.encode_eq] at hs
  exact recvFrame_layout hread (by omega) f.fits.expresses (by omega) hs

/-- A list of frames. -/
def encodeAll (frames : List Frame) : Bytes := (frames.map Frame.encode).flatten

/-- **Frames are decoded one after the other.** -/
theorem recvFrames_encodeAll (hread : Reads read R) (hbits : 32 ≤ bits) (frames : List Frame)
    (hs : R s (encodeAll frames ++ rest)) :
    ∃ s', recvFrames bits read (frames.map fun _ => true) s =
      some (frames.map fun f => (f.opcode, f.payload), s') ∧ R s' rest := by
  induction frames generalizing s with
  | nil => exact ⟨s, rfl, hs⟩
  | cons f frames ih =>
    rw [encodeAll, List.map_cons, List.flatten_cons, List.append_assoc] at hs
    obtain ⟨s₁, hframe, hs⟩ := recvFrame_encode hread hbits f hs
    obtain ⟨s₂, hframes, hs⟩ := ih hs
    refine ⟨s₂, ?_, hs⟩
    simp only [List.map_cons, recvFrames, hframe, Option.bind_eq_bind, Option.bind_some, hframes]

end WebSocket
