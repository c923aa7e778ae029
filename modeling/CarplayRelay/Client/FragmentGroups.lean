import CarplayRelay.Client.Fragments
import Mathlib.Data.List.Induction

/-!
# Reassembly of arbitrary payloads (`reassemble_video_payload`)

Payloads of any bytes are given to `reassemble_video_payload`. The fragments since the frame being
collected was started are its group; each has the frame's id and count. `firstData group i` is the
first data that a fragment of index `i` in the group brings.

* `storeFragment_group`: storing a fragment keeps the parts the first data of the group.
* `reassemble_sound`: over any sequence of calls the fields of an active frame agree, no index is
  out of range, and what a call on a fragment returns is the complete frame of its group.
-/

namespace Client

open Bytes Media

/-! ## Groups -/

/-- The header fields and the data of a fragment. -/
structure Fragment where
  flags : UInt8
  index : UInt16
  count : UInt16
  frameId : UInt32
  data : Bytes
  deriving DecidableEq, Repr

def fragmentFields (payload : Bytes) : Option Fragment :=
  if IsFragment payload then
    some ⟨payload.byteAt 4, ofLe16 (payload.drop 6), ofLe16 (payload.drop 8),
      ofLe32 (payload.drop 12), payload.drop 16⟩
  else none

/-- A call of `reassemble_video_payload`: payload, flags and sequence number. -/
abbrev FragCall := Bytes × UInt8 × UInt32

/-- The fragments in a sequence of calls. -/
def fragmentsIn (calls : List FragCall) : List Fragment :=
  calls.filterMap fun c => fragmentFields c.1

/-- The first data that is not empty, of the fragments of index `i`. -/
def firstData (group : List Fragment) (i : Nat) : Bytes :=
  ((group.map fun f => if f.index.toNat = i then f.data else []).find? (· ≠ [])).getD []

/-- The state after a sequence of calls. -/
def fragState (calls : List FragCall) : FragState :=
  calls.foldl (fun s c => (reassembleVideoPayload s c.1 c.2.1 c.2.2).1) resetVideoFragments

/-- A fragment that does not continue the frame being collected. -/
def StartsFrame (s : FragState) (f : Fragment) : Prop :=
  s.fragActive = false ∨ s.fragFrameId ≠ f.frameId ∨ s.fragCount ≠ f.count

/-- The calls are those of one frame, started by the first of them. -/
structure IsGroup (before group : List FragCall) (frameId : UInt32) (count : UInt16)
    (flags : UInt8) : Prop where
  first : ∃ c rest f, group = c :: rest ∧ fragmentFields c.1 = some f ∧
    StartsFrame (fragState before) f ∧ f.flags = flags
  header : ∀ f ∈ fragmentsIn group, f.frameId = frameId ∧ f.count = count ∧ f.index < count

/-- The parts are the first data of a group. -/
structure Parts (s : FragState) (group : List Fragment) : Prop where
  parts : s.fragParts = (List.range s.fragCount.toNat).map (firstData group)
  size : s.fragTotalSize = s.fragParts.flatten.length

section
variable {s : FragState} {group : List Fragment} {f : Fragment} {i : Nat}

theorem firstData_append (group : List Fragment) (f : Fragment) (i : Nat) :
    firstData (group ++ [f]) i =
      if firstData group i = [] ∧ f.index.toNat = i then f.data else firstData group i := by
  unfold firstData
  rw [List.map_append, List.find?_append]
  cases h : (group.map fun f => if f.index.toNat = i then f.data else []).find? (· ≠ []) with
  | none =>
    by_cases hi : f.index.toNat = i <;> by_cases hd : f.data = [] <;> simp [hi, hd]
  | some d =>
    have hd : d ≠ [] := by simpa using List.find?_some h
    simp [hd]

theorem Parts.length (h : Parts s group) : s.fragParts.length = s.fragCount.toNat := by
  rw [h.parts, List.length_map, List.length_range]

theorem Parts.getD (h : Parts s group) (hi : i < s.fragCount.toNat) :
    s.fragParts.getD i [] = firstData group i := by
  rw [h.parts, List.getD_eq_getElem?_getD]
  simp [hi]

theorem length_flatten_set {parts : List Bytes} (hempty : parts.getD i [] = [])
    (hi : i < parts.length) (data : Bytes) :
    (parts.set i data).flatten.length = parts.flatten.length + data.length := by
  induction parts generalizing i with
  | nil => exact absurd hi (Nat.not_lt_zero i)
  | cons p parts ih =>
    cases i with
    | zero =>
      have hp : p = [] := hempty
      simp [hp, Nat.add_comm]
    | succ i =>
      have hset := ih (i := i) hempty (Nat.lt_of_succ_lt_succ hi)
      simp only [List.set_cons_succ, List.flatten_cons, List.length_append, hset]
      omega

/-- **Storing a fragment**: a slot is written only while no fragment has brought data for it. -/
theorem storeFragment_group (h : Parts s group) (hi : f.index.toNat < s.fragCount.toNat)
    (seqNo : UInt32) :
    Parts (storeFragment s f.index.toNat f.data seqNo) (group ++ [f]) := by
  have hslot := h.getD hi
  have hlen := h.length
  unfold storeFragment
  by_cases hempty : s.fragParts.getD f.index.toNat [] = []
  · rw [if_pos hempty]
    refine ⟨?_, ?_⟩
    · show s.fragParts.set f.index.toNat f.data = (List.range s.fragCount.toNat).map _
      rw [h.parts]
      apply List.ext_getElem
      · simp
      · intro j hj hj'
        rw [List.getElem_map, List.getElem_range, firstData_append]
        by_cases hij : f.index.toNat = j
        · subst hij
          rw [if_pos ⟨hslot ▸ hempty, rfl⟩]
          simp
        · rw [if_neg fun hand => hij hand.2, List.getElem_set_ne hij]
          simp
    · show s.fragTotalSize + f.data.length = _
      rw [h.size]
      exact (length_flatten_set hempty (hlen ▸ hi) f.data).symm
  · rw [if_neg hempty]
    refine ⟨?_, h.size⟩
    show s.fragParts = _
    rw [h.parts]
    apply List.map_congr_left
    intro j hj
    rw [firstData_append]
    by_cases hij : f.index.toNat = j
    · subst hij
      rw [if_neg fun hand => hempty (hslot.trans hand.1)]
    · rw [if_neg fun hand => hij hand.2]

end

/-! ## Calls -/

/-- What holds after a sequence of calls. -/
structure FragInv (calls : List FragCall) : Prop where
  received : (fragState calls).fragActive = true →
    (fragState calls).fragReceived < (fragState calls).fragCount.toNat
  group : (fragState calls).fragActive = true → ∃ before group, calls = before ++ group ∧
    IsGroup before group (fragState calls).fragFrameId (fragState calls).fragCount
      (fragState calls).fragFlags ∧
    Parts (fragState calls) (fragmentsIn group)

section
variable {calls before group : List FragCall} {c : FragCall} {f : Fragment} {frameId : UInt32}
  {count : UInt16} {flags : UInt8}

theorem fragState_append (calls : List FragCall) (c : FragCall) :
    fragState (calls ++ [c]) = (reassembleVideoPayload (fragState calls) c.1 c.2.1 c.2.2).1 := by
  unfold fragState
  rw [List.foldl_append]
  rfl

theorem fragmentsIn_append (calls : List FragCall) (c : FragCall) :
    fragmentsIn (calls ++ [c]) = fragmentsIn calls ++ (fragmentFields c.1).toList := by
  unfold fragmentsIn
  rw [List.filterMap_append]
  cases h : fragmentFields c.1 <;> simp [h]

/-- A further call belongs to the group if its fragment, if any, has the frame's header. -/
theorem IsGroup.append (h : IsGroup before group frameId count flags)
    (hf : ∀ f, fragmentFields c.1 = some f →
      f.frameId = frameId ∧ f.count = count ∧ f.index < count) :
    IsGroup before (group ++ [c]) frameId count flags := by
  obtain ⟨c', rest, f', rfl, hfirst⟩ := h.first
  refine ⟨⟨c', rest ++ [c], f', rfl, hfirst⟩, ?_⟩
  intro f hmem
  rw [fragmentsIn_append, List.mem_append] at hmem
  obtain hold | hnew := hmem
  · exact h.header f hold
  · exact hf f (Option.mem_toList.1 hnew)

theorem reassemble_plain (s : FragState) (hf : fragmentFields c.1 = none) :
    reassembleVideoPayload s c.1 c.2.1 c.2.2 = (s, some (c.1, c.2.1)) := by
  have hno : ¬ IsFragment c.1 := by
    intro hfrag
    rw [fragmentFields, if_pos hfrag] at hf
    cases hf
  rw [reassembleVideoPayload, if_pos hno]

theorem reassemble_fragment (s : FragState) (hf : fragmentFields c.1 = some f) :
    reassembleVideoPayload s c.1 c.2.1 c.2.2 =
      if f.count = 0 ∨ f.count ≤ f.index then (resetVideoFragments, none)
      else assembleFrame (storeFragment (startFrame s f.flags f.count f.frameId) f.index.toNat
        f.data c.2.2) := by
  unfold fragmentFields at hf
  split at hf
  · rename_i hfrag
    cases hf
    rw [reassembleVideoPayload, if_neg (not_not.2 hfrag)]
  · cases hf

theorem storeFragment_header (s : FragState) (i : Nat) (data : Bytes) (seqNo : UInt32) :
    (storeFragment s i data seqNo).fragActive = s.fragActive ∧
      (storeFragment s i data seqNo).fragFrameId = s.fragFrameId ∧
      (storeFragment s i data seqNo).fragCount = s.fragCount ∧
      (storeFragment s i data seqNo).fragFlags = s.fragFlags ∧
      (storeFragment s i data seqNo).fragReceived ≤ s.fragReceived + 1 := by
  unfold storeFragment
  split
  · exact ⟨rfl, rfl, rfl, rfl, Nat.le_refl _⟩
  · exact ⟨rfl, rfl, rfl, rfl, Nat.le_succ _⟩

theorem startFrame_starts {s : FragState} (h : StartsFrame s f) :
    startFrame s f.flags f.count f.frameId =
      { resetVideoFragments with
        fragActive := true, fragFrameId := f.frameId, fragFlags := f.flags, fragCount := f.count
        fragParts := List.replicate f.count.toNat [] } := by
  unfold startFrame
  exact if_pos (h.imp_left fun hidle => by simp [hidle])

theorem startFrame_continues {s : FragState} (h : ¬ StartsFrame s f) :
    startFrame s f.flags f.count f.frameId = s ∧ s.fragActive = true ∧ s.fragFrameId = f.frameId ∧
      s.fragCount = f.count := by
  unfold StartsFrame at h
  rw [not_or, not_or, not_not, not_not, Bool.not_eq_false] at h
  obtain ⟨hactive, hframe, hcount⟩ := h
  refine ⟨?_, hactive, hframe, hcount⟩
  unfold startFrame
  rw [if_neg (by simp [hactive, hframe, hcount])]

theorem parts_empty (s : FragState) (hsize : s.fragTotalSize = 0)
    (hparts : s.fragParts = List.replicate s.fragCount.toNat []) : Parts s [] := by
  refine ⟨?_, ?_⟩
  · rw [hparts]
    have hmap : (List.range s.fragCount.toNat).map (firstData []) =
        List.replicate (List.range s.fragCount.toNat).length [] := List.map_const'
    rw [hmap, List.length_range]
  · rw [hsize, hparts]
    simp

/-- **A fragment with a valid header is stored in the frame of its group**, which is the frame
being collected or one that it starts. -/
theorem FragInv.collect (h : FragInv calls) (hf : fragmentFields c.1 = some f)
    (hvalid : ¬ (f.count = 0 ∨ f.count ≤ f.index)) :
    ∃ before group t, calls ++ [c] = before ++ group ∧
      t = storeFragment (startFrame (fragState calls) f.flags f.count f.frameId) f.index.toNat
        f.data c.2.2 ∧
      t.fragActive = true ∧ t.fragFrameId = f.frameId ∧ t.fragCount = f.count ∧
      IsGroup before group f.frameId f.count t.fragFlags ∧ Parts t (fragmentsIn group) ∧
      t.fragReceived ≤ f.count.toNat ∧
      f.index.toNat <
        (startFrame (fragState calls) f.flags f.count f.frameId).fragParts.length := by
  have hindex : f.index < f.count := UInt16.not_le.1 fun hle => hvalid (.inr hle)
  have hlt : f.index.toNat < f.count.toNat := UInt16.lt_iff_toNat_lt.1 hindex
  obtain ⟨hactive, hframe, hcount, hflags, hreceived⟩ := storeFragment_header
    (startFrame (fragState calls) f.flags f.count f.frameId) f.index.toNat f.data c.2.2
  by_cases hstart : StartsFrame (fragState calls) f
  · have hfresh := startFrame_starts hstart
    have hparts := parts_empty (startFrame (fragState calls) f.flags f.count f.frameId)
      (by rw [hfresh]; rfl) (by rw [hfresh])
    have hstore := storeFragment_group (f := f) hparts (by rw [hfresh]; exact hlt) c.2.2
    rw [hfresh] at hactive hframe hcount hflags hreceived hstore ⊢
    have hone : fragmentsIn [c] = [f] := by simp [fragmentsIn, hf]
    refine ⟨calls, [c], _, rfl, rfl, hactive, hframe, hcount,
      ⟨⟨c, [], f, rfl, hf, hstart, hflags.symm⟩, ?_⟩, ?_, ?_, ?_⟩
    · intro g hg
      rw [hone, List.mem_singleton] at hg
      rw [hg]
      exact ⟨rfl, rfl, hindex⟩
    · rw [hone]
      exact hstore
    · exact Nat.le_trans hreceived (Nat.succ_le_of_lt (Nat.lt_of_le_of_lt (Nat.zero_le _) hlt))
    · show _ < (List.replicate f.count.toNat ([] : Bytes)).length
      rw [List.length_replicate]
      exact hlt
  · obtain ⟨hsame, hold, hframe', hcount'⟩ := startFrame_continues hstart
    obtain ⟨before, group, hcalls, hgroup, hparts⟩ := h.group hold
    have hlow := h.received hold
    have hstore := storeFragment_group (f := f) hparts (by rw [hcount']; exact hlt) c.2.2
    rw [hsame] at hactive hframe hcount hflags hreceived ⊢
    rw [hframe', hcount'] at hgroup
    refine ⟨before, group ++ [c], _, by rw [hcalls, List.append_assoc], rfl, hactive.trans hold,
      hframe.trans hframe', hcount.trans hcount', ?_, ?_, ?_, ?_⟩
    · rw [hflags]
      apply hgroup.append
      intro g hg
      rw [hf, Option.some.injEq] at hg
      rw [← hg]
      exact ⟨rfl, rfl, hindex⟩
    · rw [fragmentsIn_append, hf]
      exact hstore
    · rw [hcount'] at hlow
      omega
    · rw [hparts.length, hcount']
      exact hlt

/-- The frame is complete, or the state is reset or waits for more. -/
theorem assembleFrame_cases (t : FragState) (hle : t.fragReceived ≤ t.fragCount.toNat) :
    (assembleFrame t = (t, none) ∧ t.fragReceived < t.fragCount.toNat) ∨
      assembleFrame t = (resetVideoFragments, none) ∨
      (assembleFrame t = (resetVideoFragments, some (t.fragParts.flatten, t.fragFlags)) ∧
        ∀ part ∈ t.fragParts, part ≠ []) := by
  unfold assembleFrame
  by_cases hcount : t.fragReceived ≠ t.fragCount.toNat
  · rw [if_pos hcount]
    exact .inl ⟨rfl, Nat.lt_of_le_of_ne hle hcount⟩
  rw [if_neg hcount]
  by_cases hempty : t.fragParts.any List.isEmpty = true
  · rw [if_pos hempty]
    exact .inr (.inl rfl)
  · rw [if_neg hempty]
    refine .inr (.inr ⟨rfl, fun part hpart hnil => hempty ?_⟩)
    rw [List.any_eq_true]
    exact ⟨part, hpart, by rw [hnil]; rfl⟩

theorem FragInv.of_idle (h : (fragState calls).fragActive = false) : FragInv calls :=
  ⟨fun ha => (Bool.false_ne_true (h.symm.trans ha)).elim,
    fun ha => (Bool.false_ne_true (h.symm.trans ha)).elim⟩

theorem FragInv.step (h : FragInv calls) (c : FragCall) : FragInv (calls ++ [c]) := by
  have hreset (heq : fragState (calls ++ [c]) = resetVideoFragments) : FragInv (calls ++ [c]) :=
    .of_idle (by rw [heq]; rfl)
  have hstate := fragState_append calls c
  cases hf : fragmentFields c.1 with
  | none =>
    rw [reassemble_plain _ hf] at hstate
    refine ⟨by rw [hstate]; exact h.received, ?_⟩
    intro ha
    rw [hstate] at ha ⊢
    obtain ⟨before, group, rfl, hgroup, hparts⟩ := h.group ha
    refine ⟨before, group ++ [c], List.append_assoc _ _ _, hgroup.append ?_, ?_⟩
    · intro g hg
      rw [hf] at hg
      cases hg
    · rw [fragmentsIn_append, hf]
      simpa using hparts
  | some f =>
    rw [reassemble_fragment _ hf] at hstate
    split at hstate
    · exact hreset hstate
    · rename_i hvalid
      obtain ⟨before, group, t, hcalls, ht, hactive, hframe, hcount, hgroup, hparts, hle, -⟩ :=
        h.collect hf hvalid
      rw [← ht] at hstate
      obtain ⟨heq, hlt⟩ | heq | ⟨heq, -⟩ := assembleFrame_cases t (hcount ▸ hle)
      · rw [heq] at hstate
        rw [hcalls] at hstate ⊢
        refine ⟨fun _ => by rw [hstate]; exact hlt, fun _ => ⟨before, group, rfl, ?_⟩⟩
        rw [hstate]
        show IsGroup before group t.fragFrameId t.fragCount t.fragFlags ∧ Parts t _
        rw [hframe, hcount]
        exact ⟨hgroup, hparts⟩
      · rw [heq] at hstate
        exact hreset hstate
      · rw [heq] at hstate
        exact hreset hstate

theorem fragInv (calls : List FragCall) : FragInv calls := by
  induction calls using List.reverseRecOn with
  | nil => exact .of_idle rfl
  | append_singleton calls c ih => exact ih.step c

/-- **Reassembly is sound on arbitrary payloads.** Between calls the fields of an active frame
agree; a fragment with a valid header is stored at an index in range; and a call on a fragment that
returns true returns the data of its group: each index has brought some, the payload is the first
data of each index, the flags are those of the first fragment, and the state is reset. -/
theorem reassemble_sound (calls : List FragCall) :
    ((fragState calls).fragActive = true →
      (fragState calls).fragParts.length = (fragState calls).fragCount.toNat ∧
        (fragState calls).fragReceived < (fragState calls).fragCount.toNat ∧
        (fragState calls).fragTotalSize = (fragState calls).fragParts.flatten.length) ∧
      ∀ (c : FragCall) (f : Fragment), fragmentFields c.1 = some f →
        (¬ (f.count = 0 ∨ f.count ≤ f.index) → f.index.toNat <
          (startFrame (fragState calls) f.flags f.count f.frameId).fragParts.length) ∧
        ∀ s' payload flags,
          reassembleVideoPayload (fragState calls) c.1 c.2.1 c.2.2 = (s', some (payload, flags)) →
          s' = resetVideoFragments ∧ ∃ before group, calls ++ [c] = before ++ group ∧
            IsGroup before group f.frameId f.count flags ∧
            (∀ i < f.count.toNat, firstData (fragmentsIn group) i ≠ []) ∧
            payload = ((List.range f.count.toNat).map (firstData (fragmentsIn group))).flatten := by
  have hinv := fragInv calls
  refine ⟨?_, fun c f hf => ⟨?_, ?_⟩⟩
  · intro ha
    obtain ⟨before, group, -, -, hparts⟩ := hinv.group ha
    exact ⟨hparts.length, hinv.received ha, hparts.size⟩
  · intro hvalid
    obtain ⟨before, group, t, -, -, -, -, -, -, -, -, hindex⟩ := hinv.collect hf hvalid
    exact hindex
  · intro s' payload flags hcall
    rw [reassemble_fragment _ hf] at hcall
    split at hcall
    · cases hcall
    · rename_i hvalid
      obtain ⟨before, group, t, hcalls, ht, -, -, hcount, hgroup, hparts, hle, -⟩ :=
        hinv.collect hf hvalid
      rw [← ht] at hcall
      obtain ⟨heq, -⟩ | heq | ⟨heq, hfull⟩ := assembleFrame_cases t (hcount ▸ hle)
      · rw [heq] at hcall
        cases hcall
      · rw [heq] at hcall
        cases hcall
      · rw [heq] at hcall
        cases hcall
        have hlist := hparts.parts
        rw [hcount] at hlist
        refine ⟨rfl, before, group, hcalls, hgroup, fun i hi => hfull _ ?_, by rw [hlist]⟩
        rw [hlist]
        exact List.mem_map.2 ⟨i, List.mem_range.2 hi, rfl⟩

/-- Two fragments of a frame, the second one first. -/
theorem reassemble_sound_two :
    let part (i : UInt8) (data : Bytes) : FragCall :=
      ([0x56, 0x46, 0x47, 0x31, 1, 0, i, 0, 2, 0, 0, 0, 9, 0, 0, 0] ++ data, 0, 0)
    ∃ s', reassembleVideoPayload (fragState [part 1 [7]]) (part 0 [8]).1 0 0 =
        (s', some ([8, 7], 1)) ∧ s' = resetVideoFragments := by
  intro part
  have hcall : reassembleVideoPayload (fragState [part 1 [7]]) (part 0 [8]).1 0 0 =
      (resetVideoFragments, some ([8, 7], 1)) := by decide
  have hfields : fragmentFields (part 0 [8]).1 = some ⟨1, 0, 2, 9, [8]⟩ := by decide
  exact ⟨_, hcall, (((reassemble_sound [part 1 [7]]).2 (part 0 [8]) _ hfields).2 _ _ _ hcall).1⟩

end

end Client
