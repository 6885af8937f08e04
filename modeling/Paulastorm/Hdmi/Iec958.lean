import Mathlib.Data.UInt
import Mathlib.Logic.Function.Iterate
import Mathlib.Tactic.SplitIfs

namespace Paulastorm.Hdmi

/-! The IEC958 subframes of the HDMI output (`iec958_word` and the output sequence of
`hdmi_audio_poc_run`, in `hdmi_audio_poc.c`). -/

def bit (word : UInt32) (index : Nat) : Bool := word.toBitVec.getLsbD index

/-- `parity32`: the number of set bits, modulo 2. -/
def parity32 (x : UInt32) : UInt32 := UInt32.ofNat ((List.range 32).countP (bit x) % 2)

/-- Consumer PCM without pre-emphasis, 48 kHz, 24 bits. -/
def status : List UInt8 := [0x04, 0x00, 0x00, 0x02, 0xdb]

def bPreamble : UInt32 := 0x0f

def framesPerBlock : UInt32 := 192

/-- The status bit of a frame is looked up in its byte. -/
def statusBit (frame : UInt32) : Bool :=
  decide (frame < 40) &&
    (status.getD (frame >>> 3).toNat 0).toUInt32 &&& ((1 : UInt32) <<< (frame &&& 7)) != 0

/-- `iec958_word`. -/
def iec958Word (sample : Int32) (frame : UInt32) : UInt32 :=
  let word := (sample.toUInt32 &&& 0x00ffffff) <<< 4
  let word := if statusBit frame then word ||| 0x40000000 else word
  let word := if parity32 word != 0 then word ||| 0x80000000 else word
  if frame = 0 then word ||| bPreamble else word

/-- `if (++frame == IEC958_FRAMES_PER_BLOCK) frame = 0`. -/
def nextFrame (frame : UInt32) : UInt32 :=
  if frame + 1 = framesPerBlock then 0 else frame + 1

/-- The words written to `HD_MAI_DATA`: left and right with the same frame number. -/
def output : UInt32 → List (Int32 × Int32) → List UInt32
  | _, [] => []
  | frame, (left, right) :: rest =>
      iec958Word left frame :: iec958Word right frame :: output (nextFrame frame) rest

/-! What a sink reads from the words. -/

/-- Bits 4 to 27, sign-extended. -/
def audioSample (word : UInt32) : Int32 :=
  .ofBitVec ((word.toBitVec.extractLsb' 4 24).signExtend 32)

/-- An even number of the bits 4 to 31 is set. -/
def EvenParity (word : UInt32) : Prop := (List.range' 4 28).countP (bit word) % 2 = 0

/-- The 40 bits of the consumer status, low bit first. -/
def statusBits : List Bool :=
  status.flatMap fun byte => (List.range 8).map byte.toNat.testBit

def InRange24 (sample : Int32) : Prop := -2 ^ 23 ≤ sample.toInt ∧ sample.toInt ≤ 2 ^ 23 - 1

section Bits

variable (sample : Int32) (frame : UInt32)

theorem bit_or (first second : UInt32) (index : Nat) :
    bit (first ||| second) index = (bit first index || bit second index) := by
  rw [bit, UInt32.toBitVec_or, BitVec.getLsbD_or]
  rfl

/-- A word with a bit set under a condition. -/
theorem bit_set {flag index : Nat} (condition : Prop) [Decidable condition] (word mask : UInt32)
    (single : ∀ position < 32, bit mask position = decide (position = flag)) (inside : index < 32) :
    bit (if condition then word ||| mask else word) index =
      (bit word index || (decide (index = flag) && decide condition)) := by
  by_cases set : condition
  · rw [if_pos set, bit_or, single index inside, decide_eq_true set, Bool.and_true]
  · rw [if_neg set, decide_eq_false set, Bool.and_false, Bool.or_false]

theorem bit_audio {index : Nat} (inside : index < 32) :
    bit ((sample.toUInt32 &&& 0x00ffffff) <<< 4) index =
      (decide (4 ≤ index ∧ index < 28) && bit sample.toUInt32 (index - 4)) := by
  have mask : ∀ position < 32, (0x00ffffff#32).getLsbD position = decide (position < 24) := by
    decide
  change ((sample.toUInt32.toBitVec &&& 0x00ffffff#32) <<< 4).getLsbD index = _
  rw [BitVec.getLsbD_shiftLeft, BitVec.getLsbD_and, mask _ (by omega), decide_eq_true inside,
    Bool.true_and]
  by_cases low : index < 4
  · simp [low, Nat.not_le.mpr low]
  · by_cases high : index < 28
    · simp [low, high, Nat.le_of_not_lt low, show index - 4 < 24 by omega, bit]
    · simp [high, show ¬ index - 4 < 24 by omega]

/-- The word before its parity and preamble are added. -/
def payload : UInt32 :=
  if statusBit frame then (sample.toUInt32 &&& 0x00ffffff) <<< 4 ||| 0x40000000
  else (sample.toUInt32 &&& 0x00ffffff) <<< 4

theorem bit_payload {index : Nat} (inside : index < 32) :
    bit (payload sample frame) index =
      (decide (4 ≤ index ∧ index < 28) && bit sample.toUInt32 (index - 4) ||
        (decide (index = 30) && statusBit frame)) := by
  have single : ∀ position < 32, bit 0x40000000 position = decide (position = 30) := by decide
  rw [payload, bit_set _ _ _ single inside, bit_audio sample inside, Bool.decide_eq_true]

/-- Every bit of a word. -/
theorem bit_iec958Word {index : Nat} (inside : index < 32) :
    bit (iec958Word sample frame) index =
      (bit (payload sample frame) index ||
        (decide (index = 31) && parity32 (payload sample frame) != 0) ||
        (decide (index < 4) && decide (frame = 0))) := by
  have single : ∀ position < 32, bit 0x80000000 position = decide (position = 31) := by decide
  have nibble : ∀ position < 32, bit bPreamble position = decide (position < 4) := by decide
  have parity := bit_set (parity32 (payload sample frame) != 0) (payload sample frame) 0x80000000
    single inside
  rw [Bool.decide_eq_true] at parity
  rw [← parity]
  change bit (if frame = 0 then _ ||| bPreamble else _) index = _
  by_cases first : frame = 0
  · rw [if_pos first, bit_or, nibble index inside, decide_eq_true first, Bool.and_true]
    rfl
  · rw [if_neg first, decide_eq_false first, Bool.and_false, Bool.or_false]
    rfl

/-- Above the preamble and below the parity bit the word is the payload. -/
theorem bit_iec958Word_of_field {index : Nat} (above : 4 ≤ index) (below : index < 31) :
    bit (iec958Word sample frame) index = bit (payload sample frame) index := by
  rw [bit_iec958Word sample frame (by omega), decide_eq_false (show ¬index = 31 by omega),
    decide_eq_false (show ¬index < 4 by omega), Bool.false_and, Bool.false_and, Bool.or_false,
    Bool.or_false]

theorem bit_payload_outside {index : Nat} (inside : index < 32) (outside : index < 4 ∨ index = 31) :
    bit (payload sample frame) index = false := by
  rw [bit_payload sample frame inside, decide_eq_false (show ¬(4 ≤ index ∧ index < 28) by omega),
    decide_eq_false (show ¬index = 30 by omega), Bool.false_and, Bool.false_and, Bool.or_false]

theorem parity32_eq (word : UInt32) :
    (parity32 word != 0) = decide ((List.range 32).countP (bit word) % 2 = 1) := by
  rw [parity32]
  rcases Nat.mod_two_eq_zero_or_one ((List.range 32).countP (bit word)) with even | odd
  · rw [even]
    rfl
  · rw [odd]
    rfl

/-- The parity bit makes the count of bits 4 to 31 even. -/
theorem evenParity_iec958Word : EvenParity (iec958Word sample frame) := by
  have positions : List.range' 4 28 = List.range' 4 27 ++ [31] := rfl
  have whole : List.range 32 = [0, 1, 2, 3] ++ List.range' 4 27 ++ [31] := rfl
  have same : (List.range' 4 27).countP (bit (iec958Word sample frame)) =
      (List.range' 4 27).countP (bit (payload sample frame)) := by
    apply List.countP_congr
    intro index member
    obtain ⟨above, below⟩ := List.mem_range'_1.mp member
    rw [bit_iec958Word_of_field sample frame above (by omega)]
  have top : bit (iec958Word sample frame) 31 = (parity32 (payload sample frame) != 0) := by
    rw [bit_iec958Word sample frame (by decide),
      bit_payload_outside sample frame (by decide) (.inr rfl)]
    simp
  have count : (List.range 32).countP (bit (payload sample frame)) =
      (List.range' 4 27).countP (bit (payload sample frame)) := by
    have outside := fun index inside => @bit_payload_outside sample frame index inside
    rw [whole, List.countP_append, List.countP_append]
    simp [outside]
  rw [EvenParity, positions, List.countP_append, same, List.countP_singleton, top, parity32_eq, count]
  rcases Nat.mod_two_eq_zero_or_one
    ((List.range' 4 27).countP (bit (payload sample frame))) with even | odd
  · rw [even, if_neg (by decide)]
    exact even
  · rw [odd, if_pos (by decide), Nat.add_mod, odd]

theorem audioSample_iec958Word (range : InRange24 sample) :
    audioSample (iec958Word sample frame) = sample := by
  have field : (iec958Word sample frame).toBitVec.extractLsb' 4 24 =
      sample.toBitVec.setWidth 24 := by
    apply BitVec.eq_of_getLsbD_eq
    intro index inside
    have audio : bit (iec958Word sample frame) (4 + index) = bit sample.toUInt32 index := by
      rw [bit_iec958Word_of_field sample frame (by omega) (by omega),
        bit_payload sample frame (by omega),
        decide_eq_true (show 4 ≤ 4 + index ∧ 4 + index < 28 by omega),
        decide_eq_false (show ¬4 + index = 30 by omega), Bool.false_and, Bool.or_false,
        Bool.true_and, Nat.add_sub_cancel_left]
    rw [BitVec.getLsbD_extractLsb', BitVec.getLsbD_setWidth, decide_eq_true inside,
      Bool.true_and, Bool.true_and]
    exact audio
  obtain ⟨lower, upper⟩ := range
  have value : (sample.toBitVec.setWidth 24).toInt = sample.toInt := by
    have wide : sample.toInt = Int.bmod sample.toBitVec.toNat (2 ^ 32) :=
      BitVec.toInt_eq_toNat_bmod sample.toBitVec
    rw [BitVec.toInt_setWidth, ← Int.bmod_bmod_of_dvd (show 2 ^ 24 ∣ 2 ^ 32 by decide), ← wide]
    apply Int.bmod_eq_of_le <;> omega
  apply Int32.toInt_inj.mp
  rw [audioSample, field]
  change (BitVec.signExtend 32 _).toInt = _
  rw [BitVec.toInt_signExtend_of_le (by decide), value]

theorem preamble_iec958Word :
    iec958Word sample frame &&& 0xf = if frame = 0 then bPreamble else 0 := by
  have nibble : ∀ position < 32, bit 0xf position = decide (position < 4) := by decide
  apply UInt32.toBitVec_inj.mp
  apply BitVec.eq_of_getLsbD_eq
  intro index inside
  change ((iec958Word sample frame).toBitVec &&& (0xf : UInt32).toBitVec).getLsbD index =
    bit (if frame = 0 then bPreamble else 0) index
  rw [BitVec.getLsbD_and]
  change (bit (iec958Word sample frame) index && bit 0xf index) = _
  rw [nibble index inside, apply_ite (bit · index), show bit bPreamble index = _ from nibble index inside]
  by_cases low : index < 4
  · rw [bit_iec958Word sample frame inside, bit_payload_outside sample frame inside (.inl low),
      decide_eq_true low, decide_eq_false (show ¬index = 31 by omega)]
    by_cases first : frame = 0 <;> simp [first, bit]
  · rw [decide_eq_false low, Bool.and_false]
    split_ifs
    · rfl
    · simp [bit]

end Bits

section Stream

theorem nextFrame_ofNat {count : Nat} :
    nextFrame^[count] 0 = UInt32.ofNat (count % 192) := by
  induction count with
  | zero => rfl
  | succ count ih =>
      have size : UInt32.size = 2 ^ 32 := rfl
      have rest := Nat.mod_lt count (show 0 < 192 by decide)
      have word : (UInt32.ofNat (count % 192) + 1) = UInt32.ofNat (count % 192 + 1) :=
        (UInt32.ofNat_add _ _).symm
      rw [Function.iterate_succ_apply', ih, nextFrame, word]
      by_cases last : count % 192 = 191
      · rw [last, show (count + 1) % 192 = 0 by omega]
        exact if_pos rfl
      · have small : UInt32.ofNat (count % 192 + 1) ≠ framesPerBlock := by
          intro same
          have number := congrArg UInt32.toNat same
          rw [UInt32.toNat_ofNat_of_lt' (by omega)] at number
          change count % 192 + 1 = 192 at number
          omega
        rw [if_neg small, show (count + 1) % 192 = count % 192 + 1 by omega]

/-- The two words of frame `k` carry its number. -/
theorem output_getElem? (samples : List (Int32 × Int32)) (frame : UInt32) (k side : Nat)
    (stereo : side < 2) :
    (output frame samples)[2 * k + side]? = samples[k]?.map fun pair =>
      iec958Word (if side = 0 then pair.1 else pair.2) (nextFrame^[k] frame) := by
  induction samples generalizing frame k with
  | nil => rfl
  | cons pair rest ih =>
      cases k with
      | zero =>
          obtain rfl | rfl : side = 0 ∨ side = 1 := by omega
          · rfl
          · rfl
      | succ k =>
          have index : 2 * (k + 1) + side = 2 * k + side + 1 + 1 := by omega
          rw [output, index, List.getElem?_cons_succ, List.getElem?_cons_succ, ih, List.getElem?_cons_succ,
            Function.iterate_succ_apply]

theorem output_append (first second : List (Int32 × Int32)) (frame : UInt32) :
    output frame (first ++ second) =
      output frame first ++ output (nextFrame^[first.length] frame) second := by
  induction first generalizing frame with
  | nil => rfl
  | cons pair rest ih =>
      simp only [List.cons_append, output, ih, List.length_cons, Function.iterate_succ_apply]

theorem length_output (samples : List (Int32 × Int32)) (frame : UInt32) :
    (output frame samples).length = 2 * samples.length := by
  induction samples generalizing frame with
  | nil => rfl
  | cons pair rest ih =>
      rw [output, List.length_cons, List.length_cons, ih, List.length_cons]
      omega

theorem mem_output {samples : List (Int32 × Int32)} {frame word : UInt32}
    (member : word ∈ output frame samples) : ∃ sample frame, word = iec958Word sample frame := by
  induction samples generalizing frame with
  | nil => cases member
  | cons pair rest ih =>
      rw [output, List.mem_cons, List.mem_cons] at member
      rcases member with left | right | later
      · exact ⟨_, _, left⟩
      · exact ⟨_, _, right⟩
      · exact ih later

theorem map_audioSample_output {samples : List (Int32 × Int32)}
    (range : ∀ pair ∈ samples, InRange24 pair.1 ∧ InRange24 pair.2) (frame : UInt32) :
    (output frame samples).map audioSample = samples.flatMap fun pair => [pair.1, pair.2] := by
  induction samples generalizing frame with
  | nil => rfl
  | cons pair rest ih =>
      obtain ⟨left, right⟩ := range pair List.mem_cons_self
      rw [output, List.map_cons, List.map_cons, audioSample_iec958Word _ _ left,
        audioSample_iec958Word _ _ right, ih (fun pair later => range pair (List.mem_cons_of_mem _ later))]
      rfl

theorem statusBit_block :
    (List.range 192).map (fun frame => statusBit (UInt32.ofNat frame)) =
      statusBits ++ List.replicate 152 false := by decide +kernel

/-- The stream carries the samples, the block structure and the status. -/
theorem iec958_stream (samples : List (Int32 × Int32))
    (range : ∀ pair ∈ samples, InRange24 pair.1 ∧ InRange24 pair.2) :
    (∀ word ∈ output 0 samples,
      EvenParity word ∧ bit word 28 = false ∧ bit word 29 = false) ∧
    (output 0 samples).map audioSample = samples.flatMap (fun pair => [pair.1, pair.2]) ∧
    (∀ (index : Nat) (word : UInt32), (output 0 samples)[index]? = some word →
      word &&& 0xf = if index / 2 % 192 = 0 then bPreamble else 0) ∧
    ∀ block side : Nat, 192 * (block + 1) ≤ samples.length → side < 2 →
      (List.range 192).map
        (fun frame => (output 0 samples)[2 * (192 * block + frame) + side]?.map (bit · 30)) =
          (statusBits ++ List.replicate 152 false).map some := by
  have size : UInt32.size = 2 ^ 32 := rfl
  refine ⟨?_, map_audioSample_output range 0, ?_, ?_⟩
  · intro word member
    obtain ⟨sample, frame, rfl⟩ := mem_output member
    refine ⟨evenParity_iec958Word sample frame, ?_, ?_⟩
    · rw [bit_iec958Word_of_field _ _ (by decide) (by decide), bit_payload _ _ (by decide)]
      simp
    · rw [bit_iec958Word_of_field _ _ (by decide) (by decide), bit_payload _ _ (by decide)]
      simp
  · intro index word found
    have parts : index = 2 * (index / 2) + index % 2 := (Nat.div_add_mod index 2).symm
    rw [parts, output_getElem? _ _ _ _ (Nat.mod_lt _ (by decide)), Option.map_eq_some_iff] at found
    obtain ⟨pair, -, rfl⟩ := found
    have first : UInt32.ofNat (index / 2 % 192) = 0 ↔ index / 2 % 192 = 0 := by
      rw [← UInt32.toNat_inj, UInt32.toNat_ofNat_of_lt' (by omega)]
      rfl
    rw [preamble_iec958Word, nextFrame_ofNat]
    simp only [first]
  · intro block side whole stereo
    rw [← statusBit_block, List.map_map]
    apply List.map_congr_left
    intro frame member
    have small := List.mem_range.mp member
    have present : 192 * block + frame < samples.length := by omega
    rw [output_getElem? _ _ _ _ stereo, List.getElem?_eq_getElem present, Option.map_some,
      Option.map_some, nextFrame_ofNat, bit_iec958Word_of_field _ _ (by decide) (by decide),
      bit_payload _ _ (by decide), Nat.mul_add_mod, Nat.mod_eq_of_lt small]
    simp

/-- One block and the first frame of the next, at the two ends of the range. -/
def extremes : List (Int32 × Int32) := List.replicate 193 (-8388608, 8388607)

theorem iec958_stream_of_extremes :
    (∀ word ∈ output 0 extremes, EvenParity word) ∧
      (output 0 extremes).map audioSample = extremes.flatMap (fun pair => [pair.1, pair.2]) ∧
      (∀ word, (output 0 extremes)[384]? = some word → word &&& 0xf = bPreamble) ∧
      (List.range 192).map (fun frame => (output 0 extremes)[2 * frame + 1]?.map (bit · 30)) =
        (statusBits ++ List.replicate 152 false).map some := by
  have range : ∀ pair ∈ extremes, InRange24 pair.1 ∧ InRange24 pair.2 := by
    intro pair member
    rw [List.eq_of_mem_replicate member]
    exact ⟨⟨by decide, by decide⟩, ⟨by decide, by decide⟩⟩
  obtain ⟨parity, samples, preamble, status⟩ := iec958_stream extremes range
  refine ⟨fun word member => (parity word member).1, samples, preamble 384, ?_⟩
  have block := status 0 1 (by rw [extremes, List.length_replicate]; decide) (by decide)
  simpa only [Nat.mul_zero, Nat.zero_add] using block

end Stream

end Paulastorm.Hdmi
