import CppStreamer.Format.OpusPackets
import CppStreamer.Format.OpusReader

/-!
This module contains that the frames which are read from a memory are those that are found in a list of bytes, for data
that is read without a fault.
-/

open ByteStream Checked Reading

namespace OpusReader

theorem readByte_getD {rest : List UInt8} {i : Nat} (h : i < rest.length)
    : Opus.readByte rest i = .ok (rest.getD i 0).toNat := by
  rw [Opus.readByte, List.getElem?_eq_getElem h, List.getElem_eq_getD 0]

section Header

variable {rest : List UInt8}

theorem controlEnd_eq (hfits : HeaderFits rest) : Opus.controlEnd rest = .ok (headerLen rest) := by
  have htrim (bit : Bool) (i : Nat) : (if bit = true then i + 2 else i) = i + bit.toNat * 2 := by
    cases bit with
    | false => rfl
    | true => rfl
  unfold Opus.controlEnd headerLen
  simp only [htrim]
  change (if _ then _ <$> Opus.readByte rest (extensionPos rest) else .ok (extensionPos rest)) = _
  by_cases hext : (read2Bytes rest).testBit 2 = true
  . rw [if_pos hext, if_pos hext, readByte_getD (hfits.extension hext)]
    change Except.ok (extensionPos rest + 1 + _) = _
    rw [Nat.add_assoc]
  . rw [if_neg hext, if_neg hext]
    rfl

theorem getOpusHeader_eq (hfits : 3 ≤ rest.length → HasControl rest → HeaderFits rest)
    : (Opus.getOpusHeader rest).toOption = unitAt rest := by
  unfold Opus.getOpusHeader unitAt
  by_cases hlen : rest.length < 3
  . rw [if_pos hlen, if_pos hlen]
    rfl
  . by_cases hcontrol : HasControl rest
    . have hne : ¬read2Bytes rest / 2 ^ 5 ≠ 0x3ff := not_not_intro hcontrol
      rw [if_neg hlen, if_neg hlen, if_neg hne, if_neg (not_not_intro hcontrol),
        controlEnd_eq (hfits (by omega) hcontrol)]
      change (if rest.length < headerLen rest + unitLen rest then _ else _ : Except _ (Nat × Nat)).toOption = _
      split
      all_goals rfl
    . have hne : read2Bytes rest / 2 ^ 5 ≠ 0x3ff := hcontrol
      rw [if_neg hlen, if_neg hlen, if_pos hne, if_pos hcontrol]
      rfl

end Header

section Frames

variable {mem : Nat → UInt8} {pos len total : Nat} {rest : List UInt8}

theorem vbrFrames_shift {p : Nat} (hpos : 1 ≤ p) (lastLen : Int) (sizes : List Nat)
    : Opus.vbrFrames (pos + p) lastLen sizes = (Opus.vbrFrames p lastLen sizes).map (·.shift pos) := by
  induction sizes generalizing p with
  | nil => rfl
  | cons size sizes ih =>
    have hfirst (frameLen : Int) : (⟨(pos + p : Nat) - 1, frameLen⟩ : Opus.OpusFrame)
        = Opus.OpusFrame.shift ⟨p - 1, frameLen⟩ pos := by
      rw [Opus.OpusFrame.shift, Opus.OpusFrame.mk.injEq]
      constructor
      . push_cast
        omega
      . rfl
    cases sizes with
    | nil =>
      rw [Opus.vbrFrames, Opus.vbrFrames, List.map_singleton, hfirst]
    | cons next sizes =>
      rw [Opus.vbrFrames, Opus.vbrFrames, List.map_cons, hfirst, Nat.add_assoc, ih (by omega)]

theorem toOption_map_ok {frames : List Opus.OpusFrame}
    : (Except.ok frames : Except Opus.OpusFault (List Opus.OpusFrame)).toOption.map (·.map (·.shift pos))
        = some (frames.map (·.shift pos)) := rfl

theorem twoFrames_value (hmem : HoldsAt mem pos rest) (hlen : len ≤ rest.length) {type : Nat}
    (htype : Opus.readByte rest 0 = .ok type) (hcode : type % 4 = 2)
    : (twoFrames mem (pos + len) (pos + 1)).value
        = (Opus.getOpusFrame rest len).toOption.map (·.map (·.shift pos)) := by
  rcases holdsAt_packet hmem hlen 1 with ⟨hbehind, hlength⟩
  unfold twoFrames
  rw [value_bind, xiphLacing16bit_value hbehind hlength, Opus.getOpusFrame_code2 htype hcode]
  cases Opus.xiphLacing16bit ((rest.take len).drop 1) with
  | error fault => rfl
  | ok first =>
    rcases first with ⟨frameLen, lacing⟩
    simp only [Except.toOption, Option.map_some, bind, Except.bind]
    by_cases hzero : frameLen = 0
    . rw [if_pos hzero, if_pos hzero]
      rfl
    . rw [if_neg hzero, if_neg hzero, pushFrames_value]
      simp only [Option.map_some, List.map_cons, List.map_nil, Opus.OpusFrame.shift, Option.some.injEq, List.cons.injEq,
        Opus.OpusFrame.mk.injEq, and_true]
      push_cast
      omega

theorem constantFrames_value {p count : Nat} {left : Int}
    : (constantFrames count (pos + p) left).value
        = (if left.tmod count ≠ 0 ∨ 48 < left.tdiv count then .error .refused
          else .ok ((List.range count).map fun (i : Nat) => ⟨p - 1 + i * left.tdiv count, left.tdiv count + 1⟩)
          : Except Opus.OpusFault (List Opus.OpusFrame)).toOption.map (·.map (·.shift pos)) := by
  unfold constantFrames
  split
  . rfl
  . rw [pushFrames_value, toOption_map_ok, List.map_map]
    congr 2
    funext i
    rw [Function.comp_apply, Opus.OpusFrame.shift, Opus.OpusFrame.mk.injEq]
    constructor
    . push_cast
      omega
    . rfl

theorem countedFrames_value (hmem : HoldsAt mem pos rest) (hlen : len ≤ rest.length) (index padding lacing : Nat)
    : (countedFrames mem (pos + len) index padding (pos + (2 + lacing))).value
        = (Opus.countedFrames rest len index padding lacing).toOption.map (·.map (·.shift pos)) := by
  have hleft (n : Nat) : ((pos + len : Nat) : Int) - (pos + n : Nat) - padding = len - n - padding := by
    push_cast
    omega
  unfold countedFrames Opus.countedFrames
  by_cases hvbr : index.testBit 7 = true
  . rcases holdsAt_packet hmem hlen (2 + lacing) with ⟨hbehind, hlength⟩
    rw [if_pos hvbr, if_pos hvbr, value_bind, frameSizes_value hbehind hlength]
    cases Opus.frameSizes (index % 2 ^ 6 - 1) ((rest.take len).drop (2 + lacing)) with
    | error fault => rfl
    | ok first =>
      rcases first with ⟨sizes, lacing'⟩
      simp only [Except.toOption, Option.map_some, bind, Except.bind, Nat.add_assoc pos, hleft]
      split
      . rfl
      . rw [pushFrames_value, vbrFrames_shift (by omega)]
        rfl
  . rw [if_neg hvbr, if_neg hvbr, hleft]
    exact constantFrames_value

theorem manyFrames_value (hmem : HoldsAt mem pos rest) (hlen : len ≤ rest.length) (hindex : 2 ≤ rest.length)
    (htotal : pos + rest.length = total) {type : Nat} (htype : Opus.readByte rest 0 = .ok type) (hcode : type % 4 = 3)
    : (manyFrames mem (pos + len) (pos + 1)).value
        = (Opus.getOpusFrame rest len).toOption.map (·.map (·.shift pos)) := by
  have hread : Opus.readByte rest 1 = .ok (countIndex rest) := readByte_getD hindex
  unfold manyFrames
  rw [value_bind, readByte_value, hmem.getD hindex 0, Opus.getOpusFrame_code3 htype hcode hread]
  change (if countIndex rest % 2 ^ 6 = 0 ∨ 48 < countIndex rest % 2 ^ 6 then _ else _ : Checked OpusCheck _).value = _
  split
  . rfl
  . have hpadding : (announcedPadding mem (pos + len) (rest.getD 1 0).toNat (pos + 1 + 1)).value = _ :=
      (announcedPadding_spec hmem hlen htotal).right
    rw [value_bind, hpadding]
    change _ = (paddingSize len rest >>= fun read => Opus.countedFrames rest len _ read.1 read.2).toOption.map _
    cases paddingSize len rest with
    | error fault => rfl
    | ok read => exact countedFrames_value hmem hlen _ _ _

theorem getOpusFrame_value (hmem : HoldsAt mem pos rest) (hlen : len ≤ rest.length) (htotal : pos + rest.length = total)
    (hfits : PacketFits pos len rest)
    : (getOpusFrame mem pos len).value = (Opus.getOpusFrame rest len).toOption.map (·.map (·.shift pos)) := by
  have hbyte : mem pos = rest.getD 0 0 := hmem.getD hfits.toc 0
  have htype : Opus.readByte rest 0 = .ok (mem pos).toNat := by
    rw [hbyte]
    exact readByte_getD hfits.toc
  have hcode : code rest = (mem pos).toNat % 4 := by rw [code, hbyte]
  unfold getOpusFrame
  rw [value_bind, readByte_value]
  simp only
  split
  . next hzero =>
    rw [Opus.getOpusFrame_code0 htype hzero, pushFrames_value, toOption_map_ok, List.map_singleton,
      Opus.OpusFrame.shift, Int.zero_add]
  . split
    . next hone =>
      rw [Opus.getOpusFrame_code1 htype hone]
      split
      . rfl
      . rw [pushFrames_value, toOption_map_ok]
        simp only [List.map_cons, List.map_nil, Opus.OpusFrame.shift, Option.some.injEq, List.cons.injEq,
          Opus.OpusFrame.mk.injEq, and_true]
        omega
    . split
      . next htwo => exact twoFrames_value hmem hlen htype htwo
      . next hzero hone htwo =>
        have hthree : (mem pos).toNat % 4 = 3 := by omega
        exact manyFrames_value hmem hlen (hfits.count (hcode.trans hthree)) htotal htype hthree

end Frames

section Run

variable {mem : Nat → UInt8} {pos : Nat} {data : List UInt8}

/--
The frames that are read from data without a fault are those that are found in it.
-/
theorem framesFrom_value (hmem : HoldsAt mem 0 data) (hfits : Fits data pos)
    : (framesFrom mem data.length pos).value = (Opus.framesFrom data pos).toOption := by
  induction hfits with
  | done hend =>
    rw [framesFrom, if_neg (by omega), Opus.framesFrom, if_neg (by omega)]
    rfl
  | @unit pos hpos header packet next ih =>
    have hlength : pos + (data.drop pos).length = data.length := by
      rw [List.length_drop]
      omega
    have hunit := (getOpusHeader_spec (hmem.behind pos) hlength).right header
    have hheader := getOpusHeader_eq header
    rw [framesFrom, if_pos hpos, value_bind, Opus.framesFrom, if_pos hpos]
    cases hread : (getOpusHeader mem pos data.length).value with
    | none =>
      rw [hread, ← hheader, Option.map_none, eq_comm, Option.map_eq_none_iff] at hunit
      dsimp only
      split
      . rfl
      . next i len hok =>
        rw [hok] at hunit
        cases hunit
    | some unit =>
      rw [hread, ← hheader, Option.map_some, eq_comm, Option.map_eq_some_iff] at hunit
      rcases hunit with ⟨⟨i, len⟩, hok, heq⟩
      rcases Prod.mk.inj heq with ⟨hdata, hlen⟩
      have hat : unitAt (data.drop pos) = some (i, len) := by rw [← hheader, hok]
      have hle := unitAt_le hat
      rw [List.length_drop] at hle
      have hleft : pos + i + (data.drop (pos + i)).length = data.length := by
        rw [List.length_drop]
        omega
      have hshort : len ≤ (data.drop (pos + i)).length := by omega
      have hframes := getOpusFrame_value (hmem.behind (pos + i)) hshort hleft (packet i len hat)
      have haccepted := (getOpusFrame_spec (hmem.behind (pos + i)) hshort hleft).right (packet i len hat)
      dsimp only
      split
      . next fault hfault =>
        rw [hfault] at hok
        cases hok
      . next i' len' hok' =>
        rw [hok'] at hok
        cases hok
        rw [← hdata, ← hlen, value_bind, hframes]
        cases hlist : Opus.getOpusFrame (data.drop (pos + i)) len with
        | error fault => rfl
        | ok frames =>
          rw [hframes, hlist] at haccepted
          have hnext := ih i len hat (haccepted.mp rfl)
          rw [toOption_map_ok]
          dsimp only
          rw [value_bind, value_pure, hnext]
          cases Opus.framesFrom data (pos + i + len) with
          | error fault => rfl
          | ok rest => rfl

end Run

/--
What is returned for data without a fault is what is found in the list of its bytes.
-/
theorem getOpusFrameVector_value {mem : Nat → UInt8} {data : List UInt8} (hmem : HoldsAt mem 0 data)
    (hfits : Fits data 0)
    : (getOpusFrameVector mem data.length).value = (Opus.getOpusFrameVector data).toOption :=
  framesFrom_value hmem hfits

end OpusReader
