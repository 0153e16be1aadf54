import CppStreamer.Basic.Crc
import CppStreamer.Format.MpegTs.InputPacket
import CppStreamer.Format.MpegTs.Tables

/-!
This module contains the checksums of the tables that the muxer emits: the one of the PMT is right, the one of the PAT
never is.
-/

open ByteStream

namespace MpegTs

def crc32table : List UInt32 :=
  [0x00000000, 0xb71dc104, 0x6e3b8209, 0xd926430d, 0xdc760413, 0x6b6bc517, 0xb24d861a, 0x0550471e, 0xb8ed0826,
    0x0ff0c922, 0xd6d68a2f, 0x61cb4b2b, 0x649b0c35, 0xd386cd31, 0x0aa08e3c, 0xbdbd4f38, 0x70db114c, 0xc7c6d048,
    0x1ee09345, 0xa9fd5241, 0xacad155f, 0x1bb0d45b, 0xc2969756, 0x758b5652, 0xc836196a, 0x7f2bd86e, 0xa60d9b63,
    0x11105a67, 0x14401d79, 0xa35ddc7d, 0x7a7b9f70, 0xcd665e74, 0xe0b62398, 0x57abe29c, 0x8e8da191, 0x39906095,
    0x3cc0278b, 0x8bdde68f, 0x52fba582, 0xe5e66486, 0x585b2bbe, 0xef46eaba, 0x3660a9b7, 0x817d68b3, 0x842d2fad,
    0x3330eea9, 0xea16ada4, 0x5d0b6ca0, 0x906d32d4, 0x2770f3d0, 0xfe56b0dd, 0x494b71d9, 0x4c1b36c7, 0xfb06f7c3,
    0x2220b4ce, 0x953d75ca, 0x28803af2, 0x9f9dfbf6, 0x46bbb8fb, 0xf1a679ff, 0xf4f63ee1, 0x43ebffe5, 0x9acdbce8,
    0x2dd07dec, 0x77708634, 0xc06d4730, 0x194b043d, 0xae56c539, 0xab068227, 0x1c1b4323, 0xc53d002e, 0x7220c12a,
    0xcf9d8e12, 0x78804f16, 0xa1a60c1b, 0x16bbcd1f, 0x13eb8a01, 0xa4f64b05, 0x7dd00808, 0xcacdc90c, 0x07ab9778,
    0xb0b6567c, 0x69901571, 0xde8dd475, 0xdbdd936b, 0x6cc0526f, 0xb5e61162, 0x02fbd066, 0xbf469f5e, 0x085b5e5a,
    0xd17d1d57, 0x6660dc53, 0x63309b4d, 0xd42d5a49, 0x0d0b1944, 0xba16d840, 0x97c6a5ac, 0x20db64a8, 0xf9fd27a5,
    0x4ee0e6a1, 0x4bb0a1bf, 0xfcad60bb, 0x258b23b6, 0x9296e2b2, 0x2f2bad8a, 0x98366c8e, 0x41102f83, 0xf60dee87,
    0xf35da999, 0x4440689d, 0x9d662b90, 0x2a7bea94, 0xe71db4e0, 0x500075e4, 0x892636e9, 0x3e3bf7ed, 0x3b6bb0f3,
    0x8c7671f7, 0x555032fa, 0xe24df3fe, 0x5ff0bcc6, 0xe8ed7dc2, 0x31cb3ecf, 0x86d6ffcb, 0x8386b8d5, 0x349b79d1,
    0xedbd3adc, 0x5aa0fbd8, 0xeee00c69, 0x59fdcd6d, 0x80db8e60, 0x37c64f64, 0x3296087a, 0x858bc97e, 0x5cad8a73,
    0xebb04b77, 0x560d044f, 0xe110c54b, 0x38368646, 0x8f2b4742, 0x8a7b005c, 0x3d66c158, 0xe4408255, 0x535d4351,
    0x9e3b1d25, 0x2926dc21, 0xf0009f2c, 0x471d5e28, 0x424d1936, 0xf550d832, 0x2c769b3f, 0x9b6b5a3b, 0x26d61503,
    0x91cbd407, 0x48ed970a, 0xfff0560e, 0xfaa01110, 0x4dbdd014, 0x949b9319, 0x2386521d, 0x0e562ff1, 0xb94beef5,
    0x606dadf8, 0xd7706cfc, 0xd2202be2, 0x653deae6, 0xbc1ba9eb, 0x0b0668ef, 0xb6bb27d7, 0x01a6e6d3, 0xd880a5de,
    0x6f9d64da, 0x6acd23c4, 0xddd0e2c0, 0x04f6a1cd, 0xb3eb60c9, 0x7e8d3ebd, 0xc990ffb9, 0x10b6bcb4, 0xa7ab7db0,
    0xa2fb3aae, 0x15e6fbaa, 0xccc0b8a7, 0x7bdd79a3, 0xc660369b, 0x717df79f, 0xa85bb492, 0x1f467596, 0x1a163288,
    0xad0bf38c, 0x742db081, 0xc3307185, 0x99908a5d, 0x2e8d4b59, 0xf7ab0854, 0x40b6c950, 0x45e68e4e, 0xf2fb4f4a,
    0x2bdd0c47, 0x9cc0cd43, 0x217d827b, 0x9660437f, 0x4f460072, 0xf85bc176, 0xfd0b8668, 0x4a16476c, 0x93300461,
    0x242dc565, 0xe94b9b11, 0x5e565a15, 0x87701918, 0x306dd81c, 0x353d9f02, 0x82205e06, 0x5b061d0b, 0xec1bdc0f,
    0x51a69337, 0xe6bb5233, 0x3f9d113e, 0x8880d03a, 0x8dd09724, 0x3acd5620, 0xe3eb152d, 0x54f6d429, 0x7926a9c5,
    0xce3b68c1, 0x171d2bcc, 0xa000eac8, 0xa550add6, 0x124d6cd2, 0xcb6b2fdf, 0x7c76eedb, 0xc1cba1e3, 0x76d660e7,
    0xaff023ea, 0x18ede2ee, 0x1dbda5f0, 0xaaa064f4, 0x738627f9, 0xc49be6fd, 0x09fdb889, 0xbee0798d, 0x67c63a80,
    0xd0dbfb84, 0xd58bbc9a, 0x62967d9e, 0xbbb03e93, 0x0cadff97, 0xb110b0af, 0x060d71ab, 0xdf2b32a6, 0x6836f3a2,
    0x6d66b4bc, 0xda7b75b8, 0x035d36b5, 0xb440f7b1]

def mpegCrc32 (crc : UInt32) (buffer : List UInt8) : UInt32 :=
  buffer.foldl (fun crc b => crc32table.getD ((crc ^^^ b.toUInt32) &&& 0xff).toNat 0 ^^^ (crc >>> 8)) crc

/--
The checksum of a table.
-/
def tableChecksum (bytes : List UInt8) : Nat := (mpegCrc32 0xffffffff bytes).toNat

inductive Table where
  | pat
  | pmt

namespace Table

/--
What a table says, from `table_id` to its last entry.
-/
def content (m : MpegtsMuxState) : Table → List UInt8
  | pat => patSection
  | pmt => m.pmtSection

def packet (m : MpegtsMuxState) : Table → List UInt8
  | pat => m.generatePat tableChecksum
  | pmt => m.generatePmt tableChecksum

end Table

/--
The polynomial of the CRC-32 of MPEG-2.
-/
def crcPoly : BitVec 32 := 0x04c11db7#32

/--
The bytes of a word in the other order.
-/
def swapBytes (s : BitVec 32) : BitVec 32 :=
  s.extractLsb' 0 8 ++ (s.extractLsb' 8 8 ++ (s.extractLsb' 16 8 ++ s.extractLsb' 24 8))

/--
The section of a packet, as far as `section_length` goes.
-/
def sectionBytes (packet : List UInt8) : List UInt8 := (packet.drop 5).take (3 + read2Bytes (packet.drop 6) % 2 ^ 12)

/--
The section is the content and a checksum, the CRC-32 of MPEG-2 over all of it is zero, and it is followed by stuffing.
-/
structure ValidTable (content packet : List UInt8) : Prop where
  length : packet.length = tsPacketSize
  content : ∃ crc, crc.length = 4 ∧ sectionBytes packet = content ++ crc
  residue : Crc.crc crcPoly 0xffffffff#32 (sectionBytes packet) = 0#32
  stuffing : ∀ b ∈ packet.drop (5 + (sectionBytes packet).length), b = 0xff

section Swap

/--
Bit `i` of a word that four bytes make.
-/
theorem getLsbD_swapBytes (s : BitVec 32) {i : Nat} (hi : i < 32)
    : (swapBytes s).getLsbD i = s.getLsbD (24 - i / 8 * 8 + i % 8) := by
  unfold swapBytes
  simp only [BitVec.getLsbD_append, BitVec.getLsbD_extractLsb']
  by_cases h8 : i < 8
  . have hplace : 24 - i / 8 * 8 + i % 8 = 24 + i := by omega
    have hbelow : i < 16 ∧ i < 24 := by omega
    simp [h8, hbelow, hplace]
  . by_cases h16 : i < 16
    . have hplace : 24 - i / 8 * 8 + i % 8 = 16 + (i - 8) := by omega
      have hbelow : i < 24 := by omega
      have hbyte : i - 8 < 8 := by omega
      simp [h8, h16, hbelow, hbyte, hplace]
    . by_cases h24 : i < 24
      . have hplace : 24 - i / 8 * 8 + i % 8 = 8 + (i - 16) := by omega
        have hbyte : i - 16 < 8 := by omega
        simp [h16, h24, hbyte, hplace]
      . have hplace : 24 - i / 8 * 8 + i % 8 = i - 24 := by omega
        have hbyte : i - 24 < 8 := by omega
        simp [h24, hbyte, hplace]

theorem swapBytes_swapBytes (s : BitVec 32) : swapBytes (swapBytes s) = s := by
  apply BitVec.eq_of_getLsbD_eq
  intro i hi
  rw [getLsbD_swapBytes _ hi, getLsbD_swapBytes _ (by omega)]
  congr 1
  omega

theorem swapBytes_xor (s t : BitVec 32) : swapBytes (s ^^^ t) = swapBytes s ^^^ swapBytes t := by
  apply BitVec.eq_of_getLsbD_eq
  intro i hi
  rw [BitVec.getLsbD_xor, getLsbD_swapBytes _ hi, getLsbD_swapBytes _ hi, getLsbD_swapBytes _ hi, BitVec.getLsbD_xor]

theorem swapBytes_shiftLeft (s : BitVec 32) : swapBytes (s <<< 8) = swapBytes s >>> 8 := by
  apply BitVec.eq_of_getLsbD_eq
  intro i hi
  rw [getLsbD_swapBytes _ hi, BitVec.getLsbD_ushiftRight, BitVec.getLsbD_shiftLeft]
  by_cases htop : 8 + i < 32
  . rw [getLsbD_swapBytes _ htop]
    have hplace : 24 - i / 8 * 8 + i % 8 - 8 = 24 - (8 + i) / 8 * 8 + (8 + i) % 8 := by omega
    have hlow : ¬24 - i / 8 * 8 + i % 8 < 8 := by omega
    have hwidth : 24 - i / 8 * 8 + i % 8 < 32 := by omega
    simp [hplace, hlow, hwidth]
  . have hlow : 24 - i / 8 * 8 + i % 8 < 8 := by omega
    rw [BitVec.getLsbD_of_ge (swapBytes s) _ (by omega)]
    simp [hlow]

theorem topByte_swapBytes (s : BitVec 32) : (Crc.topByte (swapBytes s)).toBitVec = s.setWidth 8 := by
  apply BitVec.eq_of_getLsbD_eq
  intro i hi
  unfold Crc.topByte
  rw [BitVec.getLsbD_setWidth, BitVec.getLsbD_setWidth, BitVec.getLsbD_ushiftRight, getLsbD_swapBytes _ (by omega)]
  have hplace : 24 - (32 - 8 + i) / 8 * 8 + (32 - 8 + i) % 8 = i := by omega
  rw [hplace]

theorem getLsbD_ofByte (b : UInt8) (i : Nat)
    : (Crc.ofByte b : BitVec 32).getLsbD i = if i / 8 = 3 then b.toBitVec.getLsbD (i % 8) else false := by
  unfold Crc.ofByte
  rw [BitVec.getLsbD_shiftLeft, BitVec.getLsbD_setWidth]
  split
  . have hplace : i - (32 - 8) = i % 8 := by omega
    have hrange : i < 32 ∧ ¬i < 32 - 8 ∧ i % 8 < 32 := by omega
    simp only [hplace, hrange, decide_true, decide_false, Bool.not_false, Bool.true_and]
  . next hother =>
    by_cases hlow : i < 24
    . simp [hlow]
    . have hhigh : ¬i < 32 := by omega
      simp [hhigh]

/--
Four bytes, with the most significant one in front.
-/
theorem getLsbD_word (b3 b2 b1 b0 : UInt8) {i : Nat} (hi : i < 32)
    : (Crc.word [b3, b2, b1, b0] : BitVec 32).getLsbD i
        = ([b0, b1, b2, b3].getD (i / 8) 0).toBitVec.getLsbD (i % 8) := by
  have hnext (n : Nat) : (8 + n) / 8 = n / 8 + 1 ∧ (8 + n) % 8 = n % 8 := by omega
  have hq : i / 8 = 0 ∨ i / 8 = 1 ∨ i / 8 = 2 ∨ i / 8 = 3 := by omega
  simp only [Crc.word, BitVec.getLsbD_xor, BitVec.getLsbD_ushiftRight, getLsbD_ofByte, BitVec.getLsbD_zero, hnext]
  obtain hq | hq | hq | hq := hq
  all_goals simp [hq]

theorem getLsbD_byteAt (value k : Nat) {j : Nat} (hj : j < 8)
    : (byteAt value k).toBitVec.getLsbD j = value.testBit (8 * k + j) := by
  have hpow : 256 ^ k = 2 ^ (8 * k) := by
    rw [Nat.pow_mul]
  unfold byteAt
  rw [UInt8.toBitVec_ofNat', BitVec.getLsbD_ofNat, hpow, Nat.testBit_div_two_pow, Nat.add_comm j]
  simp [hj]

theorem word_write4Bytes (value : Nat) : Crc.word (write4Bytes value) = BitVec.ofNat 32 value := by
  apply BitVec.eq_of_getLsbD_eq
  intro i hi
  have hbyte : [byteAt value 0, byteAt value 1, byteAt value 2, byteAt value 3].getD (i / 8) 0 = byteAt value (i / 8) := by
    have hq : i / 8 = 0 ∨ i / 8 = 1 ∨ i / 8 = 2 ∨ i / 8 = 3 := by omega
    obtain hq | hq | hq | hq := hq
    all_goals rw [hq]; rfl
  have hplace : 8 * (i / 8) + i % 8 = i := by omega
  unfold write4Bytes
  rw [getLsbD_word _ _ _ _ hi, hbyte, getLsbD_byteAt _ _ (by omega), hplace, BitVec.getLsbD_ofNat]
  simp [hi]

theorem word_write4Bytes_reverse (value : Nat)
    : Crc.word (write4Bytes value).reverse = swapBytes (BitVec.ofNat 32 value) := by
  apply BitVec.eq_of_getLsbD_eq
  intro i hi
  have hreverse : (write4Bytes value).reverse = [byteAt value 0, byteAt value 1, byteAt value 2, byteAt value 3] := rfl
  have hbyte : [byteAt value 3, byteAt value 2, byteAt value 1, byteAt value 0].getD (i / 8) 0
      = byteAt value (3 - i / 8) := by
    have hq : i / 8 = 0 ∨ i / 8 = 1 ∨ i / 8 = 2 ∨ i / 8 = 3 := by omega
    obtain hq | hq | hq | hq := hq
    all_goals rw [hq]; rfl
  have hplace : 8 * (3 - i / 8) + i % 8 = 24 - i / 8 * 8 + i % 8 := by omega
  have hwidth : 24 - i / 8 * 8 + i % 8 < 32 := by omega
  rw [hreverse, getLsbD_word _ _ _ _ hi, hbyte, getLsbD_byteAt _ _ (by omega), hplace, getLsbD_swapBytes _ hi,
    BitVec.getLsbD_ofNat]
  simp [hwidth]

end Swap

section Table

/--
Each entry of the table is the check over its index, with the bytes in the other order.
-/
theorem crc32table_eq (b : UInt8)
    : (crc32table.getD b.toNat 0).toBitVec = swapBytes (Crc.crcByte crcPoly 0#32 b) := by
  have hall : ∀ i : Fin 256,
      (crc32table.getD i 0).toBitVec = swapBytes (Crc.crcByte crcPoly 0#32 (UInt8.ofNat i)) := by decide +kernel
  have hb := hall ⟨b.toNat, b.toNat_lt⟩
  rwa [UInt8.ofNat_toNat] at hb

theorem mpegCrc32_eq (crc : UInt32) (buffer : List UInt8)
    : (mpegCrc32 crc buffer).toBitVec = swapBytes (Crc.crc crcPoly (swapBytes crc.toBitVec) buffer) := by
  induction buffer generalizing crc with
  | nil => exact (swapBytes_swapBytes _).symm
  | cons b buffer ih =>
    have hstep : mpegCrc32 crc (b :: buffer)
        = mpegCrc32 (crc32table.getD ((crc ^^^ b.toUInt32) &&& 0xff).toNat 0 ^^^ (crc >>> 8)) buffer := rfl
    have hindex : ((crc ^^^ b.toUInt32) &&& 0xff).toNat = (Crc.topByte (swapBytes crc.toBitVec) ^^^ b).toNat := by
      rw [← UInt8.toNat_toBitVec, UInt8.toBitVec_xor, topByte_swapBytes, ← UInt32.toNat_toBitVec, UInt32.toBitVec_and,
        UInt32.toBitVec_xor, UInt8.toBitVec_toUInt32, BitVec.toNat_and]
      have hmask := Nat.and_two_pow_sub_one_eq_mod (crc.toBitVec ^^^ b.toBitVec.setWidth 32).toNat 8
      have hwidth : crc.toBitVec.setWidth 8 ^^^ b.toBitVec = (crc.toBitVec ^^^ b.toBitVec.setWidth 32).setWidth 8 := by
        rw [BitVec.setWidth_xor, BitVec.setWidth_setWidth_of_le _ (by decide), BitVec.setWidth_eq]
      rw [hwidth, BitVec.toNat_setWidth]
      exact hmask
    have hshift : (crc >>> 8).toBitVec = crc.toBitVec >>> 8 := by
      rw [UInt32.toBitVec_shiftRight]
      rfl
    rw [hstep, ih, hindex, UInt32.toBitVec_xor, crc32table_eq, hshift, swapBytes_xor, swapBytes_swapBytes]
    have hrest : swapBytes (crc.toBitVec >>> 8) = swapBytes crc.toBitVec <<< 8 := by
      rw [← swapBytes_swapBytes (swapBytes crc.toBitVec <<< 8), swapBytes_shiftLeft, swapBytes_swapBytes]
    rw [hrest, ← Crc.crcByte_eq_table (by decide)]
    rfl

end Table

section Residue

/--
Where `section_length` is right, only the checksum decides.
-/
theorem validTable_stuffing {header content crc rest : List UInt8} {tableId : UInt8} (hheader : header.length = 5)
    (hcontent : content = tableId :: write2Bytes (0xb000 + (rest.length + 4)) ++ rest) (hcrc : crc.length = 4)
    (hlen : rest.length ≤ 100)
    : ValidTable content (stuffing (header ++ content ++ crc))
        ↔ Crc.crc crcPoly 0xffffffff#32 content = Crc.word crc := by
  have hlength : (content ++ crc).length = rest.length + 7 := by
    rw [List.length_append, hcontent, hcrc, List.cons_append, List.length_cons, List.length_append, length_write2Bytes]
    omega
  have hpacket : stuffing (header ++ content ++ crc)
      = header ++ ((content ++ crc) ++ List.replicate (tsPacketSize - (rest.length + 12)) 0xff) := by
    have htotal : (header ++ content ++ crc).length = rest.length + 12 := by
      rw [List.append_assoc, List.length_append, hlength, hheader]
      omega
    rw [stuffing, htotal]
    simp only [List.append_assoc]
  have hread : read2Bytes ((stuffing (header ++ content ++ crc)).drop 6) % 2 ^ 12 = rest.length + 4 := by
    have hdrop : (stuffing (header ++ content ++ crc)).drop 6 = write2Bytes (0xb000 + (rest.length + 4))
        ++ (rest ++ (crc ++ List.replicate (tsPacketSize - (rest.length + 12)) 0xff)) := by
      rw [hpacket, ← List.drop_drop (i := 1) (j := 5), List.drop_left' hheader, hcontent]
      simp
    rw [hdrop, read2Bytes_write2Bytes]
    omega
  have hsection : sectionBytes (stuffing (header ++ content ++ crc)) = content ++ crc := by
    unfold sectionBytes
    rw [hread, hpacket, List.drop_left' hheader, List.take_left' (by rw [hlength]; omega)]
  have hresidue : Crc.crc crcPoly 0xffffffff#32 (content ++ crc) = 0#32
      ↔ Crc.crc crcPoly 0xffffffff#32 content = Crc.word crc := by
    rw [Crc.crc_append, Crc.crc_eq_zero_iff (by decide) _ (by omega)]
  rw [← hresidue]
  constructor
  . intro h
    rw [← hsection]
    exact h.residue
  . intro h
    constructor
    . rw [hpacket, List.length_append, List.length_append, hlength, hheader, List.length_replicate]
      unfold tsPacketSize
      omega
    . exact ⟨crc, hcrc, hsection⟩
    . rw [hsection]
      exact h
    . intro b hb
      have hdrop : 5 + (content ++ crc).length = (header ++ (content ++ crc)).length := by
        simp only [List.length_append, hheader]
      rw [hsection, hpacket, ← List.append_assoc header, List.drop_left' hdrop.symm] at hb
      exact List.eq_of_mem_replicate hb

theorem mpegCrc32_toBitVec (bytes : List UInt8)
    : BitVec.ofNat 32 (tableChecksum bytes) = swapBytes (Crc.crc crcPoly 0xffffffff#32 bytes) := by
  have hinit : swapBytes (0xffffffff : UInt32).toBitVec = 0xffffffff#32 := by decide
  unfold tableChecksum
  rw [← UInt32.toNat_toBitVec, BitVec.ofNat_toNat, BitVec.setWidth_eq, mpegCrc32_eq, hinit]

/--
The lowest bytes are the last ones in the PMT.
-/
theorem validTable_pmt (m : MpegtsMuxState) : ValidTable (Table.pmt.content m) (Table.pmt.packet m) := by
  have hlen := length_streamEntries_le m.toMpegtsMux
  have hcontent : m.pmtSection = 2 :: write2Bytes (0xb000 + ((write2Bytes 1 ++ [0xc1, 0, 0]
      ++ write2Bytes (0xe000 + pcrId) ++ write2Bytes 0xf000 ++ m.streamEntries).length + 4))
      ++ (write2Bytes 1 ++ [0xc1, 0, 0] ++ write2Bytes (0xe000 + pcrId) ++ write2Bytes 0xf000 ++ m.streamEntries) := by
    have hcount : (write2Bytes 1 ++ [0xc1, 0, 0] ++ write2Bytes (0xe000 + pcrId) ++ write2Bytes 0xf000
        ++ m.streamEntries).length = 9 + m.streamEntries.length := by
      simp only [List.length_append, length_write2Bytes, List.length_cons, List.length_nil]
    rw [hcount]
    unfold MpegtsMux.pmtSection
    simp only [List.append_assoc, List.cons_append, List.nil_append]
  apply (validTable_stuffing rfl hcontent (by rfl) _).mpr
  . rw [word_write4Bytes_reverse, mpegCrc32_toBitVec, swapBytes_swapBytes]
  . simp only [List.length_append, length_write2Bytes, List.length_cons, List.length_nil]
    omega

/--
What is left of the last checksum does not make up for the wrong range and the wrong order: the two bytes of it are added
too far up in the word to change the bit that is wrong.
-/
theorem not_validTable_pat (m : MpegtsMuxState) : ¬ValidTable (Table.pat.content m) (Table.pat.packet m) := by
  have hcontent : patSection = 0 :: write2Bytes (0xb000 + ((write2Bytes 1 ++ [0xc1, 0, 0]
      ++ (write2Bytes programNumber ++ write2Bytes (0xe000 + pmtPid))).length + 4))
      ++ (write2Bytes 1 ++ [0xc1, 0, 0] ++ (write2Bytes programNumber ++ write2Bytes (0xe000 + pmtPid))) := rfl
  have hrange : ((patSection ++ write4Bytes m.patCrc).drop 1).take 13
      = patSection.drop 1 ++ [byteAt m.patCrc 3, byteAt m.patCrc 2] := rfl
  have hsection : Crc.crc crcPoly 0xffffffff#32 patSection = 0x2e701905#32 := by decide +kernel
  have hlate : Crc.crc crcPoly 0xffffffff#32 (patSection.drop 1) = 0xef9e530d#32 := by decide +kernel
  -- from this state the right checksum would come out
  have hback : Crc.shiftBits crcPoly 16 0xcca9da59#32 = swapBytes 0x2e701905#32 := by decide +kernel
  unfold Table.content Table.packet MpegtsMux.generatePat
  rw [validTable_stuffing rfl hcontent rfl (by decide), word_write4Bytes]
  unfold MpegtsMux.patChecksum
  rw [mpegCrc32_toBitVec, hsection, hrange, Crc.crc_append, hlate, Crc.crc_eq_shiftBits _ (by simp)]
  intro h
  have hswap := congrArg swapBytes h
  rw [swapBytes_swapBytes, ← hback, ← BitVec.xor_eq_zero_iff] at hswap
  have hstate := (Crc.shiftBits_eq_zero_iff (by decide) 16 _).mp ((Crc.shiftBits_xor 16 _ _).trans hswap)
  have hbit := congrArg (fun s => s.getLsbD 2) hstate
  simp only [BitVec.getLsbD_xor] at hbit
  rw [Crc.getLsbD_word (by simp)] at hbit
  exact absurd hbit (by decide)

end Residue

theorem validTable_iff (m : MpegtsMuxState) (t : Table) : ValidTable (t.content m) (t.packet m) ↔ t = .pmt := by
  cases t with
  | pat =>
    apply iff_of_false (not_validTable_pat m)
    rintro ⟨⟩
  | pmt => exact iff_of_true (validTable_pmt m) rfl

/--
The first PAT of a new muxer.
-/
theorem not_validTable : ¬ValidTable (Table.pat.content {}) (Table.pat.packet {}) := not_validTable_pat {}

end MpegTs
