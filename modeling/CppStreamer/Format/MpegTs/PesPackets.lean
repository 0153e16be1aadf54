import CppStreamer.Format.MpegTs.Mux

/-!
This module contains the packets that `WritePes` makes of a payload, and what of the payload is in
each of them.
-/

open ByteStream

namespace MpegTs

/--
The packet starts with the given bytes and nothing has been written outside of it.
-/
structure TsPacket.Filled (p : TsPacket) (front : List UInt8) : Prop where
  length : p.bytes.length = tsPacketSize
  front : front <+: p.bytes
  writes : ∀ c ∈ p.writes, c.InBounds

namespace TsPacket.Filled

theorem mono {p : TsPacket} {front front' : List UInt8} (h : Filled p front) (hf : front' <+: front)
    : Filled p front' where
  length := h.length
  front := hf.trans h.front
  writes := h.writes

theorem put_replace {p : TsPacket} {left old right : List UInt8} (h : Filled p (left ++ (old ++ right)))
    {i : Nat} {bytes : List UInt8} (hi : i = left.length) (hlen : bytes.length = old.length)
    : Filled (p.put i bytes) (left ++ (bytes ++ right)) := by
  subst hi
  obtain ⟨rest, hrest⟩ := h.front
  have hsize := h.length
  rw [← hrest] at hsize
  simp only [List.length_append] at hsize
  have hbytes : (p.put left.length bytes).bytes = left ++ (bytes ++ right) ++ rest := by
    unfold TsPacket.put
    rw [← hrest]
    simp only [List.append_assoc]
    rw [List.take_left, hlen, ← List.append_assoc left old, ← List.length_append, List.drop_left]
  constructor
  . rw [hbytes]
    simp only [List.length_append]
    omega
  . rw [hbytes]
    apply List.prefix_append
  . intro c hc
    simp only [TsPacket.put, List.mem_append, List.mem_singleton] at hc
    cases hc with
    | inl hc => apply h.writes c hc
    | inr hc =>
      subst hc
      simp only [Memory.Copy.InBounds]
      omega

theorem put {p : TsPacket} {front : List UInt8} (h : Filled p front) {i : Nat} {bytes : List UInt8}
    (hi : i = front.length) (hlen : i + bytes.length ≤ tsPacketSize)
    : Filled (p.put i bytes) (front ++ bytes) := by
  obtain ⟨rest, hrest⟩ := h.front
  have hsize := h.length
  rw [← hrest, List.length_append] at hsize
  have hfront : Filled p (front ++ (rest.take bytes.length ++ [])) := by
    constructor
    . exact h.length
    . rw [List.append_nil, ← hrest]
      exact (List.prefix_append_right_inj front).mpr (List.take_prefix _ _)
    . exact h.writes
  have hlen' : bytes.length = (rest.take bytes.length).length := by
    rw [List.length_take]
    omega
  have hput := hfront.put_replace hi hlen'
  rwa [List.append_nil] at hput

theorem eq {p : TsPacket} {front : List UInt8} (h : Filled p front) (hlen : front.length = tsPacketSize)
    : p.bytes = front := by
  apply (List.IsPrefix.eq_of_length h.front _).symm
  rw [h.length, hlen]

end TsPacket.Filled

section Stages

variable (u : Unwritten) (e : Pes) (first : Bool) (cc : UInt8)

/--
The four bytes of the header with another control byte.
-/
def headerWith (control : UInt8) : List UInt8 :=
  [0x47, UInt8.ofNat (e.pid / 256) ||| (if first then 0x40 else 0), UInt8.ofNat e.pid, control]

def plainControl : UInt8 := 0x10 ||| (cc &&& 0x0f)

def adaptationControl : UInt8 := 0x10 ||| (cc &&& 0x0f) ||| 0x20

def pcrBytes : List UInt8 := 7 :: 0x50 :: writePcr e.dts

@[simp]
theorem length_headerWith (control : UInt8) : (headerWith e first control).length = 4 := rfl

@[simp]
theorem length_pcrBytes : (pcrBytes e).length = 8 := rfl

@[simp]
theorem length_readData (data : List UInt8) (offset len : Nat)
    : (readData u data offset len).length = len := by
  simp [readData]

theorem filled_header
    : (TsPacket.put { bytes := (List.range tsPacketSize).map u.stack } 0 (tsHeader e first cc)).Filled
        (headerWith e first (plainControl cc)) := by
  have h : TsPacket.Filled { bytes := (List.range tsPacketSize).map u.stack } [] := by
    constructor
    . simp
    . apply List.nil_prefix
    . intro c hc
      cases hc
  exact h.put rfl (by simp [tsHeader, tsPacketSize])

theorem filled_control {p : TsPacket} {control : UInt8} {rest : List UInt8}
    (h : p.Filled (headerWith e first control ++ rest)) (control' : UInt8)
    : (p.put 3 [control']).Filled (headerWith e first control' ++ rest) := by
  have h' : p.Filled ((headerWith e first control).take 3 ++ ([control] ++ rest)) := h
  exact h'.put_replace rfl rfl

theorem filled_control_only {p : TsPacket} {control : UInt8} (h : p.Filled (headerWith e first control))
    (control' : UInt8)
    : (p.put 3 [control']).Filled (headerWith e first control') := by
  rw [← List.append_nil (headerWith e first _)] at h ⊢
  apply filled_control e first h

theorem filled_pcrField {p : TsPacket} (h : p.Filled (headerWith e first (plainControl cc)))
    : (pcrField e p cc).Filled (headerWith e first (adaptationControl cc) ++ pcrBytes e) := by
  have hcontrol := filled_control_only e first h (adaptationControl cc)
  have hflags : ((p.put 3 [adaptationControl cc]).put 4 [7, 0x50]).Filled
      (headerWith e first (adaptationControl cc) ++ [7, 0x50]) :=
    hcontrol.put rfl (by simp [tsPacketSize])
  have hpcr : (pcrField e p cc).Filled
      (headerWith e first (adaptationControl cc) ++ [7, 0x50] ++ writePcr e.dts) :=
    hflags.put rfl (by simp [writePcr, tsPacketSize])
  rwa [List.append_assoc] at hpcr

/--
The adaptation field that fills up `n` bytes.
-/
def adaptation (n : Nat) : List UInt8 :=
  if n = 0 then []
  else UInt8.ofNat (n + 255) :: if n = 1 then [] else 0 :: List.replicate (n - 2) 0xff

@[simp]
theorem length_adaptation (n : Nat) : (adaptation n).length = n := by
  unfold adaptation
  split
  . simp_all
  . split
    . simp_all
    . simp only [List.length_cons, List.length_replicate]
      omega

/--
All of the packet behind the length byte is written, whatever the length is.
-/
theorem filled_adaptationBufInit {p : TsPacket} {front : List UInt8} (h : p.Filled front)
    {i : Nat} (hi : i = front.length) (hlen : i ≤ 12) {n : Nat} (hn : n ≠ 1)
    : (adaptationBufInit p i n).Filled
        (front ++ UInt8.ofNat (n + 255) :: 0 :: List.replicate (tsPacketSize - i - 2) 0xff) := by
  unfold adaptationBufInit
  simp only [if_pos hn]
  have h1 : (p.put i [UInt8.ofNat (n + 255)]).Filled (front ++ [UInt8.ofNat (n + 255)]) :=
    h.put hi (by simp [tsPacketSize]; omega)
  have h2 : ((p.put i [UInt8.ofNat (n + 255)]).put (i + 1) [0]).Filled
      (front ++ [UInt8.ofNat (n + 255)] ++ [0]) :=
    h1.put (by simp [hi]) (by simp [tsPacketSize]; omega)
  have hfill : i + 2 + (List.replicate (tsPacketSize - i - 2) (0xff : UInt8)).length ≤ tsPacketSize := by
    simp [tsPacketSize]
    omega
  have h3 := h2.put (by simp [hi]) hfill
  simpa only [List.append_assoc, List.singleton_append, List.cons_append, List.nil_append] using h3

theorem filled_adaptation {p : TsPacket} {front : List UInt8} (h : p.Filled front)
    {i : Nat} (hi : i = front.length) (hlen : i ≤ 12) {n : Nat} (hn : i + n ≤ tsPacketSize)
    : (adaptationBufInit p i n).Filled (front ++ adaptation n) := by
  by_cases h1 : n = 1
  . subst h1
    unfold adaptationBufInit
    exact h.put hi (by simp [tsPacketSize]; omega)
  . apply (filled_adaptationBufInit h hi hlen h1).mono
    rw [List.prefix_append_right_inj]
    unfold adaptation
    split
    . apply List.nil_prefix
    . simp only [List.cons_prefix_cons, true_and]
      rw [List.prefix_replicate_iff]
      simp only [List.length_replicate, and_true]
      omega

/--
The header of the PES is in its first packet.
-/
def Pes.head : List UInt8 := if first then e.header else []

theorem putPayload_spec {p : TsPacket} {front : List UInt8} (h : p.Filled front) {i : Nat}
    (hi : i = front.length) (hhead : i + (e.head first).length < tsPacketSize) {n w : Nat}
    (hn : tsPacketSize - i ≤ n)
    : ∃ p' len, putPayload u e first p i (tsPacketSize - i) n w = (p', n - (tsPacketSize - i), w + len)
        ∧ len = tsPacketSize - i - (e.head first).length
        ∧ p'.Filled (front ++ (e.head first ++ readData u e.pkt.data w len)) := by
  unfold putPayload
  cases first with
  | false =>
    simp only [Pes.head, Bool.false_eq_true, if_false, List.length_nil, Nat.add_zero] at hhead ⊢
    simp only [false_and, if_false, if_pos hhead, Nat.min_self]
    refine ⟨_, _, rfl, rfl, ?_⟩
    apply h.put hi
    rw [length_readData]
    omega
  | true =>
    simp only [Pes.head, if_true] at hhead ⊢
    have hlt : i < tsPacketSize := by omega
    have hmin : min e.header.length (tsPacketSize - i) = e.header.length := by omega
    have hrest : min (tsPacketSize - i - e.header.length) (tsPacketSize - (i + e.header.length))
        = tsPacketSize - i - e.header.length := by omega
    simp only [hlt, and_self, if_true, hmin, if_pos hhead, hrest, List.take_length]
    have hput := h.put hi (Nat.le_of_lt hhead)
    have hlen : i + e.header.length
        + (readData u e.pkt.data w (tsPacketSize - i - e.header.length)).length ≤ tsPacketSize := by
      rw [length_readData]
      omega
    have hdata := hput.put (by rw [List.length_append, hi]) hlen
    refine ⟨_, _, Prod.ext rfl (Prod.ext ?_ rfl), rfl, ?_⟩
    . simp only
      omega
    . rwa [List.append_assoc] at hdata

end Stages

section Turns

inductive IsAdaptation : UInt8 → List UInt8 → Prop where
  | none (cc : UInt8) : IsAdaptation (plainControl cc) []
  | pcr (cc : UInt8) (e : Pes) : IsAdaptation (adaptationControl cc) (pcrBytes e)
  | fill (cc : UInt8) {n : Nat} (hpos : n ≠ 0) (hlen : n ≤ tsDefDataLen)
    : IsAdaptation (adaptationControl cc) (adaptation n)

/--
Behind its adaptation field a packet is filled by the given bytes.
-/
structure Carries (e : Pes) (first : Bool) (p : TsPacket) (content : List UInt8) : Prop where
  writes : ∀ c ∈ p.writes, c.InBounds
  length : p.bytes.length = tsPacketSize
  bytes : ∃ control field, IsAdaptation control field
    ∧ p.bytes = headerWith e first control ++ (field ++ content)

theorem Carries.of_filled {e : Pes} {first : Bool} {p : TsPacket} {control : UInt8}
    {field content : List UInt8} (h : p.Filled (headerWith e first control ++ (field ++ content)))
    (hfield : IsAdaptation control field)
    (hlen : 4 + (field.length + content.length) = tsPacketSize)
    : Carries e first p content where
  writes := h.writes
  length := h.length
  bytes := by
    refine ⟨control, field, hfield, h.eq ?_⟩
    simpa only [List.length_append, length_headerWith] using hlen

variable (u : Unwritten) (e : Pes) (first : Bool) (cc : UInt8)

/--
A turn that takes `len` bytes of the data and, if it is the first one, the header.
-/
def Takes (n w : Nat) : Prop :=
  ∃ p len, writeTsPacket u e first cc n w = (p, n - ((e.head first).length + len), w + len)
    ∧ 0 < len ∧ (e.head first).length + len ≤ n
    ∧ Carries e first p (e.head first ++ readData u e.pkt.data w len)

theorem putPayload_takes {p : TsPacket} {control : UInt8} {field : List UInt8}
    (h : p.Filled (headerWith e first control ++ field)) (hfield : IsAdaptation control field) {i : Nat}
    (hi : i = 4 + field.length) (hhead : i + (e.head first).length < tsPacketSize) {n w : Nat}
    (hn : tsPacketSize - i ≤ n)
    (hturn : writeTsPacket u e first cc n w = putPayload u e first p i (tsPacketSize - i) n w)
    : Takes u e first cc n w := by
  obtain ⟨p', len, hput, hlen, hfilled⟩ := putPayload_spec u e first h
    (by rw [List.length_append, length_headerWith, hi]) hhead (w := w) hn
  refine ⟨p', len, ?_, by omega, by omega, ?_⟩
  . rw [hturn, hput, show (e.head first).length + len = tsPacketSize - i by omega]
  . rw [List.append_assoc] at hfilled
    apply Carries.of_filled hfilled hfield
    rw [List.length_append, length_readData]
    omega

theorem writeTsPacket_takes (hpcr : ¬(first = true ∧ e.isVideo = true ∧ e.pkt.isKeyFrame = true))
    (hheader : e.header.length < tsDefDataLen) {n : Nat} (w : Nat) (hn : (e.head first).length < n)
    : Takes u e first cc n w := by
  have hhead : (e.head first).length < tsDefDataLen := by
    unfold Pes.head
    split
    . assumption
    . decide
  have hstart := filled_header u e first cc
  by_cases hfull : tsDefDataLen ≤ n
  . rw [← List.append_nil (headerWith e first _)] at hstart
    refine putPayload_takes u e first cc hstart (IsAdaptation.none cc) rfl ?_ hfull ?_
    . simp only [tsDefDataLen, tsPacketSize, List.length_nil] at *
      omega
    . unfold writeTsPacket
      simp only [if_neg hpcr, if_pos hfull, Nat.sub_self, ite_self]
      rfl
  . have hfill : n ≤ tsDefDataLen := by omega
    have hn' : n < 184 := by
      simp only [tsDefDataLen] at hfull
      omega
    have hremain : (tsDefDataLen + 256 - n) % 256 = 184 - n := by
      simp only [tsDefDataLen]
      omega
    have hcontrol := filled_control_only e first hstart (adaptationControl cc)
    have hfilled := filled_adaptation hcontrol (i := 4) rfl (by decide) (n := 184 - n)
      (by simp only [tsPacketSize]; omega)
    have hsize : tsPacketSize - (4 + (184 - n)) = n := by
      simp only [tsPacketSize]
      omega
    apply putPayload_takes u e first cc hfilled
      (IsAdaptation.fill cc (by omega) (by simp only [tsDefDataLen]; omega)) (i := 4 + (184 - n))
    . rw [length_adaptation]
    . omega
    . omega
    . unfold writeTsPacket
      simp only [if_neg hpcr, if_neg hfull, Nat.sub_self, ite_self, Nat.sub_zero, hremain]
      rw [hsize]
      rfl

section Pcr

variable {e}

theorem writeTsPacket_pcr_full (hpcr : e.isVideo = true ∧ e.pkt.isKeyFrame = true) {n : Nat} (w : Nat)
    (hn : tsDefDataLen ≤ n)
    : ∃ p : TsPacket, p.Filled (headerWith e true (adaptationControl cc) ++ pcrBytes e)
        ∧ writeTsPacket u e true cc n w = putPayload u e true p 12 (tsPacketSize - 12) n w := by
  refine ⟨_, filled_pcrField e true cc (filled_header u e true cc), ?_⟩
  unfold writeTsPacket
  simp only [hpcr, and_self, if_true, if_pos hn]
  rfl

theorem writeTsPacket_pcr_rest (hpcr : e.isVideo = true ∧ e.pkt.isKeyFrame = true) {n : Nat} (w : Nat)
    (hn : n < tsDefDataLen) {remainBytes : Nat} (hremain : (tsDefDataLen + 256 - n - 8) % 256 = remainBytes)
    : ∃ p : TsPacket, p.Filled (headerWith e true (adaptationControl cc) ++ pcrBytes e)
        ∧ writeTsPacket u e true cc n w
          = putPayload u e true (adaptationBufInit p 12 remainBytes) (12 + remainBytes) n n w := by
  have hfield := filled_pcrField e true cc (filled_header u e true cc)
  refine ⟨_, filled_control e true hfield (adaptationControl cc), ?_⟩
  unfold writeTsPacket
  simp only [hpcr, and_self, if_true, if_neg (Nat.not_le.mpr hn), Nat.reduceSub, hremain]
  rfl

theorem writeTsPacket_pcr_takes (hpcr : e.isVideo = true ∧ e.pkt.isKeyFrame = true)
    (hheader : e.header.length < 176) {n : Nat} (w : Nat) (hn : tsDefDataLen ≤ n ∨ n = 176)
    : Takes u e true cc n w := by
  have hhead : 12 + (e.head true).length < tsPacketSize := by
    simp only [Pes.head, if_true, tsPacketSize]
    omega
  cases hn with
  | inl hfull =>
    obtain ⟨p, hp, hturn⟩ := writeTsPacket_pcr_full u cc hpcr w hfull
    refine putPayload_takes u e true cc hp (IsAdaptation.pcr cc e) rfl hhead ?_ hturn
    simp only [tsDefDataLen, tsPacketSize] at *
    omega
  | inr heq =>
    subst heq
    obtain ⟨p, hp, hturn⟩ := writeTsPacket_pcr_rest u cc hpcr (n := 176) w (by decide) rfl
    -- the empty adaptation field is overwritten by the header and the data
    have hfilled := filled_adaptation hp (i := 12) rfl (by decide) (n := 0) (by decide)
    simp only [adaptation, if_true, List.append_nil] at hfilled
    exact putPayload_takes u e true cc hfilled (IsAdaptation.pcr cc e) rfl hhead (Nat.le_refl 176) hturn

/--
The header is behind a second adaptation field that no reader expects.
-/
theorem writeTsPacket_pcr_behind (hpcr : e.isVideo = true ∧ e.pkt.isKeyFrame = true) {n : Nat} (w : Nat)
    (hlen : e.header.length < n) (hn : n < 176)
    : ∃ p len, writeTsPacket u e true cc n w = (p, 0, w + len)
        ∧ Carries e true p (adaptation (176 - n) ++ (e.header ++ readData u e.pkt.data w len)) := by
  have hremain : (tsDefDataLen + 256 - n - 8) % 256 = 176 - n := by
    simp only [tsDefDataLen]
    omega
  have hsize : tsPacketSize - (12 + (176 - n)) = n := by
    simp only [tsPacketSize]
    omega
  obtain ⟨p, hp, hturn⟩ := writeTsPacket_pcr_rest u cc hpcr w (by simp only [tsDefDataLen]; omega) hremain
  have hfilled := filled_adaptation hp (i := 12) rfl (by decide) (n := 176 - n)
    (by simp only [tsPacketSize]; omega)
  have hhead : 12 + (176 - n) + (e.head true).length < tsPacketSize := by
    simp only [Pes.head, if_true, tsPacketSize]
    omega
  obtain ⟨p', len, hput, hlen', hfilled'⟩ := putPayload_spec u e true hfilled
    (by simp; omega) hhead (n := n) (w := w) (by omega)
  rw [hsize] at hput
  refine ⟨p', len, ?_, ?_⟩
  . rw [hturn, hput, Nat.sub_self]
  . simp only [List.append_assoc] at hfilled'
    apply Carries.of_filled hfilled' (IsAdaptation.pcr cc e)
    simp only [List.length_append, length_adaptation, length_readData, length_pcrBytes]
    omega

/--
The second adaptation field fills the packet, and nothing is taken.
-/
theorem writeTsPacket_pcr_nothing (hpcr : e.isVideo = true ∧ e.pkt.isKeyFrame = true) {n : Nat} (w : Nat)
    (hn : 176 < n) (hlt : n < tsDefDataLen)
    : ∃ p, writeTsPacket u e true cc n w = (p, n, w)
        ∧ Carries e true p
            (UInt8.ofNat (432 - n + 255) :: 0 :: List.replicate (tsPacketSize - 12 - 2) 0xff) := by
  have hlt' : n < 184 := hlt
  have hremain : (tsDefDataLen + 256 - n - 8) % 256 = 432 - n := by
    simp only [tsDefDataLen]
    omega
  obtain ⟨p, hp, hturn⟩ := writeTsPacket_pcr_rest u cc hpcr w hlt hremain
  have hfilled := filled_adaptationBufInit hp (i := 12) rfl (by decide) (n := 432 - n) (by omega)
  refine ⟨adaptationBufInit p 12 (432 - n), ?_, ?_⟩
  . rw [hturn]
    unfold putPayload
    have hbehind : ¬12 + (432 - n) < tsPacketSize := by
      simp only [tsPacketSize]
      omega
    simp only [hbehind, and_false, if_false]
  . rw [List.append_assoc] at hfilled
    apply Carries.of_filled hfilled (IsAdaptation.pcr cc e)
    simp only [List.length_cons, List.length_replicate, length_pcrBytes, tsPacketSize]

end Pcr

end Turns

section Loop

variable (u : Unwritten) (e : Pes)

theorem readData_append (data : List UInt8) (w len len' : Nat)
    : readData u data w len ++ readData u data (w + len) len' = readData u data w (len + len') := by
  unfold readData
  rw [List.range_add, List.map_append, List.map_map]
  simp only [Function.comp_def, Nat.add_assoc]

theorem readData_all (data : List UInt8) : readData u data 0 data.length = data := by
  apply List.ext_getElem
  . simp
  . intro i h1 h2
    simp [readData, h2]

theorem writePesLoop_rest (hheader : e.header.length < tsDefDataLen)
    : ∀ (fuel : Nat) (cc : UInt8) (n w : Nat), n < fuel →
        ∃ ps cc' contents, writePesLoop u e fuel false cc n w = some (ps, cc')
          ∧ List.Forall₂ (Carries e false) ps contents
          ∧ contents.flatten = readData u e.pkt.data w n := by
  intro fuel
  induction fuel with
  | zero =>
    intro cc n w h
    omega
  | succ fuel ih =>
    intro cc n w h
    unfold writePesLoop
    by_cases hn : n = 0
    . subst hn
      exact ⟨[], cc, [], rfl, List.Forall₂.nil, rfl⟩
    . rw [if_neg hn]
      obtain ⟨p, len, hturn, hpos, hle, hcarries⟩ := writeTsPacket_takes u e false (nextCc cc) (by simp)
        hheader w (n := n) (by simp [Pes.head]; omega)
      simp only [Pes.head, Bool.false_eq_true, if_false, List.length_nil, Nat.zero_add,
        List.nil_append] at hturn hle hcarries
      obtain ⟨ps, cc', contents, hloop, hps, hcontents⟩ := ih (nextCc cc) (n - len) (w + len) (by omega)
      refine ⟨p :: ps, cc', readData u e.pkt.data w len :: contents, ?_, hps.cons hcarries, ?_⟩
      . simp only [hturn, hloop, Option.map_some]
      . rw [List.flatten_cons, hcontents, readData_append]
        congr 1
        omega

end Loop

section Payload

/--
The bytes of a payload with the header in front of it.
-/
def pesSize (pkt : MediaPacket) : Nat := pkt.data.length + (pes pkt).header.length

/--
The first packet of a key frame holds a time, and its rest is neither filled by the payload nor can the
payload be stuffed.
-/
def TooShort (pkt : MediaPacket) : Prop :=
  pkt.avType = .video ∧ pkt.isKeyFrame = true
    ∧ pkt.data.length + (if pkt.dts = pkt.pts then 14 else 19) < 184
    ∧ pkt.data.length + (if pkt.dts = pkt.pts then 14 else 19) ≠ 176

instance (pkt : MediaPacket) : Decidable (TooShort pkt) := by
  unfold TooShort
  infer_instance

theorem length_writeTs (flag : Nat) (ts : Int) : (writeTs flag ts).length = 5 := rfl

theorem length_writePesHeader (dataSize : Nat) (isVideo : Bool) (dts pts : Int)
    : (writePesHeader dataSize isVideo dts pts).length = if isVideo ∧ dts ≠ pts then 19 else 14 := by
  unfold writePesHeader
  by_cases hboth : isVideo ∧ dts ≠ pts
  . simp [hboth, length_writeTs]
  . simp only [if_neg hboth, List.append_nil]
    rfl

theorem length_header_eq (pkt : MediaPacket)
    : (pes pkt).header.length = if pkt.avType = .video ∧ pkt.dts ≠ pkt.pts then 19 else 14 := by
  have htimes : pkt.dts * 90 ≠ pkt.pts * 90 ↔ pkt.dts ≠ pkt.pts := by omega
  simp only [pes, length_writePesHeader, decide_eq_true_eq, htimes]

theorem length_header (pkt : MediaPacket)
    : (pes pkt).header.length = 14 ∨ (pes pkt).header.length = 19 := by
  rw [length_header_eq]
  split
  . exact Or.inr rfl
  . exact Or.inl rfl

theorem tooShort_iff (pkt : MediaPacket)
    : TooShort pkt ↔ pkt.avType = .video ∧ pkt.isKeyFrame = true ∧ pesSize pkt < tsDefDataLen
        ∧ pesSize pkt ≠ 176 := by
  unfold TooShort pesSize tsDefDataLen
  rw [length_header_eq]
  by_cases hvideo : pkt.avType = .video
  . by_cases htimes : pkt.dts = pkt.pts
    . simp [hvideo, htimes]
    . simp [hvideo, htimes]
  . simp [hvideo]

variable (u : Unwritten)

/--
What a reader gets of a payload.
-/
def arrived (pkt : MediaPacket) : List UInt8 :=
  if TooShort pkt then
    if pesSize pkt < 176 then [] else readData u pkt.data 0 (pesSize pkt)
  else pkt.data

/--
The bytes of a first packet, and of those behind it: either the header is where a reader looks for it,
or something else is there.
-/
def Arrives (pkt : MediaPacket) (content : List UInt8) (contents : List (List UInt8)) : Prop :=
  (∃ data, content = (pes pkt).header ++ data ∧ data ++ contents.flatten = arrived u pkt)
    ∨ (6 ≤ content.length ∧ read3Bytes content ≠ 1 ∧ contents.flatten = arrived u pkt)

theorem read3Bytes_ne_one {x y : UInt8} (h : x.toNat ≠ 0) (rest : List UInt8)
    : read3Bytes (x :: y :: rest) ≠ 1 := by
  cases rest with
  | nil => simp [read3Bytes]
  | cons z rest =>
    simp only [read3Bytes]
    omega

theorem read3Bytes_adaptation {n : Nat} (hpos : n ≠ 0) (hn : n ≤ 255) {header : List UInt8}
    (hheader : header.take 3 = [0, 0, 1])
    : read3Bytes (adaptation n ++ header) ≠ 1 := by
  match header, hheader with
  | a :: b :: c :: rest, hheader =>
    simp only [List.take_succ_cons, List.take_zero, List.cons.injEq, and_true] at hheader
    obtain ⟨rfl, rfl, rfl⟩ := hheader
    unfold adaptation
    rw [if_neg hpos]
    by_cases h1 : n = 1
    . subst h1
      simp [read3Bytes]
    . have hbyte : (UInt8.ofNat (n + 255)).toNat = n - 1 := by
        rw [UInt8.toNat_ofNat']
        omega
      rw [if_neg h1]
      apply read3Bytes_ne_one
      omega

theorem writePesLoop_first (e : Pes) {cc : UInt8} {n n' w' : Nat} {p : TsPacket}
    (hheader : e.header.length < tsDefDataLen) (hpos : n ≠ 0) (hle : n' ≤ n)
    (hturn : writeTsPacket u e true (nextCc cc) n 0 = (p, n', w'))
    : ∃ ps cc' contents, writePesLoop u e (n + 2) true cc n 0 = some (p :: ps, cc')
        ∧ List.Forall₂ (Carries e false) ps contents
        ∧ contents.flatten = readData u e.pkt.data w' n' := by
  obtain ⟨ps, cc', contents, hloop, hps, hcontents⟩ :=
    writePesLoop_rest u e hheader (n + 1) (nextCc cc) n' w' (by omega)
  refine ⟨ps, cc', contents, ?_, hps, hcontents⟩
  rw [writePesLoop, if_neg hpos]
  simp only [hturn, hloop, Option.map_some]

theorem header_take (pkt : MediaPacket) : (pes pkt).header.take 3 = [0, 0, 1] := rfl

theorem takes_of_not_tooShort {pkt : MediaPacket} (hdata : pkt.data ≠ []) (h : ¬TooShort pkt) (cc : UInt8)
    : Takes u (pes pkt) true cc (pesSize pkt) 0 := by
  have hheader := length_header pkt
  have hpos : 0 < pkt.data.length := List.length_pos_iff.mpr hdata
  by_cases hpcr : pkt.avType = .video ∧ pkt.isKeyFrame = true
  . apply writeTsPacket_pcr_takes
    . simpa [pes] using hpcr
    . omega
    . by_contra hn
      rw [not_or, Nat.not_le] at hn
      exact h ((tooShort_iff pkt).mpr ⟨hpcr.left, hpcr.right, hn⟩)
  . apply writeTsPacket_takes
    . simpa [pes] using hpcr
    . simp only [tsDefDataLen]
      omega
    . simp only [Pes.head, if_true, pesSize]
      omega

theorem writePesLoop_arrives (pkt : MediaPacket) (hdata : pkt.data ≠ []) (cc : UInt8)
    : ∃ p ps cc' content contents,
        writePesLoop u (pes pkt) (pesSize pkt + 2) true cc (pesSize pkt) 0 = some (p :: ps, cc')
        ∧ Carries (pes pkt) true p content ∧ List.Forall₂ (Carries (pes pkt) false) ps contents
        ∧ Arrives u pkt content contents := by
  have hheader := length_header pkt
  have hpos : 0 < pkt.data.length := List.length_pos_iff.mpr hdata
  have hsize : pesSize pkt = pkt.data.length + (pes pkt).header.length := rfl
  have hfits : (pes pkt).header.length < tsDefDataLen := by
    simp only [tsDefDataLen]
    omega
  by_cases hshort : TooShort pkt
  . have hsizes := (tooShort_iff pkt).mp hshort
    have hpcr : (pes pkt).isVideo = true ∧ (pes pkt).pkt.isKeyFrame = true := by
      simpa [pes] using And.intro hshort.left hshort.right.left
    by_cases hn : pesSize pkt < 176
    . obtain ⟨p, len, hturn, hcarries⟩ :=
        writeTsPacket_pcr_behind u (nextCc cc) hpcr 0 (n := pesSize pkt) (by omega) hn
      obtain ⟨ps, cc', contents, hloop, hps, hcontents⟩ :=
        writePesLoop_first u (pes pkt) hfits (by omega) (Nat.zero_le _) hturn
      refine ⟨p, ps, cc', _, contents, hloop, hcarries, hps, Or.inr ⟨?_, ?_, ?_⟩⟩
      . simp only [List.length_append]
        omega
      . exact read3Bytes_adaptation (by omega) (by omega) (header_take pkt)
      . rw [hcontents, arrived, if_pos hshort, if_pos hn]
        rfl
    . have hn' : 176 < pesSize pkt := by
        have := hsizes.right.right.right
        omega
      obtain ⟨p, hturn, hcarries⟩ :=
        writeTsPacket_pcr_nothing u (nextCc cc) hpcr 0 hn' hsizes.right.right.left
      obtain ⟨ps, cc', contents, hloop, hps, hcontents⟩ :=
        writePesLoop_first u (pes pkt) hfits (by omega) (Nat.le_refl _) hturn
      refine ⟨p, ps, cc', _, contents, hloop, hcarries, hps, Or.inr ⟨?_, ?_, ?_⟩⟩
      . simp only [List.length_cons, List.length_replicate, tsPacketSize, Nat.reduceLeDiff, Nat.reduceSub,
          Nat.reduceAdd]
      . have hlt : pesSize pkt < 184 := hsizes.right.right.left
        have hbyte : (UInt8.ofNat (432 - pesSize pkt + 255)).toNat = 431 - pesSize pkt := by
          rw [UInt8.toNat_ofNat']
          omega
        apply read3Bytes_ne_one
        omega
      . rw [hcontents, arrived, if_pos hshort, if_neg hn]
        rfl
  . obtain ⟨p, len, hturn, _, hle, hcarries⟩ := takes_of_not_tooShort u hdata hshort (nextCc cc)
    simp only [Pes.head, if_true] at hturn hle hcarries
    obtain ⟨ps, cc', contents, hloop, hps, hcontents⟩ :=
      writePesLoop_first u (pes pkt) hfits (by omega) (Nat.sub_le _ _) hturn
    refine ⟨p, ps, cc', _, contents, hloop, hcarries, hps, Or.inl ⟨_, rfl, ?_⟩⟩
    rw [hcontents, arrived, if_neg hshort, readData_append,
      show len + (pesSize pkt - ((pes pkt).header.length + len)) = pkt.data.length by omega]
    apply readData_all

theorem writePes_arrives (m : MpegtsMux) (pkt : MediaPacket) (hdata : pkt.data ≠ [])
    : ∃ p ps m' content contents, m.writePes u pkt = some (p :: ps, m')
        ∧ m'.hasVideo = m.hasVideo ∧ m'.hasAudio = m.hasAudio
        ∧ Carries (pes pkt) true p content ∧ List.Forall₂ (Carries (pes pkt) false) ps contents
        ∧ Arrives u pkt content contents := by
  obtain ⟨p, ps, cc', content, contents, hloop, hp, hps, harrives⟩ := writePesLoop_arrives u pkt hdata
    (if (pes pkt).isVideo then m.videoCc else m.audioCc)
  refine ⟨p, ps, if (pes pkt).isVideo then { m with videoCc := cc' } else { m with audioCc := cc' },
    content, contents, ?_, ?_, ?_, hp, hps, harrives⟩
  . unfold MpegtsMux.writePes
    simp only [pesSize] at hloop
    simp only [hloop, Option.map_some]
  . split
    . rfl
    . rfl
  . split
    . rfl
    . rfl

end Payload

end MpegTs
