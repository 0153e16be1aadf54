import CppStreamer.Format.MpegTs.InputPacket

/-!
This module contains packets that several components hold a pointer to.
-/

/--
A packet with the bytes that its buffer has in front of the data.
-/
structure SharedPacket extends MpegTs.AvPacket where
  room : List UInt8 := List.replicate 200 0
  deriving DecidableEq

/--
The packets by their pointers. A new one is behind those that there are.
-/
abbrev Packets := List SharedPacket

namespace SharedPacket

/--
`ConsumeData` with a negative length, `none` if it returns a null pointer.
-/
def consumeBack (p : SharedPacket) (len : Nat) : Option SharedPacket :=
  if p.room.length < len then none
  else some { p with
    room := p.room.take (p.room.length - len)
    data := p.room.drop (p.room.length - len) ++ p.data }

/--
What the memory holds from the data on.
-/
def memory (p : SharedPacket) (behind : Nat → UInt8) (i : Nat) : UInt8 := p.data.getD i (behind i)

/--
A new packet with the properties of another one.
-/
def copyProperties (p : SharedPacket) : SharedPacket where
  avType := p.avType
  codecType := p.codecType
  fmtType := p.fmtType
  dts := p.dts
  pts := p.pts
  isKeyFrame := p.isKeyFrame
  isSeqHdr := p.isSeqHdr

/--
The buffer, the format and the times are those of the other packet.
-/
structure Same (p q : SharedPacket) : Prop where
  data : p.data = q.data
  fmtType : p.fmtType = q.fmtType
  dts : p.dts = q.dts
  pts : p.pts = q.pts

theorem consumeBack_data {p p' : SharedPacket} {len : Nat} (h : p.consumeBack len = some p')
    : p'.data.drop len = p.data := by
  unfold consumeBack at h
  split at h
  . cases h
  . cases h
    apply List.drop_left'
    rw [List.length_drop]
    omega

theorem consumeBack_isNone {p : SharedPacket} {len : Nat} : p.consumeBack len = none ↔ p.room.length < len := by
  unfold consumeBack
  split
  . next h => simp [h]
  . next h => simp [h]

theorem Same.refl (p : SharedPacket) : p.Same p := ⟨rfl, rfl, rfl, rfl⟩

theorem Same.trans {p q r : SharedPacket} (h : p.Same q) (h' : q.Same r) : p.Same r :=
  ⟨h.data.trans h'.data, h.fmtType.trans h'.fmtType, h.dts.trans h'.dts, h.pts.trans h'.pts⟩

end SharedPacket

namespace Packets

/--
The packets that there were are as they were.
-/
def Kept (pkts pkts' : Packets) : Prop :=
  ∀ (ptr : Nat) (p : SharedPacket), pkts[ptr]? = some p → ∃ p' : SharedPacket, pkts'[ptr]? = some p' ∧ p'.Same p

theorem getElem?_of_isPrefix {pkts pkts' : Packets} (h : pkts <+: pkts') {ptr : Nat} {p : SharedPacket}
    (hp : pkts[ptr]? = some p)
    : pkts'[ptr]? = some p := by
  obtain ⟨rest, rfl⟩ := h
  rw [List.getElem?_append_left (List.getElem?_eq_some_iff.mp hp).1]
  exact hp

theorem kept_of_isPrefix {pkts pkts' : Packets} (h : pkts <+: pkts') : pkts.Kept pkts' := by
  intro ptr p hp
  exact ⟨p, getElem?_of_isPrefix h hp, .refl p⟩

theorem Kept.refl (pkts : Packets) : pkts.Kept pkts := kept_of_isPrefix (List.prefix_refl pkts)

theorem Kept.trans {pkts pkts' pkts'' : Packets} (h : pkts.Kept pkts') (h' : pkts'.Kept pkts'')
    : pkts.Kept pkts'' := by
  intro ptr p hp
  obtain ⟨p', hp', hsame⟩ := h ptr p hp
  obtain ⟨p'', hp'', hsame'⟩ := h' ptr p' hp'
  exact ⟨p'', hp'', hsame'.trans hsame⟩

/--
Writing to a packet that was not there before leaves alone those that were.
-/
theorem isPrefix_modify {pkts pkts' : Packets} (h : pkts <+: pkts') {ptr : Nat} (hptr : pkts.length ≤ ptr)
    (f : SharedPacket → SharedPacket)
    : pkts <+: pkts'.modify ptr f := by
  rw [List.prefix_iff_getElem?] at h ⊢
  intro i hi
  rw [List.getElem?_modify_ne f pkts' (by omega)]
  exact h i hi

theorem kept_modify_append_iff {pkts pkts' : Packets} (hpkts : pkts <+: pkts') {ptr : Nat} {p : SharedPacket}
    (h : pkts[ptr]? = some p) (f : SharedPacket → SharedPacket) (rest : Packets)
    : pkts.Kept (pkts'.modify ptr f ++ rest) ↔ (f p).Same p := by
  have hget {i : Nat} {q : SharedPacket} (hq : pkts[i]? = some q)
      : (pkts'.modify ptr f ++ rest)[i]? = some (if ptr = i then f q else q) := by
    have hq' := getElem?_of_isPrefix hpkts hq
    rw [List.getElem?_append_left, List.getElem?_modify, hq']
    . rfl
    . rw [List.length_modify]
      exact (List.getElem?_eq_some_iff.mp hq').1
  constructor
  . intro hkept
    obtain ⟨p', hp', hsame⟩ := hkept ptr p h
    rw [hget h, if_pos rfl] at hp'
    cases hp'
    exact hsame
  . intro hsame i q hq
    refine ⟨_, hget hq, ?_⟩
    by_cases hi : ptr = i
    . subst hi
      cases h.symm.trans hq
      rw [if_pos rfl]
      exact hsame
    . rw [if_neg hi]
      exact .refl q

theorem kept_modify_iff {pkts : Packets} {ptr : Nat} {p : SharedPacket} (h : pkts[ptr]? = some p)
    (f : SharedPacket → SharedPacket)
    : pkts.Kept (pkts.modify ptr f) ↔ (f p).Same p := by
  have hiff := kept_modify_append_iff (List.prefix_refl pkts) h f []
  rwa [List.append_nil] at hiff

end Packets
