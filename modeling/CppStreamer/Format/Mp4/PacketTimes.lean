import CppStreamer.Format.Mp4.SampleTimes
import CppStreamer.Format.Mp4.Sending
import Mathlib.Algebra.Order.Field.Rat
import Mathlib.Tactic.Linarith
import Mathlib.Tactic.NormNum

/-!
This module contains movies whose packets are sent in the order of their times and in step with the tables of their
tracks.
-/

namespace Mp4

/--
The decode time of a sample in milliseconds.
-/
def milliseconds (trakinfo : TrakInfo) (n : Nat) : ℚ := 1000 * decodeTime trakinfo n / trakinfo.timescale.toNat

/--
The decode time of a sample in microseconds, as far as it is kept.
-/
def microseconds (trakinfo : TrakInfo) (n : Nat) : Nat := decodeTime trakinfo n * 1000000 / trakinfo.timescale.toNat

def changeOf (traksInfo : List TrakInfo) (sampleItems : List (Int × MovItem)) : Change :=
  Change.search (durationOf soun traksInfo) (durationOf vide traksInfo) {} (sampleItems.map Prod.snd)

/--
The time that the packets of an item have.
-/
def Change.sentTime (change : Change) (item : MovItem) : Int := (change.adjust item).packetTime (change.adjust item).dts

/--
The packets are in the order of their times, and the times of two samples differ as their decode times do, up to what
both conversions leave off, a millisecond and a microsecond.
-/
structure SentInStep (traksInfo : List TrakInfo) (io : IoReader) (sampleItems : List (Int × MovItem)) : Prop where
  ordered : ((handleMovItems io (adjustAllDts traksInfo sampleItems)).map (·.dts)).Pairwise (· ≤ ·)
  sample : ∀ packet ∈ handleMovItems io (adjustAllDts traksInfo sampleItems), ∃ trakinfo ∈ traksInfo, ∃ n item,
    1 ≤ n ∧ sampleItem trakinfo n = some item ∧ packet.dts = (changeOf traksInfo sampleItems).sentTime item
  difference : ∀ trakinfo ∈ traksInfo, ∀ trakinfo' ∈ traksInfo, ∀ n n' item item', 1 ≤ n → 1 ≤ n' →
    sampleItem trakinfo n = some item → sampleItem trakinfo' n' = some item' →
    |(((changeOf traksInfo sampleItems).sentTime item - (changeOf traksInfo sampleItems).sentTime item' : Int) : ℚ)
      - (milliseconds trakinfo n - milliseconds trakinfo' n')| < 1001 / 1000

/--
Every sample keeps the step of its table, and its time fits into 64 bits when it is doubled. There is no video, or there
is no time in the audio.
-/
structure KeepsTimes (traksInfo : List TrakInfo) : Prop where
  step : ∀ trakinfo ∈ traksInfo, ∀ n, 1 ≤ n → (sampleItem trakinfo n).isSome → 0 < trakinfo.timescale
    ∧ n ≤ trakinfo.deltas.length ∧ trakinfo.deltas.length < 2 ^ 32 ∧ KeepsStep trakinfo n
    ∧ microseconds trakinfo n * 2000 < 2 ^ 63
  kinds : (∀ trakinfo ∈ traksInfo, trakinfo.avType = some .video → ∀ n, 1 ≤ n → sampleItem trakinfo n = none)
    ∨ ∀ trakinfo ∈ traksInfo, trakinfo.avType = some .audio → ∀ n, 1 ≤ n → (sampleItem trakinfo n).isSome →
      microseconds trakinfo n = 0

section Searching

variable {change : Change} {items : List MovItem} {aDuration vDuration : UInt32}

/--
No change between audio and video will be found.
-/
def Quiet (change : Change) (items : List MovItem) : Prop :=
  ((∀ item ∈ items, item.avType ≠ .video) ∧ change.vDts ≤ 0)
    ∨ ((∀ item ∈ items, item.avType = .audio → item.dts = 0) ∧ change.aDts ≤ 0
      ∧ (0 < change.vDts → ∀ item ∈ items, item.avType ≠ .audio))

theorem search_quiet (hsorted : items.Pairwise fun a b => a.dts ≤ b.dts) (h : Quiet change items)
    : (Change.search aDuration vDuration change items).updateVideo = change.updateVideo
      ∧ (((Change.search aDuration vDuration change items).aDts = change.aDts
          ∧ ∀ item ∈ items, item.avType ≠ .audio)
        ∨ ∃ item ∈ items, item.avType = .audio
          ∧ (Change.search aDuration vDuration change items).aDts = item.dts) := by
  induction items generalizing change with
  | nil => exact ⟨rfl, Or.inl ⟨rfl, List.forall_mem_nil _⟩⟩
  | cons item items ih =>
    obtain ⟨hitem, hsorted⟩ := List.pairwise_cons.mp hsorted
    unfold Quiet at h
    rw [List.forall_mem_cons, List.forall_mem_cons, List.forall_mem_cons] at h
    rw [Change.search]
    by_cases haudio : item.avType = .audio
    . have hstay : ¬(0 < change.vDts ∧ change.aDts ≤ 0) := by
        rintro ⟨hv, ha⟩
        rcases h with ⟨-, hvDts⟩ | ⟨-, -, hnone⟩
        . omega
        . exact (hnone hv).left haudio
      have hquiet : Quiet { change with aDts := item.dts } items := by
        rcases h with ⟨hnovideo, hvDts⟩ | ⟨hzero, -, hnone⟩
        . exact Or.inl ⟨hnovideo.right, hvDts⟩
        . exact Or.inr ⟨hzero.right, (hzero.left haudio).le, fun hv => (hnone hv).right⟩
      obtain ⟨hupdate, haDts⟩ := ih hsorted hquiet
      rw [if_pos haudio, if_neg hstay]
      refine ⟨hupdate, Or.inr ?_⟩
      rcases haDts with ⟨heq, -⟩ | ⟨other, hother, havType, heq⟩
      . exact ⟨item, List.mem_cons_self, haudio, heq⟩
      . exact ⟨other, List.mem_cons_of_mem _ hother, havType, heq⟩
    . rw [if_neg haudio]
      have hrest : ∀ {other : Change}, Quiet other items → other.updateVideo = change.updateVideo →
          other.aDts = change.aDts →
          (Change.search aDuration vDuration other items).updateVideo = change.updateVideo
            ∧ (((Change.search aDuration vDuration other items).aDts = change.aDts
                ∧ ∀ other ∈ item :: items, other.avType ≠ .audio)
              ∨ ∃ audio ∈ item :: items, audio.avType = .audio
                ∧ (Change.search aDuration vDuration other items).aDts = audio.dts) := by
        intro other hquiet hupdateEq haDtsEq
        obtain ⟨hupdate, haDts⟩ := ih hsorted hquiet
        refine ⟨hupdate.trans hupdateEq, ?_⟩
        rcases haDts with ⟨heq, hnone⟩ | ⟨audio, hmem, havType, heq⟩
        . exact Or.inl ⟨heq.trans haDtsEq, List.forall_mem_cons.mpr ⟨haudio, hnone⟩⟩
        . exact Or.inr ⟨audio, List.mem_cons_of_mem _ hmem, havType, heq⟩
      by_cases hvideo : item.avType = .video
      . have hstay : ¬(0 < change.aDts ∧ change.vDts ≤ 0) := by
          rintro ⟨ha, -⟩
          rcases h with ⟨hnovideo, -⟩ | ⟨-, haDts, -⟩
          . exact hnovideo.left hvideo
          . omega
        rw [if_pos hvideo, if_neg hstay]
        refine hrest ?_ rfl rfl
        rcases h with ⟨hnovideo, -⟩ | ⟨hzero, haDts, -⟩
        . exact absurd hvideo hnovideo.left
        . refine Or.inr ⟨hzero.right, haDts, ?_⟩
          -- an audio item behind this one would have a time of at least that of this one
          intro hv other hother haudioOther
          have hle := hitem other hother
          rw [hzero.right other hother haudioOther] at hle
          exact absurd hv (Int.not_lt.mpr hle)
      . rw [if_neg hvideo]
        refine hrest ?_ rfl rfl
        rcases h with ⟨hnovideo, hvDts⟩ | ⟨hzero, haDts, hnone⟩
        . exact Or.inl ⟨hnovideo.right, hvDts⟩
        . exact Or.inr ⟨hzero.right, haDts, fun hv => (hnone hv).right⟩

end Searching

section Items

variable {traksInfo : List TrakInfo} {around : Surroundings} {headers : List MediaPacket}
  {sampleItems : List (Int × MovItem)} {trakinfo : TrakInfo} {n : Nat} {item : MovItem}

theorem KeepsTimes.dts_eq (h : KeepsTimes traksInfo) (htrak : trakinfo ∈ traksInfo) (hpos : 1 ≤ n)
    (hitem : sampleItem trakinfo n = some item) : item.dts = microseconds trakinfo n := by
  obtain ⟨hts, hn, htotal, hstep, -⟩ := h.step trakinfo htrak n hpos (Option.isSome_iff_exists.mpr ⟨item, hitem⟩)
  obtain ⟨-, avType, sampleOffset, sampleSize, -, rfl⟩ := sampleItem_eq hpos hitem
  exact (scaled_rawDts_iff hts hpos hn htotal).mpr hstep

theorem int64_natCast {x : Nat} (h : x < 2 ^ 63) : int64 x = x := by
  apply Int.bmod_eq_of_le <;> omega

theorem MovItem.packetTime_natCast (hts : item.timescale = 1000000) {time : Nat} (h : time * 1000 < 2 ^ 63)
    : item.packetTime time = (time / 1000 : Nat) := by
  have hmul : (time : Int) * 1000 = (time * 1000 : Nat) := (Nat.cast_mul time 1000).symm
  have hdiv : time * 1000 / 1000000 = time / 1000 := Nat.mul_div_mul_right time 1000 (by decide)
  rw [packetTime, hts, if_pos (by decide), hmul, int64_natCast h, ← hdiv]
  rfl

theorem timescale_sampleItem (hpos : 1 ≤ n) (hitem : sampleItem trakinfo n = some item)
    : item.timescale = 1000000 := by
  obtain ⟨-, avType, sampleOffset, sampleSize, -, rfl⟩ := sampleItem_eq hpos hitem
  rfl

theorem avType_sampleItem (hpos : 1 ≤ n) (hitem : sampleItem trakinfo n = some item)
    : trakinfo.avType = some item.avType := by
  obtain ⟨-, avType, sampleOffset, sampleSize, hav, rfl⟩ := sampleItem_eq hpos hitem
  exact hav

theorem avType_cases {avType : MediaPktType} (h : trakinfo.avType = some avType)
    : avType = .audio ∨ avType = .video := by
  rw [TrakInfo.avType] at h
  split at h
  . exact Or.inl (Option.some.inj h).symm
  . split at h
    . exact Or.inr (Option.some.inj h).symm
    . cases h

/--
The search finds no change in a movie whose samples have their times.
-/
theorem KeepsTimes.quiet (h : KeepsTimes traksInfo) (hmake : makeMovItems around traksInfo = some (headers, sampleItems))
    : Quiet {} (sampleItems.map Prod.snd) := by
  rcases h.kinds with hnovideo | hzero
  . refine Or.inl ⟨?_, by decide⟩
    intro item hitem havType
    obtain ⟨entry, hentry, rfl⟩ := List.mem_map.mp hitem
    obtain ⟨-, trakinfo, htrak, n, hpos, hsample⟩ := of_mem_makeMovItems hmake hentry
    have hav := avType_sampleItem hpos hsample
    rw [havType] at hav
    rw [hnovideo trakinfo htrak hav n hpos] at hsample
    cases hsample
  . refine Or.inr ⟨?_, by decide, fun hv => absurd hv (by decide)⟩
    intro item hitem havType
    obtain ⟨entry, hentry, rfl⟩ := List.mem_map.mp hitem
    obtain ⟨-, trakinfo, htrak, n, hpos, hsample⟩ := of_mem_makeMovItems hmake hentry
    have hav := avType_sampleItem hpos hsample
    rw [havType] at hav
    rw [h.dts_eq htrak hpos hsample, hzero trakinfo htrak hav n hpos (Option.isSome_iff_exists.mpr ⟨_, hsample⟩)]
    rfl

theorem KeepsTimes.dts_lt (h : KeepsTimes traksInfo) (hmake : makeMovItems around traksInfo = some (headers, sampleItems))
    {entry : Int × MovItem} (hentry : entry ∈ sampleItems)
    : ∃ time : Nat, entry.2.dts = time ∧ time * 2000 < 2 ^ 63 := by
  obtain ⟨-, trakinfo, htrak, n, hpos, hsample⟩ := of_mem_makeMovItems hmake hentry
  obtain ⟨-, -, -, -, hlt⟩ := h.step trakinfo htrak n hpos (Option.isSome_iff_exists.mpr ⟨_, hsample⟩)
  exact ⟨microseconds trakinfo n, h.dts_eq htrak hpos hsample, hlt⟩

theorem Change.timescale_adjust (change : Change) (item : MovItem) : (change.adjust item).timescale = item.timescale := by
  rw [adjust]
  split
  . rfl
  . split <;> rfl

/--
All items are moved by the same time.
-/
theorem KeepsTimes.exists_shift (h : KeepsTimes traksInfo)
    (hmake : makeMovItems around traksInfo = some (headers, sampleItems))
    : ∃ shift : Nat, shift * 2000 < 2 ^ 63 ∧ ∀ entry ∈ sampleItems,
      ((changeOf traksInfo sampleItems).adjust entry.2).dts = entry.2.dts + shift := by
  have hsorted : (sampleItems.map Prod.snd).Pairwise fun a b => a.dts ≤ b.dts := by
    apply List.pairwise_map.mpr
    apply (makeMovItems_sorted hmake).imp_of_mem
    intro a b ha hb hle
    rwa [(of_mem_makeMovItems hmake ha).left, (of_mem_makeMovItems hmake hb).left] at hle
  obtain ⟨hupdate, haDts⟩ := search_quiet hsorted (h.quiet hmake)
  have hvideo : (changeOf traksInfo sampleItems).updateVideo = false := hupdate
  rcases haDts with ⟨-, hnone⟩ | ⟨audio, haudio, havType, haDts⟩
  . refine ⟨0, by decide, ?_⟩
    intro entry hentry
    rw [Change.adjust, if_neg (fun hand => hnone _ (List.mem_map_of_mem hentry) hand.left), hvideo,
      if_neg (fun hand => Bool.false_ne_true hand.right)]
    exact (Int.add_zero _).symm
  . obtain ⟨first, hfirst, rfl⟩ := List.mem_map.mp haudio
    obtain ⟨shift, hshift, hlt⟩ := h.dts_lt hmake hfirst
    have hmoved : (changeOf traksInfo sampleItems).aDts = shift := haDts.trans hshift
    refine ⟨shift, hlt, ?_⟩
    intro entry hentry
    obtain ⟨time, htime, htimeLt⟩ := h.dts_lt hmake hentry
    by_cases hkind : entry.2.avType = .audio
    . have hmove : int64 (entry.2.dts + shift) = entry.2.dts + shift := by
        rw [htime, ← Nat.cast_add]
        exact int64_natCast (by omega)
      rw [Change.adjust, if_pos ⟨hkind, hvideo⟩, hmoved]
      exact hmove
    . rw [Change.adjust, if_neg (fun hand => hkind hand.left), hvideo,
        if_neg (fun hand => Bool.false_ne_true hand.right)]
      -- a movie with a video has no time in its audio
      have hzero : shift = 0 := by
        rcases h.quiet hmake with ⟨hnovideo, -⟩ | ⟨hzero, -⟩
        . obtain ⟨-, trakinfo, -, n, hpos, hsample⟩ := of_mem_makeMovItems hmake hentry
          rcases avType_cases (avType_sampleItem hpos hsample) with hcase | hcase
          . exact absurd hcase hkind
          . exact absurd hcase (hnovideo _ (List.mem_map_of_mem hentry))
        . rw [hzero _ haudio havType] at hshift
          omega
      rw [hzero]
      exact (Int.add_zero _).symm

theorem add_lt_of_doubled {x y : Nat} (hx : x * 2000 < 2 ^ 63) (hy : y * 2000 < 2 ^ 63) : (x + y) * 1000 < 2 ^ 63 := by
  linarith

theorem KeepsTimes.exists_sentTime (h : KeepsTimes traksInfo)
    (hmake : makeMovItems around traksInfo = some (headers, sampleItems))
    : ∃ shift : Nat, ∀ trakinfo ∈ traksInfo, ∀ n item, 1 ≤ n → sampleItem trakinfo n = some item →
      (changeOf traksInfo sampleItems).sentTime item = ((microseconds trakinfo n + shift) / 1000 : Nat) := by
  obtain ⟨shift, hshift, hadjust⟩ := h.exists_shift hmake
  refine ⟨shift, ?_⟩
  intro trakinfo htrak n item hpos hitem
  obtain ⟨-, -, -, -, hlt⟩ := h.step trakinfo htrak n hpos (Option.isSome_iff_exists.mpr ⟨_, hitem⟩)
  have hts := (Change.timescale_adjust (changeOf traksInfo sampleItems) item).trans (timescale_sampleItem hpos hitem)
  rw [Change.sentTime, hadjust _ (mem_makeMovItems hmake htrak hitem), h.dts_eq htrak hpos hitem, ← Nat.cast_add]
  exact MovItem.packetTime_natCast hts (add_lt_of_doubled hlt hshift)

end Items

section Packets

variable {item : MovItem} {io : IoReader}

theorem dts_of_mem_packets {unwritten : UInt8} {data : Nat → UInt8} {packet : MediaPacket}
    (h : packet ∈ item.packets unwritten data) : packet.dts = item.packetTime item.dts := by
  rw [MovItem.packets] at h
  split at h
  . split at h
    . cases h
    . split at h
      . obtain ⟨nalu, -, rfl⟩ := List.mem_map.mp h
        rw [MovItem.naluPacket]
        split <;> rfl
      . cases h
  . rw [List.mem_singleton.mp h]
    rfl

theorem handleMovItems_cons (entry : Int × MovItem) (entries : List (Int × MovItem))
    : handleMovItems io (entry :: entries) = []
      ∨ ∃ data, handleMovItems io (entry :: entries)
        = entry.2.packets io.unwritten data ++ handleMovItems io entries := by
  by_cases hread : ((io.read entry.2.offset entry.2.len).1 % 2 ^ 64).toNat < entry.2.len
  . exact Or.inl (if_pos hread)
  . exact Or.inr ⟨_, if_neg hread⟩

theorem mem_handleMovItems {entries : List (Int × MovItem)} {packet : MediaPacket}
    (h : packet ∈ handleMovItems io entries) : ∃ entry ∈ entries, packet.dts = entry.2.packetTime entry.2.dts := by
  induction entries with
  | nil => cases h
  | cons entry entries ih =>
    rcases handleMovItems_cons entry entries with hnil | ⟨data, hcons⟩
    . rw [hnil] at h
      cases h
    . rw [hcons, List.mem_append] at h
      rcases h with h | h
      . exact ⟨entry, List.mem_cons_self, dts_of_mem_packets h⟩
      . obtain ⟨other, hother, heq⟩ := ih h
        exact ⟨other, List.mem_cons_of_mem _ hother, heq⟩

theorem handleMovItems_ordered {entries : List (Int × MovItem)}
    (h : entries.Pairwise fun a b => a.2.packetTime a.2.dts ≤ b.2.packetTime b.2.dts)
    : ((handleMovItems io entries).map (·.dts)).Pairwise (· ≤ ·) := by
  induction entries with
  | nil => exact List.Pairwise.nil
  | cons entry entries ih =>
    obtain ⟨hentry, hrest⟩ := List.pairwise_cons.mp h
    rcases handleMovItems_cons entry entries with hnil | ⟨data, hcons⟩
    . rw [hnil]
      exact List.Pairwise.nil
    . rw [hcons, List.map_append, List.pairwise_append]
      refine ⟨?_, ih hrest, ?_⟩
      . apply List.pairwise_map.mpr
        apply List.pairwise_of_forall_mem_list
        intro a ha b hb
        rw [dts_of_mem_packets ha, dts_of_mem_packets hb]
      . intro a ha b hb
        obtain ⟨packet, hpacket, rfl⟩ := List.mem_map.mp ha
        obtain ⟨packet', hpacket', rfl⟩ := List.mem_map.mp hb
        obtain ⟨other, hother, heq⟩ := mem_handleMovItems hpacket'
        rw [dts_of_mem_packets hpacket, heq]
        exact hentry other hother

end Packets

section Steps

variable {traksInfo : List TrakInfo} {trakinfo : TrakInfo} {n : Nat}

/--
A time that is sent is ahead of that of the table by the shift, up to what the conversions leave off.
-/
theorem near_milliseconds (hts : 0 < trakinfo.timescale) (shift : Nat)
    : (((microseconds trakinfo n + shift) / 1000 : Nat) : ℚ) ≤ milliseconds trakinfo n + shift / 1000
      ∧ milliseconds trakinfo n + shift / 1000
        < (((microseconds trakinfo n + shift) / 1000 : Nat) : ℚ) + 1001 / 1000 := by
  have hpos : (0 : ℚ) < trakinfo.timescale.toNat := by
    rw [UInt32.lt_iff_toNat_lt] at hts
    exact Nat.cast_pos.mpr hts
  have hkept : microseconds trakinfo n * trakinfo.timescale.toNat ≤ decodeTime trakinfo n * 1000000 :=
    Nat.div_mul_le_self _ _
  have hkept' : decodeTime trakinfo n * 1000000 < (microseconds trakinfo n + 1) * trakinfo.timescale.toNat :=
    Nat.lt_mul_of_div_lt (Nat.lt_succ_self _) (Nat.cast_pos.mp hpos)
  have hmicro : (microseconds trakinfo n : ℚ) ≤ 1000 * milliseconds trakinfo n := by
    rw [milliseconds, ← mul_div_assoc, le_div_iff₀ hpos, ← mul_assoc, mul_comm _ (decodeTime trakinfo n : ℚ)]
    exact_mod_cast hkept
  have hmicro' : 1000 * milliseconds trakinfo n < microseconds trakinfo n + 1 := by
    rw [milliseconds, ← mul_div_assoc, div_lt_iff₀ hpos, ← mul_assoc, mul_comm _ (decodeTime trakinfo n : ℚ)]
    exact_mod_cast hkept'
  generalize microseconds trakinfo n = time at hmicro hmicro'
  have hsent : (((time + shift) / 1000 : Nat) : ℚ) * 1000 ≤ time + shift := by
    exact_mod_cast Nat.div_mul_le_self (time + shift) 1000
  have hsent' : (time + shift : ℚ) + 1 ≤ (((time + shift) / 1000 : Nat) + 1 : ℚ) * 1000 := by
    exact_mod_cast Nat.lt_mul_of_div_lt (Nat.lt_succ_self _) (show 0 < 1000 by decide)
  constructor <;> linarith

/--
The packets are in the order of their times and in step.
-/
theorem sentInStep {around : Surroundings} {headers : List MediaPacket} {sampleItems : List (Int × MovItem)}
    (hmake : makeMovItems around traksInfo = some (headers, sampleItems)) (h : KeepsTimes traksInfo) (io : IoReader)
    : SentInStep traksInfo io sampleItems := by
  obtain ⟨shift, hsent⟩ := h.exists_sentTime hmake
  have hentry : ∀ entry ∈ adjustAllDts traksInfo sampleItems, ∃ item, item ∈ sampleItems
      ∧ entry.2.packetTime entry.2.dts = (changeOf traksInfo sampleItems).sentTime item.2 := by
    intro entry hentry
    obtain ⟨item, hitem, rfl⟩ := List.mem_map.mp hentry
    exact ⟨item, hitem, rfl⟩
  refine ⟨?_, ?_, ?_⟩
  . apply handleMovItems_ordered
    apply List.pairwise_map.mpr
    apply (makeMovItems_sorted hmake).imp_of_mem
    intro a b ha hb hle
    obtain ⟨hkey, trakinfo, htrak, n, hpos, hsample⟩ := of_mem_makeMovItems hmake ha
    obtain ⟨hkey', trakinfo', htrak', n', hpos', hsample'⟩ := of_mem_makeMovItems hmake hb
    rw [hkey, hkey', h.dts_eq htrak hpos hsample, h.dts_eq htrak' hpos' hsample', Nat.cast_le] at hle
    have hdiv := Nat.div_le_div_right (c := 1000) (Nat.add_le_add_right hle shift)
    refine (hsent trakinfo htrak n _ hpos hsample).le.trans ?_
    exact (Nat.cast_le.mpr hdiv).trans (hsent trakinfo' htrak' n' _ hpos' hsample').ge
  . intro packet hpacket
    obtain ⟨entry, hmem, heq⟩ := mem_handleMovItems hpacket
    obtain ⟨item, hitem, hsame⟩ := hentry entry hmem
    obtain ⟨-, trakinfo, htrak, n, hpos, hsample⟩ := of_mem_makeMovItems hmake hitem
    exact ⟨trakinfo, htrak, n, item.2, hpos, hsample, heq.trans hsame⟩
  . intro trakinfo htrak trakinfo' htrak' n n' item item' hpos hpos' hitem hitem'
    have hts := (h.step trakinfo htrak n hpos (Option.isSome_iff_exists.mpr ⟨_, hitem⟩)).left
    have hts' := (h.step trakinfo' htrak' n' hpos' (Option.isSome_iff_exists.mpr ⟨_, hitem'⟩)).left
    obtain ⟨hle, hlt⟩ := @near_milliseconds trakinfo n hts shift
    obtain ⟨hle', hlt'⟩ := @near_milliseconds trakinfo' n' hts' shift
    rw [hsent trakinfo htrak n item hpos hitem, hsent trakinfo' htrak' n' item' hpos' hitem', Int.cast_sub,
      Int.cast_natCast, Int.cast_natCast]
    apply abs_lt.mpr
    constructor <;> linarith

def itemsOfMovie (traksInfo : List TrakInfo) : List (Int × MovItem) :=
  ((makeMovItems zeroed traksInfo).map Prod.snd).getD []

theorem keepsTimes_audio : KeepsTimes [audioTrak 10 10] where
  step := by
    intro trakinfo htrak n hpos hsome
    rw [List.mem_singleton.mp htrak] at hsome ⊢
    obtain ⟨item, hitem⟩ := Option.isSome_iff_exists.mp hsome
    have hle : n ≤ 2 := (sampleItem_eq hpos hitem).left
    obtain rfl | rfl : n = 1 ∨ n = 2 := by
      omega
    all_goals decide
  kinds := by
    refine Or.inl ?_
    intro trakinfo htrak hav
    rw [List.mem_singleton.mp htrak] at hav
    exact absurd hav (by decide)

/--
A file without any end.
-/
def zeros : IoReader where
  read := fun _ len => (len, fun _ => 0)
  unwritten := 0

theorem sentInStep_audio : SentInStep [audioTrak 10 10] zeros (itemsOfMovie [audioTrak 10 10]) := by
  have hmake : makeMovItems zeroed [audioTrak 10 10]
      = some ([sendMediaPacket .audio .aac 0 0 false true []], itemsOfMovie [audioTrak 10 10]) := rfl
  exact sentInStep hmake keepsTimes_audio zeros

def videoTrak : TrakInfo :=
  { audioTrak 40 40 with
    handlerType := vide
    codecType := .h264
    sequenceData := [1, 0x64, 0, 0x1f, 0xff, 0xe1, 0, 1, 0x67, 1, 0, 1, 0x68] }

/--
Audio and video that begin together are sent with the video 50 ms behind the audio.
-/
theorem not_sentInStep_together : (makeMovItems zeroed [audioTrak 10 10, videoTrak]).isSome
    ∧ ∀ io, ¬SentInStep [audioTrak 10 10, videoTrak] io (itemsOfMovie [audioTrak 10 10, videoTrak]) := by
  refine ⟨by decide +kernel, ?_⟩
  intro io h
  have haudio : (sampleItem (audioTrak 10 10) 1).map (changeOf [audioTrak 10 10, videoTrak]
      (itemsOfMovie [audioTrak 10 10, videoTrak])).sentTime = some 0 := by
    decide +kernel
  have hvideo : (sampleItem videoTrak 1).map (changeOf [audioTrak 10 10, videoTrak]
      (itemsOfMovie [audioTrak 10 10, videoTrak])).sentTime = some 50 := by
    decide +kernel
  obtain ⟨audio, haudioItem, haudioTime⟩ := Option.map_eq_some_iff.mp haudio
  obtain ⟨video, hvideoItem, hvideoTime⟩ := Option.map_eq_some_iff.mp hvideo
  have hdifference := h.difference (audioTrak 10 10) List.mem_cons_self videoTrak
    (List.mem_cons_of_mem _ List.mem_cons_self) 1 1 audio video (Nat.le_refl 1) (Nat.le_refl 1) haudioItem hvideoItem
  have haudioTable : milliseconds (audioTrak 10 10) 1 = 0 := by
    rw [milliseconds, show decodeTime (audioTrak 10 10) 1 = 0 from rfl, Nat.cast_zero, mul_zero, zero_div]
  have hvideoTable : milliseconds videoTrak 1 = 0 := by
    rw [milliseconds, show decodeTime videoTrak 1 = 0 from rfl, Nat.cast_zero, mul_zero, zero_div]
  rw [haudioTime, hvideoTime, haudioTable, hvideoTable] at hdifference
  norm_num at hdifference

end Steps

end Mp4
