import CppStreamer.Format.Flv.MuxSource
import CppStreamer.Format.MpegTs.MuxSource
import CppStreamer.Net.Rtmp.Publish

/-!
This module contains the muxers and the RTMP publisher that get the packets of one source, with the runs in which their
copies stay within their arrays, and the calls that leave the packets as they are.
-/

open Checked

/--
What gets the packets of a source, and the packets.
-/
structure Sinkers where
  mpegtsMux : MpegTs.MuxSource := {}
  flvMux : Flv.MuxSource := {}
  publish : Rtmp.RtmpPublish := {}
  pkts : Packets := []

/--
A source makes a packet, a sinker gets the pointer of one, or the publisher comes to its queue. `behind` is what the
memory holds behind the data of the packets.
-/
inductive SinkerCall where
  | packet (p : SharedPacket)
  | mpegtsMux (behind : Nat → Nat → UInt8) (ptr : Nat)
  | flvMux (ptr : Nat)
  | publish (ptr : Nat)
  | handleMedia

namespace Sinkers

def step (s : Sinkers) : SinkerCall → Checked CopyCheck Sinkers
  | .packet p => return { s with pkts := s.pkts ++ [p] }
  | .mpegtsMux behind ptr => do
    let (mpegtsMux, pkts) ← MpegTs.MuxSource.sourceData behind (s.mpegtsMux, s.pkts) ptr
    return { s with mpegtsMux, pkts }
  | .flvMux ptr => do
    let (flvMux, pkts) ← Flv.MuxSource.sourceData (s.flvMux, s.pkts) ptr
    return { s with flvMux, pkts }
  | .publish ptr => return { s with publish := s.publish.sourceData ptr }
  | .handleMedia => do
    let (publish, pkts) ← Rtmp.RtmpPublish.handleMediaData (s.publish, s.pkts) s.publish.packetQueue
    return { s with publish, pkts }

section Fits

/--
The parameter sets that a call comes to fit into the caches, and the sequence headers that it makes of them fit into
their array.
-/
def Fits (s : Sinkers) : SinkerCall → Prop
  | .packet _ | .flvMux _ | .publish _ => True
  | .mpegtsMux behind ptr => MpegTs.MuxSource.SourceFits behind (s.mpegtsMux, s.pkts) ptr
  | .handleMedia =>
    Rtmp.RtmpPublish.Taken Rtmp.RtmpPublish.HandleFits (s.publish, s.pkts) s.publish.packetQueue

/--
The parameter sets are within their caches.
-/
structure Within (s : Sinkers) : Prop where
  mpegtsMux : s.mpegtsMux.caches.Sized MpegTs.setSize
  flvMux : s.flvMux.Within
  publish : s.publish.Within

theorem within_new : ({} : Sinkers).Within :=
  ⟨⟨List.length_replicate, List.length_replicate, List.length_replicate⟩, Flv.MuxSource.within_new,
    Rtmp.RtmpPublish.within_new⟩

variable {s : Sinkers}

theorem step_passes (h : s.Within) (call : SinkerCall) : (s.step call).Passes CopyCheck.Holds ↔ s.Fits call := by
  cases call with
  | packet p => exact iff_of_true (passes_pure _) trivial
  | publish ptr => exact iff_of_true (passes_pure _) trivial
  | mpegtsMux behind ptr =>
    unfold step Fits
    rw [passes_bind, MpegTs.MuxSource.sourceData_passes h.mpegtsMux]
    exact and_iff_left (passes_pure _)
  | flvMux ptr =>
    unfold step Fits
    rw [passes_bind]
    exact iff_of_true ⟨(Flv.MuxSource.sourceData_spec h.flvMux).left, passes_pure _⟩ trivial
  | handleMedia =>
    unfold step Fits
    rw [passes_bind, Rtmp.RtmpPublish.handleMediaData_passes h.publish]
    exact and_iff_left (passes_pure _)

theorem step_within (h : s.Within) {call : SinkerCall} (hfits : s.Fits call) : (s.step call).value.Within := by
  cases call with
  | packet p => exact ⟨h.mpegtsMux, h.flvMux, h.publish⟩
  | publish ptr => exact ⟨h.mpegtsMux, h.flvMux, h.publish.sps, h.publish.pps⟩
  | mpegtsMux behind ptr => exact ⟨MpegTs.MuxSource.sourceData_sized h.mpegtsMux hfits, h.flvMux, h.publish⟩
  | flvMux ptr => exact ⟨h.mpegtsMux, (Flv.MuxSource.sourceData_spec h.flvMux).right, h.publish⟩
  | handleMedia =>
    exact ⟨h.mpegtsMux, h.flvMux, Rtmp.RtmpPublish.handleMediaData_within h.publish hfits⟩

/--
The copies of a run are within their arrays if the parameter sets of all its calls fit in, and only then.
-/
theorem caches_hold_iff (calls : List SinkerCall)
    : (run step {} calls).Passes CopyCheck.Holds ↔ RunMeets step Fits {} calls :=
  run_passes_iff_runMeets Within Fits (fun _ call hs => step_passes hs call) (fun _ _ hs hfits => step_within hs hfits)
    within_new calls

/--
A sequence parameter set of 513 bytes in Annex B.
-/
def longSps : SharedPacket where
  avType := .video
  codecType := .h264
  fmtType := .raw
  data := H264.startCode ++ (0x67 :: List.replicate 512 0)

/--
It is copied to the 512 bytes of the publisher.
-/
theorem not_caches_hold : ¬∀ calls : List SinkerCall, (run step {} calls).Passes CopyCheck.Holds := by
  intro h
  have hcopy : CopyCheck.inside 0 513 512 ∈ (run step {} [.packet longSps, .publish 0, .handleMedia]).log := by
    decide +kernel
  have hle : 0 + 513 ≤ 512 := h _ _ hcopy
  omega

end Fits

section Kept

/--
The handling of a packet by a call leaves every packet as it was.
-/
def Leaves (s : Sinkers) : SinkerCall → Prop
  | .mpegtsMux behind ptr => MpegTs.MuxSource.Leaves behind (s.mpegtsMux, s.pkts) ptr
  | .handleMedia => Rtmp.RtmpPublish.Leaves (s.publish, s.pkts)
  | call => s.pkts.Kept (s.step call).value.pkts

/--
No AAC frame gets an ADTS header, no start code is overwritten with a length, and no raw sound is turned into FLV.
-/
def Keeps (s : Sinkers) : SinkerCall → Prop
  | .packet _ | .publish _ => True
  | .mpegtsMux behind ptr => MpegTs.MuxSource.SourceKeeps behind (s.mpegtsMux, s.pkts) ptr
  | .flvMux ptr => Flv.MuxSource.SourceKeeps (s.flvMux, s.pkts) ptr
  | .handleMedia =>
    Rtmp.RtmpPublish.Taken Rtmp.RtmpPublish.HandleKeeps (s.publish, s.pkts) s.publish.packetQueue

theorem Leaves.kept {s : Sinkers} {call : SinkerCall} (h : s.Leaves call) : s.pkts.Kept (s.step call).value.pkts := by
  cases call with
  | packet p => exact h
  | publish ptr => exact h
  | flvMux ptr => exact h
  | mpegtsMux behind ptr => exact MpegTs.MuxSource.Leaves.kept h
  | handleMedia => exact Rtmp.RtmpPublish.Taken.kept h

/--
The sinkers that come later see the packets that the source has made if none is among those that are changed, and only
then.
-/
theorem leaves_iff (s : Sinkers) (call : SinkerCall) : s.Leaves call ↔ s.Keeps call := by
  cases call with
  | packet p => exact iff_of_true (Packets.kept_of_isPrefix (List.prefix_append _ _)) trivial
  | publish ptr => exact iff_of_true (Packets.kept_of_isPrefix (List.prefix_refl _)) trivial
  | mpegtsMux behind ptr => exact MpegTs.MuxSource.leaves_iff_sourceKeeps
  | flvMux ptr => exact @Flv.MuxSource.sourceData_kept_iff ptr (s.flvMux, s.pkts)
  | handleMedia => exact Rtmp.RtmpPublish.leaves_iff_taken

/--
A frame of AAC.
-/
def rawAudio : SharedPacket where
  avType := .audio
  codecType := .aac
  fmtType := .raw
  data := [0x21]

/--
The publisher turns it into FLV in place.
-/
theorem not_leaves : ¬∀ (calls : List SinkerCall) (call : SinkerCall), (run step {} calls).value.Leaves call := by
  intro h
  have hleaves := h [.packet rawAudio, .publish 0] .handleMedia
  rcases hleaves with hflv | ⟨hkept, -⟩
  . exact absurd hflv (by decide)
  . exact Rtmp.RtmpPublish.handlePacket_kept_iff.mp hkept rawAudio rfl ⟨rfl, rfl⟩

end Kept

end Sinkers
