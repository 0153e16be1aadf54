import CppStreamer.Basic.Interleave
import CppStreamer.Basic.Incremental
import CppStreamer.Utils.DataBuffer
import CppStreamer.Net.Rtmp.ChunkSize
import CppStreamer.Net.Rtmp.ChunkHeader
import CppStreamer.Net.Rtmp.ClientLossless
import CppStreamer.Net.WebRtc.JitterBuffer
import CppStreamer.Net.WebRtc.H264Bounds
import CppStreamer.Net.WebRtc.H264Loss
import CppStreamer.Net.WebRtc.VideoReceiver
import CppStreamer.Net.WebRtc.SendBuffer
import CppStreamer.Format.MpegTs.TimeStamps
import CppStreamer.Format.Amf.RoundTrip
import CppStreamer.Net.WebRtc.NackGenerator
import CppStreamer.Net.RtpRtcp.RtcpFbNack
import CppStreamer.Net.Http.WsSessionBase
import CppStreamer.Net.Http.WsFragments
import CppStreamer.Net.Http.HttpSession
import CppStreamer.Net.Http.WsUpgrade
import CppStreamer.Net.Stun.Stun
import CppStreamer.Format.Flv.RoundTrip
import CppStreamer.Format.Flv.Progress
import CppStreamer.Net.Rtmp.ChunkIsolation
import CppStreamer.Net.Rtmp.ChunkFragments
import CppStreamer.Net.Rtmp.ClientMessages
import CppStreamer.Net.Rtmp.ChunkSizeRun
import CppStreamer.Net.Rtmp.ServerCommand
import CppStreamer.Net.Rtmp.DecodeLoops
import CppStreamer.Net.Rtmp.MediaMessage
import CppStreamer.Net.Rtmp.LongTimestamp
import CppStreamer.Net.Rtmp.Handshake
import CppStreamer.Net.Rtmp.PublishQueue
import CppStreamer.Net.Rtmp.UrlInfo
import CppStreamer.Net.Rtmp.Play
import CppStreamer.Net.Rtmp.PublishFrames
import CppStreamer.Net.PacketSinks
import CppStreamer.Format.Amf.Bounds
import CppStreamer.Format.MpegTs.Separation
import CppStreamer.Format.MpegTs.Counters
import CppStreamer.Format.MpegTs.TableCrc
import CppStreamer.Format.MpegTs.KeyFrames
import CppStreamer.Format.MpegTs.Schedule
import CppStreamer.Net.WebRtc.RtcpCompound
import CppStreamer.Net.WebRtc.RtcRecvStream
import CppStreamer.Net.WebRtc.MediaTime
import CppStreamer.Net.WebRtc.NackPackets
import CppStreamer.Net.WebRtc.JitterReset
import CppStreamer.Net.WebRtc.XrBlocks
import CppStreamer.Net.WebRtc.RoundTripTime
import CppStreamer.Net.WebRtc.SenderReports
import CppStreamer.Net.WebRtc.FractionLost
import CppStreamer.Net.WebRtc.Jitter
import CppStreamer.Net.WebRtc.NackRepair
import CppStreamer.Net.RtpRtcp.ExtensionUpdate
import CppStreamer.Format.Flv.TagSafety
import CppStreamer.Format.AnnexBAvcc
import CppStreamer.Format.AudioSpecificConfig
import CppStreamer.Format.LHevcRecord
import CppStreamer.Format.MpegTs.Adts
import CppStreamer.Format.OpusReaderValue
import CppStreamer.Format.Sdp.RoundTrip
import CppStreamer.Format.Mp4.SampleLocation
import CppStreamer.Format.Mp4.SequenceHeaders
import CppStreamer.Format.Mp4.PacketTimes
import CppStreamer.Format.Mp4.MovieWalk
import CppStreamer.Utils.Base64
import CppStreamer.Utils.DataBufferCopy
import CppStreamer.Net.Http.HttpExchange
import CppStreamer.Net.Stun.StunAttributes
import CppStreamer.Format.Sdp.Isolation
import CppStreamer.Format.MpegTs.Delivery
