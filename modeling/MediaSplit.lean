import MediaSplit.Ac3.Header
import MediaSplit.Ac3.Reader
import MediaSplit.Ac3.Search
import MediaSplit.Avc.DecoderConfig
import MediaSplit.Avc.DecoderConfig.Form
import MediaSplit.Avc.Escape
import MediaSplit.Avc.Search
import MediaSplit.Avc.Sps
import MediaSplit.Avc.Sps.Form
import MediaSplit.Avc.Sps.Writing
import MediaSplit.Bits.Ahead
import MediaSplit.Bits.Error
import MediaSplit.Bits.Reader
import MediaSplit.Bits.Request
import MediaSplit.Bits.View
import MediaSplit.Bits.Writer
import MediaSplit.Bytes
import MediaSplit.Bytes.FirstSuffix
import MediaSplit.Chain
import MediaSplit.Dts.Header
import MediaSplit.Dts.Layout
import MediaSplit.Dts.Reader
import MediaSplit.Dts.Search
import MediaSplit.Elementary.Reader
import MediaSplit.Elementary.Segmentation
import MediaSplit.Fault
import MediaSplit.Framing
import MediaSplit.Id3
import MediaSplit.Id3.Tag
import MediaSplit.Input
import MediaSplit.Input.Summary
import MediaSplit.MpegAudio
import MediaSplit.MpegVideo.Search
import MediaSplit.MpegVideo.SequenceHeader
import MediaSplit.Packet
import MediaSplit.Power
import MediaSplit.ProgramStream.Discovery
import MediaSplit.ProgramStream.Error
import MediaSplit.ProgramStream.GatherBuffer
import MediaSplit.ProgramStream.Navigator
import MediaSplit.ProgramStream.Payload
import MediaSplit.ProgramStream.Pes
import MediaSplit.ProgramStream.Pes.Extent
import MediaSplit.ProgramStream.Pes.Form
import MediaSplit.ProgramStream.Probe
import MediaSplit.ProgramStream.Reader
import MediaSplit.ProgramStream.Registry
import MediaSplit.ProgramStream.StreamId
import MediaSplit.ProgramStream.StreamMap
import MediaSplit.ProgramStream.StreamMap.Form
import MediaSplit.ProgramStream.Structure
import MediaSplit.Proofs.Ac3.Header
import MediaSplit.Proofs.Ac3.Search
import MediaSplit.Proofs.Ac3.Segmentation
import MediaSplit.Proofs.Avc.DecoderConfig
import MediaSplit.Proofs.Avc.Escape
import MediaSplit.Proofs.Avc.Sps.Cropping
import MediaSplit.Proofs.Avc.Sps.Numbers
import MediaSplit.Proofs.Avc.Sps.Reading
import MediaSplit.Proofs.Avc.Sps.RoundTrip
import MediaSplit.Proofs.Bits.Codes
import MediaSplit.Proofs.Bits.Extent
import MediaSplit.Proofs.Bits.Fields
import MediaSplit.Proofs.Bits.Requests
import MediaSplit.Proofs.Bytes
import MediaSplit.Proofs.Bytes.Search
import MediaSplit.Proofs.Double.Arithmetic
import MediaSplit.Proofs.Double.Nearest
import MediaSplit.Proofs.Double.Operations
import MediaSplit.Proofs.Double.Order
import MediaSplit.Proofs.Double.Packing
import MediaSplit.Proofs.Double.Rounding
import MediaSplit.Proofs.Dts.Header
import MediaSplit.Proofs.Dts.Layout
import MediaSplit.Proofs.Dts.RoundTrip
import MediaSplit.Proofs.Dts.Search
import MediaSplit.Proofs.Dts.Segmentation
import MediaSplit.Proofs.Elementary.LeadingBytes
import MediaSplit.Proofs.Elementary.Moving
import MediaSplit.Proofs.Elementary.Reach
import MediaSplit.Proofs.Elementary.Run
import MediaSplit.Proofs.Elementary.Segments
import MediaSplit.Proofs.Elementary.Stateless
import MediaSplit.Proofs.Framing.Conservation
import MediaSplit.Proofs.Id3
import MediaSplit.Proofs.Input.Finishing
import MediaSplit.Proofs.Input.Opening
import MediaSplit.Proofs.Input.Protocol
import MediaSplit.Proofs.ProgramStream.Deliveries
import MediaSplit.Proofs.ProgramStream.Gathering
import MediaSplit.Proofs.ProgramStream.Grouping
import MediaSplit.Proofs.ProgramStream.Independence
import MediaSplit.Proofs.ProgramStream.Likeness
import MediaSplit.Proofs.ProgramStream.Meeting
import MediaSplit.Proofs.ProgramStream.Offsets
import MediaSplit.Proofs.ProgramStream.Opening
import MediaSplit.Proofs.ProgramStream.ParameterSets
import MediaSplit.Proofs.ProgramStream.Pes
import MediaSplit.Proofs.ProgramStream.Pes.RoundTrip
import MediaSplit.Proofs.ProgramStream.Placement
import MediaSplit.Proofs.ProgramStream.Probing
import MediaSplit.Proofs.ProgramStream.Registry
import MediaSplit.Proofs.ProgramStream.Regrouping
import MediaSplit.Proofs.ProgramStream.Requests
import MediaSplit.Proofs.ProgramStream.Run
import MediaSplit.Proofs.ProgramStream.Search
import MediaSplit.Proofs.ProgramStream.StartCodes
import MediaSplit.Proofs.ProgramStream.StreamMap
import MediaSplit.Proofs.ProgramStream.StreamMap.Torn
import MediaSplit.Proofs.ProgramStream.Traversal
import MediaSplit.Proofs.ProgramStream.Walk
import MediaSplit.Proofs.Reading
import MediaSplit.Proofs.Schedule.Accounting
import MediaSplit.Proofs.Schedule.Extrapolation
import MediaSplit.Proofs.Schedule.Lines
import MediaSplit.Proofs.Schedule.Loading
import MediaSplit.Proofs.Schedule.Looking
import MediaSplit.Proofs.Schedule.Rates
import MediaSplit.Proofs.Schedule.Requests
import MediaSplit.Proofs.Schedule.Spacing
import MediaSplit.Proofs.Schedule.Tiling
import MediaSplit.Proofs.Schedule.Timeline
import MediaSplit.Proofs.Sink.Delivery
import MediaSplit.Proofs.Sink.Flush
import MediaSplit.Proofs.Sink.Moving
import MediaSplit.Proofs.Sink.Protocol
import MediaSplit.Proofs.Source
import MediaSplit.Proofs.Sync.Copies
import MediaSplit.Proofs.Sync.Deficit
import MediaSplit.Proofs.Sync.Fate
import MediaSplit.Proofs.Sync.Filling
import MediaSplit.Proofs.Sync.Ledger
import MediaSplit.Proofs.Sync.Order
import MediaSplit.Proofs.Sync.Scaling
import MediaSplit.Proofs.Sync.Step
import MediaSplit.Proofs.Time.Linear
import MediaSplit.Proofs.Time.Rounding
import MediaSplit.Proofs.TrueHd.Segmentation
import MediaSplit.Proofs.TrueHd.Survey
import MediaSplit.Proofs.TrueHd.Tags
import MediaSplit.Proofs.TrueHd.Unit
import MediaSplit.Proofs.Video.Pieces
import MediaSplit.Proofs.Video.StartCodes
import MediaSplit.ReadStatus
import MediaSplit.Schedule
import MediaSplit.Schedule.Durations
import MediaSplit.Schedule.Error
import MediaSplit.Schedule.FrameRanges
import MediaSplit.Schedule.Lines
import MediaSplit.Schedule.Pull
import MediaSplit.Schedule.Timestamps
import MediaSplit.Sink
import MediaSplit.Sink.Journal
import MediaSplit.Sink.Table
import MediaSplit.Source
import MediaSplit.Sync.Packetizer
import MediaSplit.Sync.Settings
import MediaSplit.Text.Blank
import MediaSplit.Text.Hex
import MediaSplit.Text.Number
import MediaSplit.Time.Linear
import MediaSplit.Time.Nanoseconds
import MediaSplit.Track
import MediaSplit.TrueHd.Reader
import MediaSplit.TrueHd.Survey
import MediaSplit.TrueHd.Unit
import MediaSplit.Vc1
import MediaSplit.Video.Units
import MediaSplit.Warning
import MediaSplit.Word
