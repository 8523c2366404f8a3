import ShardusNet.Lib.ByteCodec
import ShardusNet.Lib.Framing
import ShardusNet.Lib.Hex
import ShardusNet.Lib.JsonText
import ShardusNet.Lib.JsonWrite
import ShardusNet.Lib.Utf16
import ShardusNet.Lib.Decimal
import ShardusNet.Lib.Runs
import ShardusNet.Lib.Rest
import ShardusNet.Lib.Pieces
import ShardusNet.Lib.Checked
import ShardusNet.Lib.Entries
import ShardusNet.Lib.Intervals
import ShardusNet.Lib.JsNumber
import ShardusNet.Lib.JsNumberText
import ShardusNet.Lib.Recency
import ShardusNet.Wire.Crypto
import ShardusNet.Wire.Message
import ShardusNet.Wire.Header
import ShardusNet.Wire.HeaderJson
import ShardusNet.Wire.HeaderRoundTrip
import ShardusNet.Wire.Listener
import ShardusNet.Wire.Outgoing
import ShardusNet.Wire.Delivery
import ShardusNet.Wire.NoPanic
import ShardusNet.Wire.Authentic
import ShardusNet.Wire.Listening
import ShardusNet.Wire.AnyOrder
import ShardusNet.Binding.Stats
import ShardusNet.Binding.Calls
import ShardusNet.Binding.Outstanding
import ShardusNet.Binding.RingStats
import ShardusNet.Binding.Agreement
import ShardusNet.Binding.MultiSend
import ShardusNet.Node.TTLMap
import ShardusNet.Node.TTLRuns
import ShardusNet.Node.Instance
import ShardusNet.Node.Dispatch
import ShardusNet.Node.Pending
import ShardusNet.Node.Network
import ShardusNet.Transport.Connection
import ShardusNet.Transport.Framed
import ShardusNet.Transport.Cache
import ShardusNet.Transport.Sender
import ShardusNet.Transport.SenderInv
import ShardusNet.Transport.SendResult
import ShardusNet.Transport.CacheHistory
import ShardusNet.Transport.CacheAgreement
import ShardusNet.Transport.Evict
import ShardusNet.Transport.Streams
import ShardusNet.Transport.Carried
import ShardusNet.Transport.EndToEnd
import ShardusNet.Transport.Completion
import ShardusNet.Transport.OpenSockets
import ShardusNet.Node.SendPromise
import ShardusNet.Node.Respond
import ShardusNet.Node.Process
import ShardusNet.Node.Histogram
import ShardusNet.Node.Reviver
import ShardusNet.Node.Texts
import ShardusNet.Node.Stack
import ShardusNet.Node.Handed
import ShardusNet.Node.Answered
import ShardusNet.ShardeumUtils.BaseFee
