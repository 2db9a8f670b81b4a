import ActixMqtt.Support.Slab
import ActixMqtt.V3.Codec.Packet
import ActixMqtt.Utils
import ActixMqtt.V3.Codec.Decoder
import ActixMqtt.V3.Codec.Framing
import ActixMqtt.V3.Sink.Basic
import ActixMqtt.V3.Sink.Ops
import ActixMqtt.V3.Sink.Table
import ActixMqtt.V3.Sink.Admission
import ActixMqtt.V3.Sink.Waiters
import ActixMqtt.V3.Sink.Correlation
import ActixMqtt.V3.Sink.Safety
import ActixMqtt.V3.Sink.PacketIds
import ActixMqtt.V5.Router
import ActixMqtt.V5.Aliases
import ActixMqtt.V5.Readiness
import ActixMqtt.V5.Factory
import ActixMqtt.V5.Dispatch
import ActixMqtt.Service
