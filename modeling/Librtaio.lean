import Librtaio.Bytes
import Librtaio.Crc32
import Librtaio.Crc32Burst
import Librtaio.FloatCast
import Librtaio.NetStream
import Librtaio.Streams
import Librtaio.CharVector
import Librtaio.Computation
import Librtaio.Field
import Librtaio.PacketProtocol
import Librtaio.TableShape
import Librtaio.PacketTable
import Librtaio.SerializeSpec
import Librtaio.FieldsSize
import Librtaio.UnserializeSpec
import Librtaio.PacketDecode
import Librtaio.RoundTrip
import Librtaio.CorruptionDetected
import Librtaio.HostIndependence
import Librtaio.WrittenBody
import Librtaio.LlongArrays
import Librtaio.FloatBits
import Librtaio.FloatScalars
import Librtaio.BodyTotality
import Librtaio.Transition
import Librtaio.SessionHandler
import Librtaio.SessionSteps
import Librtaio.StoreBounds
import Librtaio.SessionInvariants
import Librtaio.SessionOrder
import Librtaio.SessionReassembly
import Librtaio.NetworkServer
import Librtaio.ServerService
import Librtaio.Lifetime
import Librtaio.ClientImpl
import Librtaio.ClientSteps
import Librtaio.ClientReceive
import Librtaio.ClientApi
import Librtaio.ClientCalls
import Librtaio.ClientConnect
import Librtaio.ClientWrites
import Librtaio.SentPackets
import Librtaio.SessionTraffic
import Librtaio.SessionFailures
import Librtaio.ClientNames
import Librtaio.ClientAlignment
import Librtaio.SessionBoundaries
import Librtaio.ServerListening
import Librtaio.CopyFields
import Librtaio.SerializeWalk
import Librtaio.ReusedTables
import Librtaio.LengthPrefixes
import Librtaio.RefusedTables
import Librtaio.Canonical
import Librtaio.ShortBuffers
import Librtaio.TypedStreams
import Librtaio.BodyFraming
import Librtaio.UnwrittenHeader
import Librtaio.ServerIsolation
import Librtaio.ServerResponses
import Librtaio.ClientServer
import Librtaio.Network
import Librtaio.NetworkFailures
