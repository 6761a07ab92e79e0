import Cbps.Lib.Runs
import Cbps.Lib.Memory
import Cbps.Lib.Loop
import Cbps.Md5.Digest
import Cbps.Obex.Headers
import Cbps.Obex.Acceptance
import Cbps.Obex.Authentication
import Cbps.Tdl.Priority
import Cbps.Tdl.Attributes
import Cbps.Tdl.Codec
import Cbps.ObexParse.Children
import Cbps.Hfp.Volume
import Cbps.Hfp.CallState
import Cbps.Hfp.Bia
import Cbps.HfpLink.Priorities
import Cbps.Avrcp.Labels
import Cbps.A2dp.Acceptable
import Cbps.Avrcp.Fragments
import Cbps.Avrcp.Undisturbed
import Cbps.Avrcp.Registering
import Cbps.A2dp.Packets
import Cbps.A2dp.Services
import Cbps.A2dp.Device
import Cbps.A2dp.Establishment
import Cbps.A2dp.Commands
import Cbps.A2dp.InUse
import Cbps.GattManager.Servers
import Cbps.GattManager.Waits
import Cbps.GattManager.Writes
import Cbps.Gatt.Table
import Cbps.Gatt.Serial
import Cbps.Gatt.Transfers
import Cbps.Aghfp.Indicators
import Cbps.Sm.State
import Cbps.Sm.Keys
import Cbps.Sm.Handlers
import Cbps.Sm.Manager
import Cbps.Sm.Channel
import Cbps.Sm.Settings
import Cbps.Sm.Sessions
import Cbps.MassStorage.Reads
import Cbps.Power.Current
import Cbps.Power.States
import Cbps.Power.Reports
import Cbps.SinkApp.Multipoint
import Cbps.SinkApp.CallStates
import Cbps.Pblock.KeyValue
import Cbps.Pbapc.Navigation
import Cbps.Ancs.ControlPoint
import Cbps.Hid.Requests
import Cbps.SinkApp.Presses
import Cbps.Tdl.Startup
import Cbps.Obex.Receive
import Cbps.Obex.Limits
import Cbps.Obex.SetPath
import Cbps.Obex.Digest
import Cbps.ObexParse.Decode
import Cbps.Service.Records
import Cbps.Hfp.IndicatorList
import Cbps.A2dp.Matching
import Cbps.A2dp.Quiet
import Cbps.A2dp.Answers
import Cbps.A2dp.Orderly
import Cbps.SdpParse.Forms
import Cbps.SdpParse.Channels
import Cbps.Service.Reading
import Cbps.SdpParse.Inserts
import Cbps.SdpParse.ServiceName
import Cbps.Hfp.IndicatorNames
import Cbps.Hfp.Commands
import Cbps.Gatt.Uuids
import Cbps.A2dp.Bitpool
import Cbps.Aghfp.Responses
import Cbps.Gatt.Queued
import Cbps.A2dp.DataBlocks
import Cbps.A2dp.Configuring
import Cbps.Wbs.Codecs
import Cbps.ByteUtils.Stream
import Cbps.Lib.Patterns
import Cbps.SinkApp.ButtonPatterns
import Cbps.SinkApp.LedQueue
import Cbps.SinkApp.Session
import Cbps.SinkApp.HoldSwap
import Cbps.Lib.TagValues
import Cbps.Pbapc.ListResponse
import Cbps.Mapc.Responses
