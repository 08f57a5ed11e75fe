import ChatRoom.Lib.Runs
import ChatRoom.Lib.Words
import ChatRoom.Lib.Codec
import ChatRoom.Lib.StdString
import ChatRoom.Lib.CString
import ChatRoom.Lib.StdContainers
import ChatRoom.Lib.Numerals
import ChatRoom.Lib.Extraction
import ChatRoom.Lib.Memory
import ChatRoom.Lib.CPointer
import ChatRoom.Lib.Followed
import ChatRoom.Lib.Delivery
import ChatRoom.Lib.Mirror
import ChatRoom.Wire
import ChatRoom.Msg
import ChatRoom.Records
import ChatRoom.MsgBuffer
import ChatRoom.RoomKeeper
import ChatRoom.RoomKeeperInvariant
import ChatRoom.MsgReading
import ChatRoom.MsgSequence
import ChatRoom.MsgWriting
import ChatRoom.Worker
import ChatRoom.WorkerSafety
import ChatRoom.ChatRouting
import ChatRoom.Client
import ChatRoom.ClientReading
import ChatRoom.ReceiveBounds
import ChatRoom.ClientView
import ChatRoom.RoomAccess
import ChatRoom.PasswordSecrecy
import ChatRoom.RoomListView
import ChatRoom.SessionErasure
import ChatRoom.ProtocolRoundTrip
import ChatRoom.InputParser
import ChatRoom.InputAcceptance
import ChatRoom.ClientInput
import ChatRoom.InputScanning
import ChatRoom.InputDecoding
import ChatRoom.TcpSocket
import ChatRoom.TcpConnection
import ChatRoom.ConnectionCalls
import ChatRoom.FrameReassembly
import ChatRoom.SendStream
import ChatRoom.PagedWorker
import ChatRoom.PagedRefinement
import ChatRoom.RoomCounts
import ChatRoom.ServerSurvival
import ChatRoom.Server
import ChatRoom.WorkerContexts
import ChatRoom.DropReporting
import ChatRoom.LogicService
import ChatRoom.ServiceStop
import ChatRoom.ServicePair
import ChatRoom.ContextOwnership
import ChatRoom.ServiceLoops
import ChatRoom.ServerSchedule
import ChatRoom.DeliveryOrder
import ChatRoom.DropFinality
import ChatRoom.RequestOutcomes
import ChatRoom.OrderIndependence
import ChatRoom.WhisperDelivery
import ChatRoom.LogonReplies
import ChatRoom.AdvertisedLengths
import ChatRoom.Driver
import ChatRoom.ConnectionClosing
import ChatRoom.NetIo
import ChatRoom.EventRegistry
import ChatRoom.OwningConnection
import ChatRoom.MessageOwnership
import ChatRoom.OwningRefinement
import ChatRoom.ServiceStart
import ChatRoom.StartHandshake
import ChatRoom.WriteTrigger
import ChatRoom.ThreadLogger
import ChatRoom.RoomDecoding
import ChatRoom.ChatHouse
import ChatRoom.HouseRefinement
import ChatRoom.ThreadedHouse
import ChatRoom.Lib.Published
import ChatRoom.ChatSystem
import ChatRoom.SystemFlow
import ChatRoom.SystemServer
import ChatRoom.RoomPicture
import ChatRoom.ChatLog
import ChatRoom.ComingToRest
import ChatRoom.EndToEnd
import ChatRoom.Listeners
import ChatRoom.CmdLine
import ChatRoom.CmdLineReading
import ChatRoom.Main
import ChatRoom.ProgramStart
import ChatRoom.Layout
import ChatRoom.WindowBounds
import ChatRoom.WindowOverruns
