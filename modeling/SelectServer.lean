import SelectServer.Lib.Cursor
import SelectServer.Lib.LineRuns
import SelectServer.Lib.History
import SelectServer.Lib.Ledger
import SelectServer.Lib.Trace
import SelectServer.Lib.Framing
import SelectServer.Lib.Paging
import SelectServer.Lib.Digits
import SelectServer.Lib.Loops
import SelectServer.Lib.OutParam
import SelectServer.Protocol
import SelectServer.Codec
import SelectServer.DecodeOutputs
import SelectServer.CodecRoundTrip
import SelectServer.CodecInverse
import SelectServer.OmokGame
import SelectServer.OmokBoard
import SelectServer.LineCounts
import SelectServer.Room
import SelectServer.UserNames
import SelectServer.RoomManager
import SelectServer.RoomInvariant
import SelectServer.RoomCalls
import SelectServer.OmokHistory
import SelectServer.RoomRuns
import SelectServer.GameRecords
import SelectServer.GameResults
import SelectServer.Network
import SelectServer.PacketProcessor
import SelectServer.ChatClient
import SelectServer.Notifications
import SelectServer.RoomPages
import SelectServer.RoomListScan
import SelectServer.Handlers
import SelectServer.Server
import SelectServer.Replies
import SelectServer.RoomActs
import SelectServer.ClientMirror
import SelectServer.QueuedResults
import SelectServer.ClientSync
import SelectServer.ResultDelivery
import SelectServer.PacketFraming
import SelectServer.TcpNetwork
import SelectServer.TcpClient
import SelectServer.Connection
import SelectServer.TcpSessions
import SelectServer.BufferBounds
import SelectServer.TurnTimeouts
import SelectServer.TimeoutOrder
import SelectServer.RoomFrames
import SelectServer.Readiness
import SelectServer.GameMoves
import SelectServer.DefensiveBranches
import SelectServer.SessionStreams
import SelectServer.UpdateTermination
import SelectServer.NetworkRefinement
import SelectServer.LoginDesk
import SelectServer.LoginDeadlines
import SelectServer.SessionCleanup
import SelectServer.ReadablePackets
import SelectServer.RoomPictures
import SelectServer.RoomAnnouncements
import SelectServer.Lib.Footprint
import SelectServer.RoomIndependence
import SelectServer.LoginRequired
import SelectServer.Broadcasts
import SelectServer.RoomIdText
import SelectServer.Lib.Programs
import SelectServer.NetworkCalls
import SelectServer.LogicOnNetwork
import SelectServer.SelectLoop
import SelectServer.ServerApp
import SelectServer.Lib.TextInput
import SelectServer.ClientCommands
import SelectServer.ClientApp
import SelectServer.SessionBuffers
import SelectServer.World
import SelectServer.LinkStreams
import SelectServer.WorldStreams
import SelectServer.WorldViews
import SelectServer.WorldExits
import SelectServer.Lib.Attendance
import SelectServer.ServerLoad
import SelectServer.ConsoleInput
import SelectServer.OmokSymmetry
import SelectServer.ServerCalls
import SelectServer.StoneOrigins
import SelectServer.TypedStones
import SelectServer.TypedChats
import SelectServer.CatchingUp
import SelectServer.WorldConsoles
import SelectServer.TypedEnds
