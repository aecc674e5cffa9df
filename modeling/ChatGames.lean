import ChatGames.Library.TransitionSystem
import ChatGames.Library.Splitter
import ChatGames.Library.LengthPrefix
import ChatGames.Library.ByteOrder
import ChatGames.Library.FirstGap
import ChatGames.Library.Outcome
import ChatGames.Library.Deque
import ChatGames.Library.FisherYates
import ChatGames.Library.LeaderTable.Model
import ChatGames.Library.LeaderTable.Base
import ChatGames.Library.LeaderTable.Agreement
import ChatGames.Serialization
import ChatGames.HostBuffers
import ChatGames.Connection
import ChatGames.Queue
import ChatGames.Util
import ChatGames.NetReceive
import ChatGames.Messages
import ChatGames.Lobby
import ChatGames.Server
import ChatGames.WriteQueue
import ChatGames.NetSend
import ChatGames.NetRequests
import ChatGames.NetMessages
import ChatGames.LobbyScene
import ChatGames.Room
import ChatGames.Proof.Steps
import ChatGames.Proof.Invariant
import ChatGames.Proof.Membership
import ChatGames.Proof.Posts
import ChatGames.Proof.Authority
import ChatGames.Proof.HandlerSafety
import ChatGames.Proof.RefusedJoin
import ChatGames.Proof.Creation
import ChatGames.Proof.Discipline
import ChatGames.Proof.Relay
import ChatGames.Proof.ViewFreshness
import ChatGames.Proof.Departure
import ChatGames.Proof.Registry
import ChatGames.Proof.Codec
import ChatGames.Proof.SceneSteps
import ChatGames.Proof.Overwrite
import ChatGames.Proof.Joining
import ChatGames.Proof.RoomInvariant
import ChatGames.Proof.Replicas
import ChatGames.Proof.Refinement
import ChatGames.Proof.Convergence
import ChatGames.Proof.Records
import ChatGames.Proof.FrameLength
import ChatGames.Proof.Naming
import ChatGames.Proof.Allocation
import ChatGames.Proof.Spinning
import ChatGames.MainLoop
import ChatGames.Gui
import ChatGames.Proof.Switching
import ChatGames.Proof.VoteCount
import ChatGames.OpenRoom
import ChatGames.Proof.Members
import ChatGames.Proof.Listed
import ChatGames.Proof.StaleVotes
import ChatGames.Proof.Colors
import ChatGames.Proof.DequeRefinement
import ChatGames.Proof.Fields
import ChatGames.Proof.HexColor
import ChatGames.Proof.Shuffling
import ChatGames.Proof.Clicks
import ChatGames.Library.Decoder
import ChatGames.LuaValue
import ChatGames.MsgPack
import ChatGames.Library.Significand
import ChatGames.Proof.Numbers
import ChatGames.Proof.Packing
import ChatGames.Proof.Unpacking
import ChatGames.LobbyCodec
import ChatGames.Proof.LobbyCodec
import ChatGames.WireRoom
import ChatGames.Proof.Behind
import ChatGames.Proof.Packets
import ChatGames.Proof.Fitting
import ChatGames.Proof.WireClients
import ChatGames.Proof.WireRefinement
import ChatGames.Library.Backlog
import ChatGames.Proof.Lag
import ChatGames.Proof.Reception
import ChatGames.Links
import ChatGames.Network
import ChatGames.Proof.Downlink
import ChatGames.Proof.Network
import ChatGames.Proof.Uplink
import ChatGames.Proof.Sendable
import ChatGames.Proof.Episodes
import ChatGames.Proof.Mirror
import ChatGames.Proof.Playing
import ChatGames.Proof.Conversation
import ChatGames.BlobBuffer
import ChatGames.Proof.Growth
import ChatGames.BlobFormat
import ChatGames.Proof.BlobFormat
import ChatGames.Proof.FixedStep
import ChatGames.Proof.Triggers
