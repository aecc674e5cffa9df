import ChatGames.LobbyCodec
import ChatGames.NetRequests
import ChatGames.OpenRoom
import ChatGames.Server

/-!
# A room on the wire

The open room once more, with bytes where that one has messages and frames. A scene's messages are
packed by `msgpack.pack` and written by `net.sendMessage`; the session takes them off its stream,
reads them and writes what it posts; and a client takes them off the stream that it receives and
unpacks them in its handlers.

What a call of `net.update` receives are whole packets. A socket takes all that it is given.
-/

namespace ChatGames

inductive WireError where
  | net (err : LuaError)
  | scene (err : SceneError)

/-- A client with the module `net` under it. What `client` would keep of its own in `sendQueue` and
`sent` is packed at the end of each call. -/
structure WireClient where
  client : Client
  reader : BlobReader
  writer : BlobWriter
  recvQueue : Queue Bytes
  sendQueue : List Bytes
  /-- What the socket took from `sendQueue` and the server has still to read. -/
  sent : Bytes

namespace WireClient

def init (playerColorIndices : List Nat) : WireClient where
  client := Client.init playerColorIndices
  reader := ⟨[], 0⟩
  writer := ⟨[]⟩
  recvQueue := .new
  sendQueue := []
  sent := []

variable (wire : WireClient)

/-- The local `receive` of `net.lua`, with what the handlers do. -/
def receive (tonumber : Bytes → Option Rat) (packets : List Bytes) :
    Except LuaError WireClient := do
  let net ← Net.receive tonumber (Net.messageHandlers LobbyMessage.unpack)
    ⟨wire.recvQueue, ⟨wire.reader, wire.client.net⟩⟩ (.timeout packets.flatten)
  .ok { wire with
    client := { wire.client with net := net.handled.net }
    reader := net.handled.reader
    recvQueue := net.recvQueue }

def send : WireClient :=
  { wire with
    sent := wire.sent ++ wire.sendQueue.flatten
    sendQueue := [] }

/-- `net.sendMessage` -/
def sendMessage (msg : LobbyMessage) : Except LuaError WireClient := do
  let packed ← msg.pack
  .ok { wire with
    sendQueue := wire.sendQueue ++ [Net.encodeFrame wire.writer (.sendMessage packed)] }

/-- The client after its scene is done, with the messages that the scene has sent. -/
def finish (client : Client) : Except LuaError WireClient :=
  client.sendQueue.foldlM sendMessage { wire with client := { client with sendQueue := [] } }

def update (tonumber : Bytes → Option Rat) (games : List Game) (packets : List Bytes)
    (buttons : Buttons) : Except WireError WireClient := do
  let wire ← (wire.receive tonumber packets).mapError .net
  match wire.client.net.events with
  | [] => do
      let client ← (wire.client.sceneUpdate games buttons none).mapError .scene
      (wire.send.finish client).mapError .net
  | event :: events => do
      let client ← ((wire.client.popEvent events).sceneUpdate games buttons (some event)).mapError
        .scene
      (wire.finish client).mapError .net

end WireClient

structure WireRoom (Sid : Type) where
  lobby : Lobby Sid
  playerId : Sid → Option Nat
  /-- What the loop of a session's `processSendMessage` has still to post. -/
  posts : Sid → List (Sid × Bytes)
  /-- The packets that the server has sent to a client that has not received them. -/
  inbox : Sid → List Bytes
  clients : Sid → WireClient
  joined : Sid → Bool

namespace WireRoom

variable {Sid : Type}

def init (lobbyName : Bytes) (colors : Sid → ShuffledColors) : WireRoom Sid where
  lobby := Lobby.new lobbyName
  playerId _ := none
  posts _ := []
  inbox _ := []
  clients C := WireClient.init (colors C).indices
  joined _ := false

variable [DecidableEq Sid] (s : WireRoom Sid)

/-- `sendResponse` and `sendToAll` of a player that was added. -/
def welcome (C : Sid) (id : Nat) (lobby : Lobby Sid) (T : Sid) : List Bytes :=
  (if T = C then [packet (encodeLobbyJoined lobby.name id)] else []) ++
    (lobby.players.filter (·.connection = T)).map fun _ => packet (encodeLobbyUpdate lobby)

/-- `sendToAll` of a list that a player was removed from. -/
def farewell (lobby : Lobby Sid) (T : Sid) : List Bytes :=
  (lobby.players.filter (·.connection = T)).map fun _ => packet (encodeLobbyUpdate lobby)

def join (C : Sid) (playerName : Bytes) : Option (WireRoom Sid) :=
  if s.joined C = false ∧ s.playerId C = none ∧ s.lobby.canJoin ∧
      ∀ player ∈ s.lobby.players, s.posts player.connection = [] then
    match s.lobby.addPlayer playerName C with
    | .ok (id, lobby) => some { s with
        lobby := lobby
        playerId := Function.update s.playerId C (some id)
        inbox := fun T => s.inbox T ++ welcome C id lobby T
        joined := Function.update s.joined C true }
    | .error _ => none
  else
    none

/-- `processLeaveLobby` -/
def leave (C : Sid) : Option (WireRoom Sid) :=
  match s.playerId C with
  | some id =>
      if ∀ player ∈ s.lobby.players, s.posts player.connection = [] then
        match s.lobby.removePlayer id with
        | .ok lobby => some { s with
            lobby := lobby
            playerId := Function.update s.playerId C none
            inbox := fun T => s.inbox T ++ farewell lobby T }
        | .error _ => none
      else
        none
  | none => none

/-- The next message of a session's stream, which is a `sendMessage`, with the rest of the
stream. -/
def nextMessage (sent : Bytes) : Option (Bytes × Bytes) :=
  match readMessage sent with
  | .ok (some msg, rest) =>
      match processMessage msg with
      | .ok (some (.sendMessage packed)) => some (packed, rest)
      | _ => none
  | _ => none

/-- `processSendMessage`, up to its loop. -/
def relay (C : Sid) : Option (WireRoom Sid) :=
  match s.playerId C, nextMessage (s.clients C).sent with
  | some id, some (packed, rest) =>
      if s.posts C = [] then
        some { s with
          clients := Function.update s.clients C { s.clients C with sent := rest }
          posts := Function.update s.posts C ((s.lobby.players.filter (·.id ≠ id)).map fun player =>
            (player.connection, encodeRelayMessage id packed)) }
      else
        none
  | _, _ => none

/-- One round of the loop of `processSendMessage`. -/
def post (C : Sid) : Option (WireRoom Sid) :=
  match s.posts C with
  | (T, data) :: posts => some { s with
      posts := Function.update s.posts C posts
      inbox := Function.update s.inbox T (s.inbox T ++ [packet data]) }
  | [] => none

/-- `count` packets arrive at a client, and its scene calls `net.update`. -/
def update (tonumber : Bytes → Option Rat) (games : List Game) (C : Sid) (count : Nat)
    (buttons : Buttons) : Option (WireRoom Sid) :=
  match (s.clients C).update tonumber games ((s.inbox C).take count) buttons with
  | .ok client => some { s with
      clients := Function.update s.clients C client
      inbox := Function.update s.inbox C ((s.inbox C).drop count) }
  | .error _ => none

def step (tonumber : Bytes → Option Rat) (games : List Game) :
    OpenRoomEvent Sid → Option (WireRoom Sid)
  | .join C playerName => s.join C playerName
  | .leave C => s.leave C
  | .relay C => s.relay C
  | .post C => s.post C
  | .update C count buttons => s.update tonumber games C count buttons

end WireRoom

def wireRoomSystem {Sid : Type} [DecidableEq Sid] (tonumber : Bytes → Option Rat)
    (games : List Game) (lobbyName : Bytes) (colors : Sid → ShuffledColors) :
    TransitionSystem (WireRoom Sid) (OpenRoomEvent Sid) where
  init := WireRoom.init lobbyName colors
  step s e := s.step tonumber games e

end ChatGames
