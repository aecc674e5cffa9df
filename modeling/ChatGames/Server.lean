import ChatGames.Lobby
import ChatGames.Messages
import ChatGames.Library.TransitionSystem
import Mathlib.Data.Fintype.Basic

/-!
# The lobby server

All sessions, lobbies and the registry in one state. Handlers of different sessions interleave; one
session's handlers run one after the other on its strand. A handler is cut where another one may
come in between: `processCreateLobby` and `processJoinLobby` before the section under the lobby's
mutex, `processLeaveLobby` before `lobby_.reset()`, `processRequestLobbyUpdate` before it sends.
What a session has still to do is its `pending`, and the next piece runs at a `resume`. The loop of
`processSendMessage` only reads the lobby and is one step here; `Room` cuts it at its posts.

A lobby lives as long as the `lobby_` of some session points to it. Session objects are named by
`Sid`, any finite type: a run has as many sessions as were accepted in it. Lobby objects are named
by the order of their creation.
-/

namespace ChatGames

abbrev LobbyRef := Nat

/-- What is left of a handler. -/
inductive Section where
  | createLobby (playerName : Bytes)
  | joinLobby (playerName : Bytes)
  | leaveLobby
  | requestLobbyUpdate (wbuf : Bytes)
deriving DecidableEq

structure Session where
  lobby : Option LobbyRef
  playerId : Option Nat
  pending : Option Section
  /-- The object exists, so that a weak pointer to it can be locked. -/
  alive : Bool
  /-- What has been posted to the write strand, in order. -/
  sendQueue : List Bytes
deriving DecidableEq

structure Server (Sid : Type) where
  sessions : Sid → Session
  lobbies : LobbyRef → Lobby Sid
  /-- The number of lobbies created so far, and the next lobby's name. -/
  created : LobbyRef
  /-- The entries of `LobbyContext::lobbies_`, weak pointers by lower-case name. -/
  registry : List (Bytes × LobbyRef)

/-- What a session's strand or its socket does next. `draws` are the names that successive calls of
`getRandomLobbyName` return, should the handler make any. -/
inductive Event (Sid : Type) where
  | message (session : Sid) (msg : ClientMessage) (draws : List Bytes)
  | resume (session : Sid)
  | disconnect (session : Sid)
deriving DecidableEq

namespace Event

variable {Sid : Type} (S : Sid)

def session : Event Sid → Sid
  | message session _ _ | resume session | disconnect session => session

@[simp]
theorem session_message (msg : ClientMessage) (draws : List Bytes) :
    (message S msg draws).session = S := rfl

@[simp]
theorem session_resume : (resume S).session = S := rfl

@[simp]
theorem session_disconnect : (disconnect S).session = S := rfl

end Event

/-- Why an event leads nowhere: the program is at fault, or the event cannot happen now. -/
inductive Stop where
  | fault (fault : Fault)
  | blocked
deriving DecidableEq

/-- The result of `to_lower_copy` is discarded, so the copy is returned as it is. -/
def toLower (str : Bytes) : Bytes := str

/-! ### Encoding -/

/-- `LobbySession::sendMessage` puts the length of the data in front of it. -/
def packet (data : Bytes) : Bytes := (BufferWriter.empty.string 4 data).toString

def encodeLobbyJoined (lobbyId : Bytes) (playerId : Nat) : Bytes :=
  (((BufferWriter.empty.integer 1 MessageType.lobbyJoined.val).string 1 lobbyId).integer 1
    playerId).toString

def encodePlayers {Sid : Type} (wbuf : BufferWriter) (players : List (Player Sid)) : BufferWriter :=
  players.foldl (fun wbuf player => (wbuf.integer 1 player.id).string 1 player.name) wbuf

def encodeLobbyUpdate {Sid : Type} (lobby : Lobby Sid) : Bytes :=
  (encodePlayers ((BufferWriter.empty.integer 1 MessageType.updateLobby.val).integer 1
    lobby.players.length) lobby.players).toString

def encodeRelayMessage (playerId : Nat) (msg : Bytes) : Bytes :=
  (((BufferWriter.empty.integer 1 MessageType.relayMessage.val).integer 1 playerId).string 2
    msg).toString

namespace Server

variable {Sid : Type} [DecidableEq Sid]

def init : Server Sid where
  sessions _ := ⟨none, none, none, true, []⟩
  lobbies _ := Lobby.new []
  created := 0
  registry := []

def setSession (s : Server Sid) (S : Sid) (session : Session) : Server Sid :=
  { s with sessions := Function.update s.sessions S session }

def setLobby (s : Server Sid) (L : LobbyRef) (lobby : Lobby Sid) : Server Sid :=
  { s with lobbies := Function.update s.lobbies L lobby }

/-! ### Sending -/

def sendMessage (s : Server Sid) (connection : Sid) (data : Bytes) : Server Sid :=
  s.setSession connection { s.sessions connection with
    sendQueue := (s.sessions connection).sendQueue ++ [packet data] }

/-- Sends to every player whose weak pointer can be locked. -/
def sendToPlayers (s : Server Sid) (players : List (Player Sid)) (data : Bytes) : Server Sid :=
  players.foldl (fun s player =>
    if (s.sessions player.connection).alive then s.sendMessage player.connection data else s) s

def sendToAll (s : Server Sid) (L : LobbyRef) (data : Bytes) : Server Sid :=
  s.sendToPlayers (s.lobbies L).players data

/-! ### The registry -/

section Registry

variable [Fintype Sid]

/-- Some session holds the lobby. -/
def Live (s : Server Sid) (L : LobbyRef) : Prop := ∃ S, (s.sessions S).lobby = some L

instance (s : Server Sid) (L : LobbyRef) : Decidable (s.Live L) :=
  inferInstanceAs (Decidable (∃ S, (s.sessions S).lobby = some L))

omit [Fintype Sid] [DecidableEq Sid] in
/-- The naming loop: the first draw that is not a key of the registry. -/
def freshName (s : Server Sid) (draws : List Bytes) : Option Bytes :=
  draws.find? fun name => (s.registry.lookup (toLower name)).isNone

def createLobby (s : Server Sid) (name : Bytes) : LobbyRef × Server Sid :=
  (s.created, { s.setLobby s.created (Lobby.new name) with
    created := s.created + 1
    registry := (toLower name, s.created) :: s.registry })

def getLobby (s : Server Sid) (name : Bytes) : Option LobbyRef :=
  match s.registry.lookup (toLower name) with
  | some L => if s.Live L then some L else none
  | none => none

end Registry

/-! ### Handlers, up to the point where another may come in between -/

section Handlers

variable [Fintype Sid]

def processCreateLobby (s : Server Sid) (S : Sid) (playerName : Bytes) (draws : List Bytes) :
    Except Stop (Server Sid) :=
  match s.freshName draws with
  | none => .error .blocked
  | some name =>
      let (L, s) := s.createLobby name
      .ok (s.setSession S { s.sessions S with
        lobby := some L
        pending := some (.createLobby playerName) })

def processJoinLobby (s : Server Sid) (S : Sid) (playerName lobbyId : Bytes) : Server Sid :=
  match s.getLobby lobbyId with
  | some L => s.setSession S { s.sessions S with
      lobby := some L
      pending := some (.joinLobby playerName) }
  | none => s.setSession S { s.sessions S with lobby := none }

def processLeaveLobby (s : Server Sid) (S : Sid) : Except Stop (Server Sid) :=
  match (s.sessions S).lobby with
  | none => .ok s
  | some L =>
      match (s.sessions S).playerId with
      | none => .error (.fault .emptyPlayerId)
      | some playerId =>
          match (s.lobbies L).removePlayer (Lobby.toId playerId) with
          | .error fault => .error (.fault fault)
          | .ok lobby =>
              let s := (s.setLobby L lobby).setSession S { s.sessions S with
                playerId := none
                pending := some .leaveLobby }
              .ok (s.sendToAll L (encodeLobbyUpdate lobby))

def setLobbyLocked (s : Server Sid) (S : Sid) (locked : Bool) : Except Stop (Server Sid) :=
  match (s.sessions S).lobby with
  | none => .ok s
  | some L =>
      match (s.sessions S).playerId with
      | none => .error (.fault .assertPlayerId)
      | some playerId =>
          if (s.lobbies L).isPlayerMaster (Lobby.toId playerId) then
            .ok (s.setLobby L { s.lobbies L with locked := locked })
          else
            .ok s

def processSendMessage (s : Server Sid) (S : Sid) (msg : Bytes) : Except Stop (Server Sid) :=
  match (s.sessions S).lobby with
  | none => .ok s
  | some L =>
      match (s.sessions S).playerId with
      | none => .error (.fault .assertPlayerId)
      | some playerId =>
          .ok (s.sendToPlayers ((s.lobbies L).players.filter (·.id ≠ playerId))
            (encodeRelayMessage playerId msg))

def processRequestLobbyUpdate (s : Server Sid) (S : Sid) : Server Sid :=
  match (s.sessions S).lobby with
  | none => s
  | some L => s.setSession S { s.sessions S with
      pending := some (.requestLobbyUpdate (encodeLobbyUpdate (s.lobbies L))) }

def process (s : Server Sid) (S : Sid) (draws : List Bytes) :
    ClientMessage → Except Stop (Server Sid)
  | .createLobby playerName => s.processCreateLobby S playerName draws
  | .joinLobby playerName lobbyId => .ok (s.processJoinLobby S playerName lobbyId)
  | .leaveLobby => s.processLeaveLobby S
  | .lockLobby => s.setLobbyLocked S true
  | .unlockLobby => s.setLobbyLocked S false
  | .sendMessage msg => s.processSendMessage S msg
  | .requestLobbyUpdate => .ok (s.processRequestLobbyUpdate S)

/-! ### What is left of them -/

omit [Fintype Sid] in
/-- The lines `processCreateLobby` and `processJoinLobby` share: add the player, tell it, and tell
everybody. -/
def enterLobby (s : Server Sid) (S : Sid) (L : LobbyRef) (playerName : Bytes) :
    Except Stop (Server Sid) :=
  match (s.lobbies L).addPlayer playerName S with
  | .error fault => .error (.fault fault)
  | .ok (id, lobby) =>
      let s := (s.setLobby L lobby).setSession S { s.sessions S with
        playerId := some id
        pending := none }
      let s := s.sendMessage S (encodeLobbyJoined lobby.name id)
      .ok (s.sendToAll L (encodeLobbyUpdate lobby))

omit [Fintype Sid] in
def resumeSection (s : Server Sid) (S : Sid) : Section → Except Stop (Server Sid)
  | .createLobby playerName =>
      match (s.sessions S).lobby with
      | some L => s.enterLobby S L playerName
      | none => .error .blocked
  | .joinLobby playerName =>
      match (s.sessions S).lobby with
      | some L =>
          if (s.lobbies L).canJoin then s.enterLobby S L playerName
          else .ok (s.setSession S { s.sessions S with pending := none })
      | none => .error .blocked
  | .leaveLobby => .ok (s.setSession S { s.sessions S with lobby := none, pending := none })
  | .requestLobbyUpdate wbuf =>
      .ok ((s.setSession S { s.sessions S with pending := none }).sendMessage S wbuf)

/-- One step. A session takes a message, or goes away, only between handlers. -/
def step (s : Server Sid) : Event Sid → Except Stop (Server Sid)
  | .message S msg draws =>
      if (s.sessions S).alive ∧ (s.sessions S).pending = none then s.process S draws msg
      else .error .blocked
  | .resume S =>
      match (s.sessions S).pending with
      | some section_ => s.resumeSection S section_
      | none => .error .blocked
  | .disconnect S =>
      if (s.sessions S).alive ∧ (s.sessions S).pending = none then
        .ok (s.setSession S { s.sessions S with lobby := none, alive := false })
      else .error .blocked

end Handlers

end Server

def serverSystem (Sid : Type) [DecidableEq Sid] [Fintype Sid] :
    TransitionSystem (Server Sid) (Event Sid) where
  init := Server.init
  step s e := (s.step e).toOption

end ChatGames
