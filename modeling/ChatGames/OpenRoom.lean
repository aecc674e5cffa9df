import ChatGames.Room

/-!
# A room that players leave

A room whose players may also leave. The server takes the leaving player off the list, so that its
id is free for the next one to join, and tells the players that stay. Nothing in the client leads
out of the lobby scene: a player that comes back does so in a new client, and so every client joins
once.
-/

namespace ChatGames

structure OpenRoom (Sid : Type) extends Room Sid where
  /-- The clients that have joined, whether they have left or not. -/
  joined : Sid → Bool

inductive OpenRoomEvent (Sid : Type) where
  | join (C : Sid) (playerName : Bytes)
  | leave (C : Sid)
  | relay (C : Sid)
  | post (C : Sid)
  | update (C : Sid) (count : Nat) (buttons : Buttons)
deriving DecidableEq

namespace OpenRoom

variable {Sid : Type}

def init (lobbyName : Bytes) (colors : Sid → ShuffledColors) : OpenRoom Sid :=
  ⟨Room.init lobbyName colors, fun _ => false⟩

variable [DecidableEq Sid] (s : OpenRoom Sid)

def withRoom (room : Room Sid) : OpenRoom Sid := { s with toRoom := room }

def join (C : Sid) (playerName : Bytes) : Option (OpenRoom Sid) :=
  if s.joined C then
    none
  else
    (s.toRoom.join C playerName).map fun room => ⟨room, Function.update s.joined C true⟩

/-- `sendToAll` of a list that a player was removed from. -/
def farewell (lobby : Lobby Sid) (T : Sid) : List (Net.Frame LobbyMessage) :=
  (lobby.players.filter (·.connection = T)).map fun _ => .updateLobby (Net.listing lobby.players)

/-- `processLeaveLobby` -/
def leave (C : Sid) : Option (OpenRoom Sid) :=
  match s.playerId C with
  | some id =>
      if ∀ player ∈ s.lobby.players, s.posts player.connection = [] then
        match s.lobby.removePlayer id with
        | .ok lobby => some { s with
            lobby := lobby
            playerId := Function.update s.playerId C none
            inbox := fun T => s.inbox T ++ farewell lobby T }
        | .error _ => none
      else
        none
  | none => none

def step (games : List Game) : OpenRoomEvent Sid → Option (OpenRoom Sid)
  | .join C playerName => s.join C playerName
  | .leave C => s.leave C
  | .relay C => (s.toRoom.relay C).map s.withRoom
  | .post C => (s.toRoom.post C).map s.withRoom
  | .update C count buttons => (s.toRoom.update games C count buttons).map s.withRoom

end OpenRoom

def openRoomSystem {Sid : Type} [DecidableEq Sid] (games : List Game) (lobbyName : Bytes)
    (colors : Sid → ShuffledColors) : TransitionSystem (OpenRoom Sid) (OpenRoomEvent Sid) where
  init := OpenRoom.init lobbyName colors
  step s e := s.step games e

end ChatGames
