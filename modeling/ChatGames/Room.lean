import ChatGames.LobbyScene
import ChatGames.Library.TransitionSystem

/-!
# A room

One lobby of the server and the clients that join it and stay, in one state. A frame goes from a
client's `sendQueue` to its socket, is read by its session, posted by the session to the other
players one after the other, and received by their clients in front of some call of `net.update`.
Steps of different sessions and clients interleave.

A session reads its next frame only after it has posted the last one to everybody. It posts under a
`shared_lock` and a player is added under a `unique_lock`, so that nobody joins while a session is
posting. An error of a client leads nowhere: it makes no further step.
-/

namespace ChatGames

structure Room (Sid : Type) where
  lobby : Lobby Sid
  playerId : Sid → Option Nat
  /-- What the loop of a session's `processSendMessage` has still to post. -/
  posts : Sid → List (Sid × Net.Frame LobbyMessage)
  /-- What the server has sent to a client that has not received it. -/
  inbox : Sid → List (Net.Frame LobbyMessage)
  clients : Sid → Client

inductive RoomEvent (Sid : Type) where
  | join (C : Sid) (playerName : Bytes)
  | relay (C : Sid)
  | post (C : Sid)
  | update (C : Sid) (count : Nat) (buttons : Buttons)
deriving DecidableEq

/-- What `ülp.shuffle` makes of the indices of `playerColors`. -/
structure ShuffledColors where
  indices : List Nat
  perm : indices.Perm (List.range' 1 numPlayerColors)

namespace Room

variable {Sid : Type}

def init (lobbyName : Bytes) (colors : Sid → ShuffledColors) : Room Sid where
  lobby := Lobby.new lobbyName
  playerId _ := none
  posts _ := []
  inbox _ := []
  clients C := Client.init (colors C).indices

variable [DecidableEq Sid] (s : Room Sid)

def setClient (C : Sid) (client : Client) : Room Sid :=
  { s with clients := Function.update s.clients C client }

/-- `sendResponse` and `sendToAll` of a player that was added. -/
def welcome (C : Sid) (id : Nat) (lobby : Lobby Sid) (T : Sid) : List (Net.Frame LobbyMessage) :=
  (if T = C then [.lobbyJoined lobby.name id] else []) ++
    (lobby.players.filter (·.connection = T)).map fun _ =>
      .updateLobby (Net.listing lobby.players)

def join (C : Sid) (playerName : Bytes) : Option (Room Sid) :=
  if s.playerId C = none ∧ s.lobby.canJoin ∧
      ∀ player ∈ s.lobby.players, s.posts player.connection = [] then
    match s.lobby.addPlayer playerName C with
    | .ok (id, lobby) => some { s with
        lobby := lobby
        playerId := Function.update s.playerId C (some id)
        inbox := fun T => s.inbox T ++ welcome C id lobby T }
    | .error _ => none
  else
    none

/-- `processSendMessage`, up to its loop. -/
def relay (C : Sid) : Option (Room Sid) :=
  match s.playerId C, (s.clients C).sent with
  | some id, msg :: sent =>
      if s.posts C = [] then
        some { s.setClient C { s.clients C with sent := sent } with
          posts := Function.update s.posts C ((s.lobby.players.filter (·.id ≠ id)).map fun player =>
            (player.connection, .relayMessage id msg)) }
      else
        none
  | _, _ => none

/-- One round of the loop of `processSendMessage`. -/
def post (C : Sid) : Option (Room Sid) :=
  match s.posts C with
  | (T, frame) :: posts => some { s with
      posts := Function.update s.posts C posts
      inbox := Function.update s.inbox T (s.inbox T ++ [frame]) }
  | [] => none

/-- `count` frames arrive at a client, and its scene calls `net.update`. -/
def update (games : List Game) (C : Sid) (count : Nat) (buttons : Buttons) : Option (Room Sid) :=
  match (s.clients C).update games ((s.inbox C).take count) buttons with
  | .ok client => some { s.setClient C client with
      inbox := Function.update s.inbox C ((s.inbox C).drop count) }
  | .error _ => none

def step (games : List Game) : RoomEvent Sid → Option (Room Sid)
  | .join C playerName => s.join C playerName
  | .relay C => s.relay C
  | .post C => s.post C
  | .update C count buttons => s.update games C count buttons

end Room

def roomSystem {Sid : Type} [DecidableEq Sid] (games : List Game) (lobbyName : Bytes)
    (colors : Sid → ShuffledColors) : TransitionSystem (Room Sid) (RoomEvent Sid) where
  init := Room.init lobbyName colors
  step s e := s.step games e

end ChatGames
