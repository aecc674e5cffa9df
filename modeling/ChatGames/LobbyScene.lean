import ChatGames.NetMessages
import Mathlib.Data.List.AList

/-!
# The scenes waitForJoin and lobby

A tick of `scenes/lobby.lua` calls `net.update` until the event queue is empty, and then does the
rest of its work. Every call receives what has arrived, so other clients may act in between: a step
of a client, `Client.update`, is one such call with what the scene does on its result. `Client.tick`
is a whole tick.

`playerData` is a table from player ids to entries whose fields may be `nil`. A game is named by its
index in `games`.
-/

namespace ChatGames

/-! ### Data -/

structure PlayerEntry where
  color : Option Nat
  vote : Option Nat
deriving DecidableEq

/-- The `{id, color, vote}` of an `updatePlayerData`. -/
structure PlayerRow where
  id : Nat
  color : Option Nat
  vote : Option Nat
deriving DecidableEq

/-- A message of the lobby scene; `other` has a type that the scene does not know. -/
inductive LobbyMessage where
  | vote (vote : Option Nat)
  | updatePlayerData (data : List PlayerRow)
  | other
deriving DecidableEq

abbrev PlayerData := AList fun _ : Nat => PlayerEntry

namespace PlayerData

/-- The loop of `sendPlayerData`, in the order of the table's entries. -/
def rows (playerData : PlayerData) : List PlayerRow :=
  playerData.entries.map fun entry => ⟨entry.1, entry.2.color, entry.2.vote⟩

/-- The loop over `msg.data`; a later row overwrites an earlier one of the same id. -/
def ofRows (data : List PlayerRow) : PlayerData :=
  data.foldl (fun playerData row => playerData.insert row.id ⟨row.color, row.vote⟩) ∅

/-- `playerData[playerId] or {}` -/
def entry (playerData : PlayerData) (playerId : Nat) : PlayerEntry :=
  (playerData.lookup playerId).getD ⟨none, none⟩

end PlayerData

structure Game where
  minPlayers : Nat
  maxPlayers : Nat
deriving DecidableEq

/-- `#playerColors` -/
def numPlayerColors : Nat := 12

inductive Scene where
  | waitForJoin
  | lobby
deriving DecidableEq

/-- What stops a tick, with the text of the error. `noPlayers` is `net.isMaster` on an empty
`net.players`, `noEntry` a vote without an entry in `playerData` to write it to. -/
inductive SceneError where
  | unexpectedEvent (text : LuaError)
  | noPlayers (text : LuaError)
  | outOfColors (text : LuaError)
  | noGames (text : LuaError)
  | voteFinished (text : LuaError)
  | noEntry (text : LuaError)
deriving DecidableEq

/-- The buttons `gui.update` finds triggered, game buttons by their index. -/
structure Buttons where
  games : List Nat
  vote : Bool
  watch : Bool
deriving DecidableEq

/-- What happened to a client. No code reads it: the last vote it clicked, the ids that the last
table it took over lists, and the senders of the votes it processed since. -/
structure History where
  clicked : Option Nat
  listed : List Nat
  voted : List Nat
deriving DecidableEq

structure Client where
  scene : Scene
  net : Net.Table LobbyMessage
  playerData : PlayerData
  playerColorIndices : List Nat
  selectedGame : Option Nat
  startHidden : Bool
  sendQueue : List LobbyMessage
  /-- What the socket took from `sendQueue` and the server has still to read. -/
  sent : List LobbyMessage
  /-- The lobby scene is in the middle of its loop over the events. -/
  ticking : Bool
  history : History
deriving DecidableEq

namespace Client

def init (playerColorIndices : List Nat) : Client where
  scene := .waitForJoin
  net := .init
  playerData := ∅
  playerColorIndices := playerColorIndices
  selectedGame := none
  startHidden := false
  sendQueue := []
  sent := []
  ticking := false
  history := ⟨none, [], []⟩

def receive (client : Client) (frames : List (Net.Frame LobbyMessage)) : Client :=
  { client with net := client.net.receive frames }

/-- The local `send` of `net.lua`. -/
def send (client : Client) : Client :=
  { client with
    sent := client.sent ++ client.sendQueue
    sendQueue := [] }

def sendMessage (client : Client) (msg : LobbyMessage) : Client :=
  { client with sendQueue := client.sendQueue ++ [msg] }

def isMaster (client : Client) : Except SceneError Bool :=
  (client.net.isMaster none).mapError .noPlayers

def sendPlayerData (client : Client) : Client :=
  client.sendMessage (.updatePlayerData client.playerData.rows)

def sendVote (client : Client) (vote : Nat) : Client := client.sendMessage (.vote (some vote))

/-- `playerData[playerId].vote = vote`, on an entry that is there or was just made. -/
def setVote (client : Client) (playerId : Nat) (vote : Option Nat) : Client :=
  let entry := { client.playerData.entry playerId with vote := vote }
  { client with playerData := client.playerData.insert playerId entry }

def addEntry (client : Client) (playerId : Nat) : Client :=
  let entry := client.playerData.entry playerId
  { client with playerData := client.playerData.insert playerId entry }

/-! ### A message -/

def processMessage (client : Client) (playerId : Nat) (msg : LobbyMessage) :
    Except SceneError Client :=
  let client := client.addEntry playerId
  match msg with
  | .vote vote => do
      let client := client.setVote playerId vote
      let client := { client with history.voted := client.history.voted ++ [playerId] }
      if ← client.isMaster then
        .ok client.sendPlayerData
      else
        .ok client
  | .updatePlayerData data => do
      if !(← client.isMaster) then
        .ok { client with
          playerData := .ofRows data
          history := { client.history with
            listed := data.map PlayerRow.id
            voted := [] } }
      else
        .ok client
  | .other => .ok client

/-! ### The start button -/

def getPlayersByVote (client : Client) (gameIndex : Nat) : List Nat :=
  (client.playerData.entries.filter fun entry => entry.2.vote = some gameIndex).map Sigma.fst

/-- What the `reduce` in `voteFinished` accumulates: a list of players and, from the second on,
lengths of such. -/
inductive Accumulator where
  | table (players : List Nat)
  | number (n : Nat)

def Accumulator.length : Accumulator → Except SceneError Accumulator
  | table players => .ok (.number players.length)
  | number _ => .error (.voteFinished "attempt to get length of local 'players' (a number value)")

/-- `ülp.reduce` -/
def reduce {α ε : Type} (func : α → α → Except ε α) : List α → Except ε (Option α)
  | [] => .ok none
  | acc :: list => (list.foldlM func acc).map some

def totalVotes (votes : List (List Nat)) : Except SceneError Nat := do
  let acc ← reduce (fun players _ => players.length) (votes.map Accumulator.table)
  match acc with
  | some (.number totalVotes) => .ok totalVotes
  | some (.table _) => .error (.voteFinished
      "attempt to perform arithmetic on local 'totalVotes' (a table value)")
  | none => .error (.voteFinished
      "attempt to perform arithmetic on local 'totalVotes' (a nil value)")

/-- The lists in `votes` are distinct objects, so that `ülp.findKey` finds the index of the list it
is given. -/
def voteFinished (games : List Game) (client : Client) : Except SceneError Bool := do
  let indices := List.range' 1 games.length
  let totalVotes ← totalVotes (indices.map client.getPlayersByVote)
  if totalVotes + (client.getPlayersByVote 0).length < client.net.players.length then
    .ok false
  else
    let gamesVotedFor := indices.filter fun gameIndex =>
      (client.getPlayersByVote gameIndex).length > 0
    if gamesVotedFor.length > 1 then
      .ok false
    else
      match gamesVotedFor with
      | [] => .error (.voteFinished
          "attempt to get length of local 'votesForGame' (a nil value)")
      | gameIndex :: _ =>
          match games[gameIndex - 1]? with
          | none => .error (.voteFinished "attempt to index field '?' (a nil value)")
          | some game =>
              let numVotes := (client.getPlayersByVote gameIndex).length
              .ok (!(numVotes < game.minPlayers || numVotes > game.maxPlayers))

/-! ### The rest of a tick -/

/-- The loop over `net.players`; the flag is `addedPlayerData`. -/
def addPlayerData : List Net.NetPlayer → PlayerData → List Nat → Bool →
    Except SceneError (PlayerData × List Nat × Bool)
  | [], playerData, indices, added => .ok (playerData, indices, added)
  | player :: players, playerData, indices, added =>
      match playerData.lookup player.id with
      | some _ => addPlayerData players playerData indices added
      | none =>
          match indices.getLast? with
          | none => .error (.outOfColors "Ran out of player colors")
          | some color =>
              addPlayerData players (playerData.insert player.id ⟨some color, none⟩)
                indices.dropLast true

/-- The master gives every listed player an entry. -/
def completePlayerData (client : Client) : Except SceneError Client := do
  if ← client.isMaster then
    let (playerData, indices, added) ←
      addPlayerData client.net.players client.playerData client.playerColorIndices false
    let client := { client with
      playerData := playerData
      playerColorIndices := indices }
    if added then
      .ok client.sendPlayerData
    else
      .ok client
  else
    .ok client

/-- The position of the watch button is read off the last game button. -/
def layout (games : List Game) (client : Client) : Except SceneError Client :=
  if games.isEmpty then
    .error (.noGames "attempt to index field '?' (a nil value)")
  else
    .ok client

/-- `net.isMaster() and voteFinished()` -/
def masterVoteFinished (games : List Game) (client : Client) : Except SceneError Bool := do
  if ← client.isMaster then
    client.voteFinished games
  else
    .ok false

def showStart (games : List Game) (client : Client) : Except SceneError Client := do
  let showStart ← client.masterVoteFinished games
  .ok { client with startHidden := !showStart }

def selectGame (games : List Game) (buttons : Buttons) (client : Client) : Client :=
  let triggered := (List.range' 1 games.length).filter fun game => game ∈ buttons.games
  { client with selectedGame := triggered.getLast?.or client.selectedGame }

def pressVote (client : Client) : Except SceneError Client := do
  let vote := client.selectedGame.getD 0
  match client.net.playerId.bind fun playerId =>
      (client.playerData.lookup playerId).map fun _ => playerId with
  | none => .error (.noEntry "attempt to index field '?' (a nil value)")
  | some playerId =>
      let client := client.setVote playerId (some vote)
      let client := { client with history.clicked := some vote }
      if ← client.isMaster then
        .ok client.sendPlayerData
      else
        .ok (client.sendVote vote)

def pressWatch (client : Client) : Client := { client with selectedGame := none }

/-- What `scene.tick` does after its loop. -/
def finishTick (games : List Game) (buttons : Buttons) (client : Client) :
    Except SceneError Client := do
  let client ← client.completePlayerData
  let client ← client.layout games
  let client ← client.showStart games
  let client := client.selectGame games buttons
  let client ← (if buttons.vote then client.pressVote else .ok client)
  let client := if buttons.watch then client.pressWatch else client
  .ok { client with ticking := false }

/-! ### A call of `net.update` -/

/-- `net.events:getName` -/
def eventName : Net.NetEvent LobbyMessage → String
  | .lobbyJoined _ _ => "lobbyJoined"
  | .lobbyUpdated _ => "lobbyUpdated"
  | .message _ _ => "message"

/-- An event in `waitForJoin`. -/
def enterOn (client : Client) : Net.NetEvent LobbyMessage → Except SceneError Client
  | .lobbyJoined _ _ => .ok { client with
      scene := .lobby
      selectedGame := none }
  | event => .error (.unexpectedEvent ("Unexpected event: " ++ eventName event))

/-- An event in the loop of the lobby's tick. -/
def processEvent (client : Client) : Net.NetEvent LobbyMessage → Except SceneError Client
  | .message playerId msg => client.processMessage playerId msg
  | _ => .ok client

def popEvent (client : Client) (events : List (Net.NetEvent LobbyMessage)) : Client :=
  { client with net.events := events }

def goOn (client : Client) : Client := { client with ticking := true }

/-- What the current scene does when `net.update` returns an event, or returns `nil`. -/
def sceneUpdate (games : List Game) (buttons : Buttons) (client : Client) :
    Option (Net.NetEvent LobbyMessage) → Except SceneError Client
  | some event =>
      match client.scene with
      | .waitForJoin => client.enterOn event
      | .lobby => client.goOn.processEvent event
  | none =>
      match client.scene with
      | .waitForJoin => .ok client
      | .lobby => client.finishTick games buttons

/-- `net.update` after `frames` have arrived, and what the current scene does on its result. -/
def update (games : List Game) (frames : List (Net.Frame LobbyMessage)) (buttons : Buttons)
    (client : Client) : Except SceneError Client :=
  let client := client.receive frames
  match client.net.events with
  | [] => client.send.sceneUpdate games buttons none
  | event :: events => (client.popEvent events).sceneUpdate games buttons (some event)

/-- The loop of `scene.tick`, with nothing more arriving, for at most `fuel` calls. -/
def tickLoop (games : List Game) (buttons : Buttons) : Nat → Client → Except SceneError Client
  | 0, client => .ok client
  | fuel + 1, client => do
      let client ← client.update games [] buttons
      if client.ticking then tickLoop games buttons fuel client else .ok client

/-- A tick of the current scene before which `frames` have arrived. The loop takes one call for
every event and a last one. -/
def tick (games : List Game) (frames : List (Net.Frame LobbyMessage)) (buttons : Buttons)
    (client : Client) : Except SceneError Client :=
  let client := client.receive frames
  tickLoop games buttons (client.net.events.length + 1) client

/-! ### Drawing -/

/-- The colors `scene.draw` looks up in `playerColors`: those of the listed players that have an
entry, and those of the players that vote for a game or to watch. -/
def drawnColors (games : List Game) (client : Client) : List (Option Nat) :=
  client.net.players.filterMap (fun player =>
      (client.playerData.lookup player.id).map PlayerEntry.color) ++
    (List.range' 1 games.length ++ [0]).flatMap fun gameIndex =>
      (client.getPlayersByVote gameIndex).map fun playerId =>
        (client.playerData.entry playerId).color

end Client

end ChatGames
