import ChatGames.Lobby
import ChatGames.Messages
import ChatGames.NetReceive
import Mathlib.Data.List.Sort

/-!
# What the client is told

The handlers in `net.lua` read the fields of a frame through one reader they share, push an event
and keep what the frame said in the table `net`. The table's part of the work is
`Table.lobbyJoined`, `Table.relayMessage` and `Table.updateLobby`; the scenes see no other.
-/

namespace ChatGames

structure BlobReader where
  data : Bytes
  readPtr : Nat
deriving DecidableEq

namespace BlobReader

def reset (_reader : BlobReader) (data : Bytes) : BlobReader := ⟨data, 0⟩

def size (reader : BlobReader) : Nat := reader.data.length

def raw (len : Nat) (reader : BlobReader) : Except LuaError (Bytes × BlobReader) :=
  if reader.size < reader.readPtr + len then
    .error "Out of data"
  else
    .ok ((reader.data.drop reader.readPtr).take len,
      { reader with readPtr := reader.readPtr + len })

def unsigned (width : Nat) (reader : BlobReader) : Except LuaError (Nat × BlobReader) := do
  let (bytes, reader) ← reader.raw width
  .ok (ofBigEndian bytes, reader)

def u8 (reader : BlobReader) : Except LuaError (Nat × BlobReader) := reader.unsigned 1

def u16 (reader : BlobReader) : Except LuaError (Nat × BlobReader) := reader.unsigned 2

/-- The reader has `rest` still to read. -/
def At (reader : BlobReader) (rest : Bytes) : Prop :=
  reader.data.drop reader.readPtr = rest ∧ reader.readPtr ≤ reader.size

variable {reader : BlobReader} {rest : Bytes}

theorem at_reset (reader : BlobReader) (data : Bytes) : (reader.reset data).At data :=
  ⟨rfl, Nat.zero_le _⟩

theorem At.raw {str : Bytes} (h : reader.At (str ++ rest)) :
    ∃ reader', reader.raw str.length = .ok (str, reader') ∧ reader'.At rest := by
  obtain ⟨hdrop, hle⟩ := h
  have hlength : reader.size - reader.readPtr = str.length + rest.length := by
    rw [← List.length_append, ← hdrop, List.length_drop, size]
  refine ⟨{ reader with readPtr := reader.readPtr + str.length }, ?_, ?_, ?_⟩
  · rw [BlobReader.raw, if_neg (by omega), hdrop, List.take_left]
  · rw [← List.drop_drop, hdrop, List.drop_left]
  · change reader.readPtr + str.length ≤ reader.size
    omega

theorem At.unsigned {width n : Nat} (hn : n < 256 ^ width)
    (h : reader.At (toBigEndian width n ++ rest)) :
    ∃ reader', reader.unsigned width = .ok (n, reader') ∧ reader'.At rest := by
  obtain ⟨reader', hraw, hrest⟩ := h.raw
  rw [toBigEndian_length] at hraw
  refine ⟨reader', ?_, hrest⟩
  rw [BlobReader.unsigned, hraw]
  change Except.ok (ofBigEndian (toBigEndian width n), reader') = _
  rw [ofBigEndian_toBigEndian_of_lt hn]

theorem At.u8 {n : Nat} (hn : n < 256) (h : reader.At (toBigEndian 1 n ++ rest)) :
    ∃ reader', reader.u8 = .ok (n, reader') ∧ reader'.At rest := h.unsigned hn

theorem At.u16 {n : Nat} (hn : n < 65536) (h : reader.At (toBigEndian 2 n ++ rest)) :
    ∃ reader', reader.u16 = .ok (n, reader') ∧ reader'.At rest := h.unsigned hn

theorem At.readPtr_eq (h : reader.At []) : reader.readPtr = reader.size :=
  Nat.le_antisymm h.2 (List.drop_eq_nil_iff.mp h.1)

end BlobReader

namespace Net

/-! ### The table -/

structure NetPlayer where
  id : Nat
  name : Bytes
deriving DecidableEq

/-- The client's copy of a players list. -/
def listing {Sid : Type} (players : List (Player Sid)) : List NetPlayer :=
  players.map fun player => ⟨player.id, player.name⟩

inductive NetEvent (β : Type) where
  | lobbyJoined (lobbyId : Bytes) (playerId : Nat)
  | lobbyUpdated (players : List NetPlayer)
  | message (playerId : Nat) (message : β)
deriving DecidableEq

/-- What a frame from the server holds, once it is read. -/
inductive Frame (β : Type) where
  | lobbyJoined (lobbyId : Bytes) (playerId : Nat)
  | updateLobby (players : List NetPlayer)
  | relayMessage (playerId : Nat) (message : β)
deriving DecidableEq

/-- The event that is pushed for a frame. -/
def Frame.event {β : Type} : Frame β → NetEvent β
  | .lobbyJoined lobbyId playerId => .lobbyJoined lobbyId playerId
  | .updateLobby players => .lobbyUpdated players
  | .relayMessage playerId message => .message playerId message

/-- The table `net`, and the queue `events`, to which the handlers push and from which `net.update`
pops. `β` is what `msgpack.unpack` returns. -/
structure Table (β : Type) where
  playerId : Option Nat
  lobbyId : Option Bytes
  players : List NetPlayer
  events : List (NetEvent β)
deriving DecidableEq

namespace Table

variable {β : Type}

def init : Table β := ⟨none, none, [], []⟩

def lobbyJoined (net : Table β) (lobbyId : Bytes) (playerId : Nat) : Table β :=
  { net with
    events := net.events ++ [.lobbyJoined lobbyId playerId]
    playerId := some playerId
    lobbyId := some lobbyId }

def relayMessage (net : Table β) (playerId : Nat) (message : β) : Table β :=
  { net with events := net.events ++ [.message playerId message] }

def updateLobby (net : Table β) (players : List NetPlayer) : Table β :=
  { net with
    players := players
    events := net.events ++ [.lobbyUpdated players] }

/-- What a frame tells the table. -/
def dispatch (net : Table β) : Frame β → Table β
  | .lobbyJoined lobbyId playerId => net.lobbyJoined lobbyId playerId
  | .updateLobby players => net.updateLobby players
  | .relayMessage playerId message => net.relayMessage playerId message

def receive (net : Table β) (frames : List (Frame β)) : Table β := frames.foldl dispatch net

/-- `playerId` is the optional argument. -/
def isMaster (net : Table β) (playerId : Option Nat) : Except LuaError Bool :=
  match net.players with
  | [] => .error "attempt to index field '?' (a nil value)"
  | first :: _ => .ok (decide (some first.id = playerId.or net.playerId))

theorem events_receive (net : Table β) (frames : List (Frame β)) :
    (net.receive frames).events = net.events ++ frames.map Frame.event := by
  induction frames generalizing net with
  | nil => exact (List.append_nil _).symm
  | cons frame frames ih =>
      have hframe : (net.dispatch frame).events = net.events ++ [frame.event] := by
        cases frame <;> rfl
      change ((net.dispatch frame).receive frames).events = _
      rw [ih, hframe, List.map_cons, List.append_assoc, List.singleton_append]

/-- All events say what the old events and the frames say. -/
theorem forall_events_receive {net : Table β} {frames : List (Frame β)} {P : NetEvent β → Prop}
    (hnet : ∀ event ∈ net.events, P event) (hframes : ∀ frame ∈ frames, P frame.event) :
    ∀ event ∈ (net.receive frames).events, P event := by
  intro event hevent
  rw [events_receive] at hevent
  rcases List.mem_append.mp hevent with hold | hnew
  · exact hnet event hold
  · obtain ⟨frame, hframe, rfl⟩ := List.mem_map.mp hnew
    exact hframes frame hframe

theorem receive_append (net : Table β) (frames more : List (Frame β)) :
    net.receive (frames ++ more) = (net.receive frames).receive more := List.foldl_append

/-- Every list the table has had came in a frame. -/
theorem players_receive (net : Table β) (frames : List (Frame β)) :
    (net.receive frames).players = net.players ∨
      .updateLobby (net.receive frames).players ∈ frames := by
  induction frames generalizing net with
  | nil => exact Or.inl rfl
  | cons frame frames ih =>
      rcases ih (net.dispatch frame) with hsame | hmem
      · cases frame with
        | lobbyJoined | relayMessage => exact Or.inl hsame
        | updateLobby players =>
            right
            change Frame.updateLobby
              ((net.dispatch (.updateLobby players)).receive frames).players ∈ _
            rw [hsame]
            exact List.mem_cons_self
      · exact Or.inr (List.mem_cons_of_mem _ hmem)

/-- And so did every id. -/
theorem playerId_receive_cases (net : Table β) (frames : List (Frame β)) :
    (net.receive frames).playerId = net.playerId ∨
      ∃ lobbyId id, .lobbyJoined lobbyId id ∈ frames ∧ (net.receive frames).playerId = some id := by
  induction frames generalizing net with
  | nil => exact Or.inl rfl
  | cons frame frames ih =>
      rcases ih (net.dispatch frame) with hsame | ⟨lobbyId, id, hmem, hid⟩
      · cases frame with
        | updateLobby | relayMessage => exact Or.inl hsame
        | lobbyJoined lobbyId id => exact Or.inr ⟨lobbyId, id, List.mem_cons_self, hsame⟩
      · exact Or.inr ⟨lobbyId, id, List.mem_cons_of_mem _ hmem, hid⟩

theorem players_receive_congr {net net' : Table β} (h : net.players = net'.players)
    (frames : List (Frame β)) : (net.receive frames).players = (net'.receive frames).players := by
  induction frames generalizing net net' with
  | nil => exact h
  | cons frame frames ih =>
      have hframe : (net.dispatch frame).players = (net'.dispatch frame).players := by
        cases frame with
        | lobbyJoined | relayMessage => exact h
        | updateLobby players => rfl
      exact ih hframe

/-- The last list counts. -/
theorem players_receive_updateLobby (net : Table β) {players : List NetPlayer}
    {frames : List (Frame β)} (hframes : ∀ frame ∈ frames, frame = .updateLobby players)
    (hne : frames ≠ []) : (net.receive frames).players = players := by
  induction frames using List.reverseRecOn with
  | nil => exact absurd rfl hne
  | append_singleton frames frame _ =>
      rw [receive_append, hframes frame (by simp)]
      rfl

/-- All `lobbyJoined` say the same. -/
theorem playerId_receive (net : Table β) {playerId : Option Nat} {frames : List (Frame β)}
    (hframes : ∀ lobbyId id, Frame.lobbyJoined lobbyId id ∈ frames → some id = playerId)
    (hnet : net.playerId = playerId) : (net.receive frames).playerId = playerId := by
  induction frames generalizing net with
  | nil => exact hnet
  | cons frame frames ih =>
      apply ih (net.dispatch frame) fun lobbyId id hmem =>
        hframes lobbyId id (List.mem_cons_of_mem _ hmem)
      cases frame with
      | lobbyJoined lobbyId id => exact hframes lobbyId id List.mem_cons_self
      | updateLobby | relayMessage => exact hnet

end Table

/-! ### The handlers -/

/-- The module's `reader` and its table. -/
structure Module (β : Type) where
  reader : BlobReader
  net : Table β

def luaAssert (cond : Bool) : Except LuaError Unit :=
  if cond then .ok () else .error "assertion failed!"

section Handlers

variable {β : Type} (unpack : Bytes → Except LuaError β)

def handleLobbyJoined (msg : Bytes) (client : Module β) : Except LuaError (Module β) := do
  let reader := client.reader.reset msg
  let (msgType, reader) ← reader.u8
  luaAssert (msgType = MessageType.lobbyJoined.val)
  let (lobbyIdLen, reader) ← reader.u8
  let (lobbyId, reader) ← reader.raw lobbyIdLen
  let (playerId, reader) ← reader.u8
  .ok ⟨reader, client.net.lobbyJoined lobbyId playerId⟩

def handleRelayMessage (msg : Bytes) (client : Module β) : Except LuaError (Module β) := do
  let reader := client.reader.reset msg
  let (msgType, reader) ← reader.u8
  luaAssert (msgType = MessageType.relayMessage.val)
  let (playerId, reader) ← reader.u8
  let (msgLen, reader) ← reader.u16
  let (msg, reader) ← reader.raw msgLen
  let message ← unpack msg
  .ok ⟨reader, client.net.relayMessage playerId message⟩

/-- The loop over the players, `numPlayers` of which are still to be read. -/
def readPlayers : Nat → BlobReader → List NetPlayer →
    Except LuaError (List NetPlayer × BlobReader)
  | 0, reader, players => .ok (players, reader)
  | numPlayers + 1, reader, players => do
      let (id, reader) ← reader.u8
      let (nameLen, reader) ← reader.u8
      let (name, reader) ← reader.raw nameLen
      let players := (players ++ [NetPlayer.mk id name]).insertionSort fun a b => a.id ≤ b.id
      readPlayers numPlayers reader players

def handleUpdateLobby (msg : Bytes) (client : Module β) : Except LuaError (Module β) := do
  let reader := client.reader.reset msg
  let (msgType, reader) ← reader.u8
  luaAssert (msgType = MessageType.updateLobby.val)
  let (numPlayers, reader) ← reader.u8
  let (players, reader) ← readPlayers numPlayers reader []
  .ok ⟨reader, client.net.updateLobby players⟩

def messageHandlers (msgType : UInt8) : Option (Bytes → Module β → Except LuaError (Module β)) :=
  if msgType = 3 then some handleLobbyJoined
  else if msgType = 8 then some (handleRelayMessage unpack)
  else if msgType = 10 then some handleUpdateLobby
  else none

end Handlers

/-! ### A frame in one piece -/

/-- A frame that comes in one piece, with nothing left from before, is dispatched and leaves nothing
over. -/
theorem receive_frame {σ : Type} (tonumber : Bytes → Option Rat)
    (messageHandlers : UInt8 → Option (Bytes → σ → Except LuaError σ)) {queue : Queue Bytes}
    (hqueue : queue.Holds []) {msg : Bytes} (hmsg : msg.length < 2 ^ 32) (handled : σ) :
    ∃ queue', queue'.Holds [] ∧
      receive tonumber messageHandlers ⟨queue, handled⟩ (.timeout (LengthPrefix.frame 4 msg)) =
        (dispatch messageHandlers msg handled).bind fun handled => .ok ⟨queue', handled⟩ := by
  have hlength : (LengthPrefix.frame 4 msg).length = 4 + msg.length := by
    rw [LengthPrefix.frame, List.length_append, toBigEndian_length]
  have hpushed : (queue.push (LengthPrefix.frame 4 msg)).Holds [LengthPrefix.frame 4 msg] :=
    hqueue.push _
  have hnext : frames.next (LengthPrefix.frame 4 msg) = some (msg, []) := by
    have hframe : LengthPrefix.next 4 (2 ^ 32) (LengthPrefix.frame 4 msg ++ []) =
        some (msg, []) := LengthPrefix.next_frame hmsg (by omega) []
    rwa [List.append_nil] at hframe
  obtain ⟨queue', hqueue', hloop⟩ := receiveLoop_frame tonumber messageHandlers hpushed hnext
    (LengthPrefix.frame 4 msg).length handled
  refine ⟨queue', hqueue', ?_⟩
  rw [receive, readSocket]
  change receiveLoop tonumber messageHandlers _ _ = _
  rw [if_pos (by omega), hpushed.toList_eq, List.flatten_singleton, hloop]
  apply congrArg
  funext handled'
  rw [hlength, Nat.add_comm, receiveLoop, if_pos (hqueue'.empty_iff.mpr rfl)]

end Net

end ChatGames
