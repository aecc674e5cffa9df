import ChatGames.Proof.Invariant

/-!
# What a step posts

A step only appends to send queues. The type of a frame is the byte behind its length, the sender's
id of a relayed message the byte behind that. Nothing but a `sendMessage` posts a relayed message,
and that one goes to the players of the sender's lobby under other ids than its own.
-/

namespace ChatGames

/-! ### Frames -/

def frameType (frame : Bytes) : Option UInt8 := frame[4]?

/-- The player id a relayed message is tagged with. -/
def relayTag (frame : Bytes) : Option UInt8 := frame[5]?

def IsJoined (frame : Bytes) : Prop := frameType frame = some 3

def IsRelay (frame : Bytes) : Prop := frameType frame = some 8

instance (frame : Bytes) : Decidable (IsRelay frame) :=
  inferInstanceAs (Decidable (_ = _))

def IsUpdate (frame : Bytes) : Prop := frameType frame = some 10

instance (frame : Bytes) : Decidable (IsUpdate frame) :=
  inferInstanceAs (Decidable (_ = _))

theorem packet_eq (data : Bytes) : packet data = toBigEndian 4 data.length ++ data := rfl

theorem packet_getElem? (data : Bytes) (idx : Nat) : (packet data)[4 + idx]? = data[idx]? := by
  rw [packet_eq, List.getElem?_append_right (by simp), toBigEndian_length, Nat.add_sub_cancel_left]

theorem frameType_packet (data : Bytes) : frameType (packet data) = data[0]? :=
  packet_getElem? data 0

theorem relayTag_packet (data : Bytes) : relayTag (packet data) = data[1]? :=
  packet_getElem? data 1

theorem encodeRelayMessage_eq (playerId : Nat) (msg : Bytes) :
    encodeRelayMessage playerId msg =
      8 :: UInt8.ofNat playerId :: (toBigEndian 2 msg.length ++ msg) := rfl

theorem encodePlayers_buffer {Sid : Type} (wbuf : BufferWriter) (players : List (Player Sid)) :
    ∃ rest, (encodePlayers wbuf players).buffer = wbuf.buffer ++ rest := by
  induction players generalizing wbuf with
  | nil => exact ⟨[], (List.append_nil _).symm⟩
  | cons player players ih =>
      obtain ⟨rest, hrest⟩ := ih ((wbuf.integer 1 player.id).string 1 player.name)
      rw [encodePlayers, List.foldl_cons, ← encodePlayers, hrest]
      simp only [BufferWriter.string, BufferWriter.integer, List.append_assoc]
      exact ⟨_, rfl⟩

@[simp]
theorem frameType_encodeRelayMessage (playerId : Nat) (msg : Bytes) :
    frameType (packet (encodeRelayMessage playerId msg)) = some 8 := by
  rw [frameType_packet, encodeRelayMessage_eq, List.getElem?_cons_zero]

@[simp]
theorem relayTag_encodeRelayMessage (playerId : Nat) (msg : Bytes) :
    relayTag (packet (encodeRelayMessage playerId msg)) = some (UInt8.ofNat playerId) := by
  rw [relayTag_packet, encodeRelayMessage_eq, List.getElem?_cons_succ, List.getElem?_cons_zero]

@[simp]
theorem frameType_encodeLobbyJoined (lobbyId : Bytes) (playerId : Nat) :
    frameType (packet (encodeLobbyJoined lobbyId playerId)) = some 3 := by
  rw [frameType_packet]
  rfl

@[simp]
theorem frameType_encodeLobbyUpdate {Sid : Type} (lobby : Lobby Sid) :
    frameType (packet (encodeLobbyUpdate lobby)) = some 10 := by
  obtain ⟨rest, hrest⟩ := encodePlayers_buffer ((BufferWriter.empty.integer 1
    MessageType.updateLobby.val).integer 1 lobby.players.length) lobby.players
  rw [frameType_packet, encodeLobbyUpdate, BufferWriter.toString, hrest]
  rfl

/-! ### One step -/

namespace Server

/-- What a step puts in the send queue of a connection. -/
def posted {Sid : Type} (s s' : Server Sid) (T : Sid) : List Bytes :=
  (s'.sessions T).sendQueue.drop (s.sessions T).sendQueue.length

variable {Sid : Type} [DecidableEq Sid] {s s' : Server Sid} {e : Event Sid}

omit [DecidableEq Sid] in
theorem posted_of_eq {T : Sid} {frames : List Bytes}
    (h : (s'.sessions T).sendQueue = (s.sessions T).sendQueue ++ frames) :
    s.posted s' T = frames := by
  rw [posted, h, List.drop_left]

theorem mem_postsTo {players : List (Player Sid)} {T : Sid} {data frame : Bytes}
    (h : frame ∈ postsTo players T data) :
    frame = packet data ∧ ∃ player ∈ players, player.connection = T := by
  obtain ⟨player, hplayer, rfl⟩ := List.mem_map.mp h
  obtain ⟨hmem, hconnection⟩ := List.mem_filter.mp hplayer
  exact ⟨rfl, player, hmem, of_decide_eq_true hconnection⟩

theorem mem_postsTo_self {players : List (Player Sid)} {player : Player Sid}
    (hplayer : player ∈ players) (data : Bytes) :
    packet data ∈ postsTo players player.connection data :=
  List.mem_map.mpr ⟨player, List.mem_filter.mpr ⟨hplayer, decide_eq_true rfl⟩, rfl⟩

theorem sendQueue_leaveLobby (s : Server Sid) (S T : Sid) (L : LobbyRef) (lobby : Lobby Sid) :
    ((((s.setLobby L lobby).setSession S { s.sessions S with
      playerId := none
      pending := some .leaveLobby }).sendToPlayers lobby.players
        (encodeLobbyUpdate lobby)).sessions T).sendQueue = (s.sessions T).sendQueue ++
          if (s.sessions T).alive then postsTo lobby.players T (encodeLobbyUpdate lobby)
          else [] := by
  by_cases hT : T = S <;> simp [hT]

theorem sendQueue_enterLobby (s : Server Sid) (S T : Sid) (L : LobbyRef) (lobby : Lobby Sid)
    (id : Nat) :
    (((((s.setLobby L lobby).setSession S { s.sessions S with
      playerId := some id
      pending := none }).sendMessage S (encodeLobbyJoined lobby.name id)).sendToPlayers
        lobby.players (encodeLobbyUpdate lobby)).sessions T).sendQueue = (s.sessions T).sendQueue ++
          ((if T = S then [packet (encodeLobbyJoined lobby.name id)] else []) ++
            if (s.sessions T).alive then postsTo lobby.players T (encodeLobbyUpdate lobby)
            else []) := by
  by_cases hT : T = S <;> simp [hT]

theorem sendQueue_sendUpdate (s : Server Sid) (S T : Sid) (wbuf : Bytes) :
    (((s.setSession S { s.sessions S with pending := none }).sendMessage S wbuf).sessions
      T).sendQueue = (s.sessions T).sendQueue ++ if T = S then [packet wbuf] else [] := by
  by_cases hT : T = S <;> simp [hT]

variable [Fintype Sid]

/-- The frames a step to `s'` can post to `T`. -/
def MayPost (s : Server Sid) (e : Event Sid) (s' : Server Sid) (T : Sid) (frame : Bytes) : Prop :=
  (∃ lobbyId id, e = .resume T ∧ (s'.sessions T).playerId = some id ∧
      frame = packet (encodeLobbyJoined lobbyId id)) ∨
    (∃ lobby : Lobby Sid, frame = packet (encodeLobbyUpdate lobby)) ∨
    ∃ msg draws L playerId, e = .message e.session (.sendMessage msg) draws ∧
      s.Idle e.session ∧ (s.sessions e.session).lobby = some L ∧
      (s.sessions e.session).playerId = some playerId ∧
      frame = packet (encodeRelayMessage playerId msg) ∧
      ∃ player ∈ (s.lobbies L).players, player.connection = T ∧ player.id ≠ playerId

theorem Step.exists_frames (h : Step s e s') (hinv : s.Inv) (T : Sid) :
    ∃ frames, (s'.sessions T).sendQueue = (s.sessions T).sendQueue ++ frames ∧
      ∀ frame ∈ frames, s.MayPost e s' T frame := by
  have hupdate {players : List (Player Sid)} {lobby : Lobby Sid} {frame : Bytes} {alive : Bool}
      (hframe : frame ∈ if alive then postsTo players T (encodeLobbyUpdate lobby) else []) :
      s.MayPost e s' T frame := by
    split at hframe
    · exact Or.inr (Or.inl ⟨lobby, (mem_postsTo hframe).1⟩)
    · exact absurd hframe List.not_mem_nil
  cases h with
  | @leaveLobby S draws L playerId lobby hidle hlobby hplayer hremove =>
      exact ⟨_, sendQueue_leaveLobby s S T L lobby, fun frame => hupdate⟩
  | @sendMessage S msg draws L playerId hidle hlobby hplayer =>
      refine ⟨_, by simp; rfl, fun frame hframe => ?_⟩
      split at hframe
      · obtain ⟨rfl, player, hmem, hconnection⟩ := mem_postsTo hframe
        obtain ⟨hmem, hid⟩ := List.mem_filter.mp hmem
        exact Or.inr (Or.inr ⟨msg, draws, L, playerId, rfl, hidle, hlobby, hplayer, rfl, player,
          hmem, hconnection, by simpa using hid⟩)
      · exact absurd hframe List.not_mem_nil
  | @enterLobby S playerName L id lobby hpending hlobby hadd =>
      refine ⟨_, sendQueue_enterLobby s S T L lobby id, fun frame hframe => ?_⟩
      rcases List.mem_append.mp hframe with hjoined | hupdated
      · split at hjoined
        · rename_i hT
          subst hT
          exact Or.inl ⟨_, id, rfl, by simp, List.mem_singleton.mp hjoined⟩
        · exact absurd hjoined List.not_mem_nil
      · exact hupdate hupdated
  | @sendUpdate S wbuf hpending =>
      refine ⟨_, sendQueue_sendUpdate s S T wbuf, fun frame hframe => ?_⟩
      obtain ⟨lobby, rfl⟩ := hinv.update S wbuf hpending
      split at hframe
      · exact Or.inr (Or.inl ⟨lobby, List.mem_singleton.mp hframe⟩)
      · exact absurd hframe List.not_mem_nil
  | setLobbyLocked | nothing =>
      exact ⟨[], by simp, fun _ hframe => absurd hframe List.not_mem_nil⟩
  | @createLobby S | @joinUnknown S | @joinLobby S | @requestLobbyUpdate S | @refuse S
  | @resetLobby S | @disconnect S =>
      exact ⟨[], by by_cases hT : T = S <;> simp [hT],
        fun _ hframe => absurd hframe List.not_mem_nil⟩

theorem Step.sendQueue (h : Step s e s') (hinv : s.Inv) (T : Sid) :
    (s'.sessions T).sendQueue = (s.sessions T).sendQueue ++ s.posted s' T := by
  obtain ⟨frames, hframes, -⟩ := h.exists_frames hinv T
  rw [posted_of_eq hframes, hframes]

theorem Step.mayPost (h : Step s e s') (hinv : s.Inv) {T : Sid} {frame : Bytes}
    (hframe : frame ∈ s.posted s' T) : s.MayPost e s' T frame := by
  obtain ⟨frames, hframes, hmay⟩ := h.exists_frames hinv T
  rw [posted_of_eq hframes] at hframe
  exact hmay frame hframe

end Server

end ChatGames
