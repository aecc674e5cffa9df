import ChatGames.NetMessages
import ChatGames.Proof.Posts

/-!
# From the server to the client

The server writes lengths of one, two and four bytes without a look at what they have to hold, and
the client reads them back. What makes the two agree is on the server's side: names come out of
strings with a length of one byte, or out of the word lists, and no lobby has more than 255 players.
-/

namespace ChatGames

/-- `adjectives` and `nouns` in `words.cpp`, of which no two words make a name of more than 255
bytes. -/
structure WordLists where
  adjectives : List Bytes
  nouns : List Bytes
  short : ∀ adjective ∈ adjectives, ∀ noun ∈ nouns, (adjective ++ noun).length < 256

/-- What `getRandomLobbyName` can return. -/
def WordLists.Generates (words : WordLists) (name : Bytes) : Prop :=
  ∃ adjective ∈ words.adjectives, ∃ noun ∈ words.nouns, name = adjective ++ noun

theorem WordLists.Generates.length_lt {words : WordLists} {name : Bytes}
    (h : words.Generates name) : name.length < 256 := by
  obtain ⟨adjective, hadjective, noun, hnoun, rfl⟩ := h
  exact words.short adjective hadjective noun hnoun

/-! ### Lobbies that fit -/

/-- Every name has a length that one byte can hold. -/
structure Lobby.Fits {Sid : Type} (lobby : Lobby Sid) : Prop where
  name_lt : lobby.name.length < 256
  playerName_lt : ∀ player ∈ lobby.players, player.name.length < 256

namespace Server

section Definitions

variable {Sid : Type}

/-- What sessions get to process comes out of `processMessage`, and names out of the word lists. -/
def FromBytes (words : WordLists) (_s : Server Sid) : Event Sid → Prop
  | .message _ msg draws =>
      (∃ bytes, processMessage bytes = .ok (some msg)) ∧ ∀ name ∈ draws, words.Generates name
  | .resume _ | .disconnect _ => True

structure Named (s : Server Sid) : Prop where
  lobby : ∀ L, (s.lobbies L).Fits
  creating : ∀ S playerName, (s.sessions S).pending = some (.createLobby playerName) →
    playerName.length < 256
  joining : ∀ S playerName, (s.sessions S).pending = some (.joinLobby playerName) →
    playerName.length < 256

end Definitions

variable {Sid : Type} [DecidableEq Sid] [Fintype Sid] {s s' : Server Sid} {e : Event Sid}
  {words : WordLists}

theorem Step.lobby_fits (h : Step s e s') (hinv : s.Inv) (hnamed : s.Named)
    (hbytes : s.FromBytes words e) (L : LobbyRef) : (s'.lobbies L).Fits := by
  have hchange := h.lobbyChange L
  generalize hlobby : s'.lobbies L = lobby at hchange
  cases hchange with
  | same => exact hnamed.lobby L
  | lockSet => exact ⟨(hnamed.lobby L).name_lt, (hnamed.lobby L).playerName_lt⟩
  | created hL hcreated =>
      rw [← hlobby, hL]
      cases h with
      | createLobby hidle hname =>
          have hgenerated := hbytes.2 _ (List.mem_of_find?_eq_some hname)
          refine ⟨?_, ?_⟩
          · simpa [Lobby.new] using hgenerated.length_lt
          · simp [Lobby.new]
      | _ => simp at hcreated
  | left he hidle hlobby' hid hremove =>
      obtain ⟨rfl, -⟩ := Lobby.removePlayer_eq_ok (hinv.valid L) hremove
      refine ⟨(hnamed.lobby L).name_lt, fun player hplayer => ?_⟩
      exact (hnamed.lobby L).playerName_lt player (List.mem_filter.mp hplayer).1
  | entered hpending hlobby' hsession he hadd =>
      have hadded := (hinv.valid L).added hadd
      refine ⟨hadded.name_eq ▸ (hnamed.lobby L).name_lt, fun player hplayer => ?_⟩
      rcases List.mem_cons.mp (hadded.perm.mem_iff.mp hplayer) with rfl | hplayer
      · rcases hpending with hpending | ⟨hpending, -⟩
        · exact hnamed.creating _ _ hpending
        · exact hnamed.joining _ _ hpending
      · exact (hnamed.lobby L).playerName_lt player hplayer

/-- A session that waits for a lobby's mutex brings the name its message had. -/
theorem Step.pendingName_lt (h : Step s e s') (hnamed : s.Named) (hbytes : s.FromBytes words e)
    {T : Sid} {playerName : Bytes}
    (hpending : (s'.sessions T).pending = some (.createLobby playerName) ∨
      (s'.sessions T).pending = some (.joinLobby playerName)) : playerName.length < 256 := by
  by_cases hne : T = e.session
  · subst hne
    cases h with
    | createLobby =>
        obtain ⟨⟨bytes, hread⟩, -⟩ := hbytes
        have hfits := fits_of_processMessage hread
        obtain rfl : _ = playerName := by simpa using hpending
        exact hfits
    | joinLobby =>
        obtain ⟨⟨bytes, hread⟩, -⟩ := hbytes
        have hfits := fits_of_processMessage hread
        obtain rfl : _ = playerName := by simpa using hpending
        exact hfits.1
    | joinUnknown hidle | setLobbyLocked hidle | sendMessage hidle | nothing hidle
    | disconnect hidle => simp [hidle.2] at hpending
    | leaveLobby | requestLobbyUpdate | enterLobby | refuse | resetLobby | sendUpdate =>
        simp at hpending
  · obtain ⟨-, -, hsame, -⟩ := h.others hne
    rw [hsame] at hpending
    rcases hpending with hpending | hpending
    · exact hnamed.creating T _ hpending
    · exact hnamed.joining T _ hpending

theorem Step.named (h : Step s e s') (hinv : s.Inv) (hnamed : s.Named)
    (hbytes : s.FromBytes words e) : s'.Named where
  lobby := h.lobby_fits hinv hnamed hbytes
  creating _ _ hpending := h.pendingName_lt hnamed hbytes (Or.inl hpending)
  joining _ _ hpending := h.pendingName_lt hnamed hbytes (Or.inr hpending)

omit [DecidableEq Sid] [Fintype Sid] in
theorem named_init : (init : Server Sid).Named where
  lobby _ := ⟨by simp [init, Lobby.new], by simp [init, Lobby.new]⟩
  creating _ _ h := by cases h
  joining _ _ h := by cases h

theorem inv_and_named (h : (serverSystem Sid).ReachableWhile (FromBytes words) s) :
    s.Inv ∧ s.Named :=
  inv_and_of_reachableWhile named_init Step.named h

end Server

/-! ### Reading what was written -/

namespace Net

section Definitions

variable {β : Type}

/-- A frame with this data, coming in one piece to a client with nothing left over from before, has
this effect on the table, and the reader has read all of it. -/
def Decodes (unpack : Bytes → Except LuaError β) (data : Bytes)
    (effect : Table β → Except LuaError (Table β)) : Prop :=
  ∀ (tonumber : Bytes → Option Rat) (queue : Queue Bytes) (client : Module β), queue.Holds [] →
    ∃ queue' reader', queue'.Holds [] ∧ reader'.readPtr = reader'.size ∧
      receive tonumber (messageHandlers unpack) ⟨queue, client⟩ (.timeout (packet data)) =
        (effect client.net).bind fun net => .ok ⟨queue', ⟨reader', net⟩⟩

end Definitions

variable {β : Type} {unpack : Bytes → Except LuaError β}

theorem decodes_of_handler {data : Bytes} {typeVal : UInt8}
    {msgHandler : Bytes → Module β → Except LuaError (Module β)}
    {effect : Table β → Except LuaError (Table β)}
    (hhandler : messageHandlers unpack typeVal = some msgHandler)
    (hlength : data.length < 2 ^ 32) (htype : data.head? = some typeVal)
    (hread : ∀ client : Module β, ∃ reader' : BlobReader, reader'.At [] ∧
      msgHandler data client = (effect client.net).bind fun net => .ok ⟨reader', net⟩) :
    Decodes unpack data effect := by
  intro tonumber queue client hqueue
  obtain ⟨queue', hqueue', hreceive⟩ :=
    receive_frame tonumber (messageHandlers unpack) hqueue hlength client
  obtain ⟨reader', hat, heffect⟩ := hread client
  refine ⟨queue', reader', hqueue', hat.readPtr_eq, ?_⟩
  have hdispatch : dispatch (messageHandlers unpack) data client = msgHandler data client := by
    simp only [dispatch, htype, Option.bind_some, hhandler]
  rw [packet_eq, ← LengthPrefix.frame, hreceive, hdispatch, heffect]
  cases effect client.net <;> rfl

theorem decodes_lobbyJoined {lobbyId : Bytes} {playerId : Nat} (hid : playerId < 256)
    (hname : lobbyId.length < 256) :
    Decodes unpack (encodeLobbyJoined lobbyId playerId) fun net =>
      .ok (net.lobbyJoined lobbyId playerId) := by
  have hdata : encodeLobbyJoined lobbyId playerId =
      toBigEndian 1 3 ++ (toBigEndian 1 lobbyId.length ++ (lobbyId ++
        (toBigEndian 1 playerId ++ []))) := by
    simp [encodeLobbyJoined, BufferWriter.empty, BufferWriter.integer, BufferWriter.string,
      BufferWriter.toString, MessageType.val]
  have hhandler : messageHandlers unpack 3 = some handleLobbyJoined := by simp [messageHandlers]
  rw [hdata]
  refine decodes_of_handler hhandler (by simp; omega) rfl fun client => ?_
  have hat := client.reader.at_reset (toBigEndian 1 3 ++ (toBigEndian 1 lobbyId.length ++
    (lobbyId ++ (toBigEndian 1 playerId ++ []))))
  obtain ⟨reader₁, htype, hat₁⟩ := hat.u8 (by decide)
  obtain ⟨reader₂, hlen, hat₂⟩ := hat₁.u8 hname
  obtain ⟨reader₃, hraw, hat₃⟩ := hat₂.raw
  obtain ⟨reader₄, hplayer, hat₄⟩ := hat₃.u8 hid
  refine ⟨reader₄, hat₄, ?_⟩
  simp only [handleLobbyJoined, htype, hlen, hraw, hplayer, luaAssert, MessageType.val, bind,
    Except.bind, decide_true, if_true]

theorem decodes_relayMessage {playerId : Nat} {msg : Bytes} (hid : playerId < 256)
    (hmsg : msg.length < 65536) :
    Decodes unpack (encodeRelayMessage playerId msg) fun net =>
      (unpack msg).bind fun message => .ok (net.relayMessage playerId message) := by
  have hdata : encodeRelayMessage playerId msg =
      toBigEndian 1 8 ++ (toBigEndian 1 playerId ++ (toBigEndian 2 msg.length ++
        (msg ++ []))) := by
    simp [encodeRelayMessage, BufferWriter.empty, BufferWriter.integer, BufferWriter.string,
      BufferWriter.toString, MessageType.val]
  have hhandler : messageHandlers unpack 8 = some (handleRelayMessage unpack) := by
    simp [messageHandlers]
  rw [hdata]
  refine decodes_of_handler hhandler (by simp; omega) rfl fun client => ?_
  have hat := client.reader.at_reset (toBigEndian 1 8 ++ (toBigEndian 1 playerId ++
    (toBigEndian 2 msg.length ++ (msg ++ []))))
  obtain ⟨reader₁, htype, hat₁⟩ := hat.u8 (by decide)
  obtain ⟨reader₂, hplayer, hat₂⟩ := hat₁.u8 hid
  obtain ⟨reader₃, hlen, hat₃⟩ := hat₂.u16 hmsg
  obtain ⟨reader₄, hraw, hat₄⟩ := hat₃.raw
  refine ⟨reader₄, hat₄, ?_⟩
  simp only [handleRelayMessage, htype, hplayer, hlen, hraw, luaAssert, MessageType.val, bind,
    Except.bind, decide_true, if_true]
  cases unpack msg <;> rfl

/-! ### Players lists -/

/-- A player's entry in an update. -/
def entry (player : NetPlayer) : Bytes :=
  toBigEndian 1 player.id ++ (toBigEndian 1 player.name.length ++ player.name)

theorem encodeLobbyUpdate_eq {Sid : Type} (lobby : Lobby Sid) :
    encodeLobbyUpdate lobby = toBigEndian 1 10 ++ (toBigEndian 1 lobby.players.length ++
      (listing lobby.players).flatMap entry) := by
  have hplayers (wbuf : BufferWriter) (players : List (Player Sid)) :
      (encodePlayers wbuf players).toString =
        wbuf.toString ++ (listing players).flatMap entry := by
    induction players generalizing wbuf with
    | nil => exact (List.append_nil _).symm
    | cons player players ih =>
        rw [encodePlayers, List.foldl_cons, ← encodePlayers, ih]
        simp [listing, entry, BufferWriter.integer, BufferWriter.string, BufferWriter.toString]
  rw [encodeLobbyUpdate, hplayers]
  simp [BufferWriter.empty, BufferWriter.integer, BufferWriter.toString, MessageType.val]

theorem length_flatMap_entry_le {players : List NetPlayer}
    (hnames : ∀ player ∈ players, player.name.length < 256) :
    (players.flatMap entry).length ≤ 257 * players.length := by
  induction players with
  | nil => exact Nat.zero_le _
  | cons player players ih =>
      obtain ⟨hname, hlater⟩ := List.forall_mem_cons.mp hnames
      have hrest := ih hlater
      rw [List.flatMap_cons, List.length_append, List.length_cons]
      have hentry : (entry player).length = 2 + player.name.length := by
        simp only [entry, List.length_append, toBigEndian_length]
        omega
      omega

/-- Players that come in ascending order stay where they are put. -/
theorem readPlayers_of_sorted {players : List NetPlayer}
    (hfits : ∀ player ∈ players, player.id < 256 ∧ player.name.length < 256) :
    ∀ {reader : BlobReader} {seen : List NetPlayer},
      (seen ++ players).Pairwise (fun a b => a.id ≤ b.id) →
      reader.At (players.flatMap entry) →
      ∃ reader', reader'.At [] ∧
        readPlayers players.length reader seen = .ok (seen ++ players, reader') := by
  induction players with
  | nil =>
      intro reader seen _ hat
      exact ⟨reader, hat, by rw [List.append_nil]; rfl⟩
  | cons player players ih =>
      intro reader seen hsorted hat
      obtain ⟨⟨hid, hname⟩, hlater⟩ := List.forall_mem_cons.mp hfits
      rw [List.flatMap_cons, entry, List.append_assoc, List.append_assoc] at hat
      obtain ⟨reader₁, hplayer, hat₁⟩ := hat.u8 hid
      obtain ⟨reader₂, hlen, hat₂⟩ := hat₁.u8 hname
      obtain ⟨reader₃, hraw, hat₃⟩ := hat₂.raw
      have hassoc : seen ++ player :: players = seen ++ [player] ++ players := by simp
      rw [hassoc] at hsorted ⊢
      have hsort : (seen ++ [player]).insertionSort (fun a b => a.id ≤ b.id) = seen ++ [player] :=
        ((List.pairwise_append.mp hsorted).1).insertionSort_eq
      obtain ⟨reader', hat', hread⟩ := ih hlater hsorted hat₃
      refine ⟨reader', hat', ?_⟩
      rw [List.length_cons, readPlayers]
      simp only [hplayer, hlen, hraw, bind, Except.bind]
      rw [hsort, hread]

theorem decodes_lobbyUpdate {Sid : Type} {lobby : Lobby Sid} (hvalid : lobby.Valid)
    (hfits : lobby.Fits) :
    Decodes unpack (encodeLobbyUpdate lobby) fun net =>
      .ok (net.updateLobby (listing lobby.players)) := by
  have hcount := hvalid.length_le
  have hhandler : messageHandlers unpack 10 = some handleUpdateLobby := by simp [messageHandlers]
  have hplayers : ∀ player ∈ listing lobby.players, player.id < 256 ∧ player.name.length < 256 := by
    intro player hplayer
    obtain ⟨player, hmem, rfl⟩ := List.mem_map.mp hplayer
    have hlt := hvalid.id_lt player hmem
    rw [Lobby.maxPlayers] at hlt
    exact ⟨by change player.id < 256; omega, hfits.playerName_lt player hmem⟩
  have hsorted : (listing lobby.players).Pairwise fun a b => a.id ≤ b.id :=
    List.pairwise_map.mpr (hvalid.sorted.imp Nat.le_of_lt)
  have hlength : (encodeLobbyUpdate lobby).length < 2 ^ 32 := by
    have hentries := length_flatMap_entry_le fun player hplayer => (hplayers player hplayer).2
    rw [listing, List.length_map] at hentries
    rw [encodeLobbyUpdate_eq, listing]
    simp only [List.length_append, toBigEndian_length]
    omega
  refine decodes_of_handler hhandler hlength (by rw [encodeLobbyUpdate_eq]; rfl) fun client => ?_
  have hat := client.reader.at_reset (encodeLobbyUpdate lobby)
  rw [encodeLobbyUpdate_eq] at hat
  obtain ⟨reader₁, htype, hat₁⟩ := hat.u8 (by decide)
  obtain ⟨reader₂, hlen, hat₂⟩ := hat₁.u8 (by omega)
  obtain ⟨reader', hat', hread⟩ := @readPlayers_of_sorted _ hplayers reader₂ [] hsorted hat₂
  rw [listing, List.length_map, ← listing] at hread
  refine ⟨reader', hat', ?_⟩
  rw [encodeLobbyUpdate_eq]
  simp [handleUpdateLobby, htype, hlen, hread, luaAssert, MessageType.val, bind, Except.bind]

theorem isMaster_updateLobby {Sid : Type} {players : List (Player Sid)} (hne : players ≠ [])
    (lobby : Lobby Sid) (hplayers : lobby.players = players) (net : Table β) (id : Nat) :
    (net.updateLobby (listing players)).isMaster (some id) = .ok (lobby.isPlayerMaster id) := by
  cases players with
  | nil => exact absurd rfl hne
  | cons first others =>
      rw [Lobby.isPlayerMaster, hplayers]
      simp [Table.isMaster, Table.updateLobby, listing, beq_eq_decide]

/-- **The codec.** In every state of the server the three frames it can send about a lobby are read
as what they were written from, with nothing left over, and after an update with players in it the
client takes for the master whom the server does. -/
theorem codec_exact {Sid : Type} [DecidableEq Sid] [Fintype Sid] {words : WordLists}
    {s : Server Sid} (h : (serverSystem Sid).ReachableWhile (Server.FromBytes words) s)
    (unpack : Bytes → Except LuaError β) (L : LobbyRef) :
    (∀ id, id < 256 → Decodes unpack (encodeLobbyJoined (s.lobbies L).name id) fun net =>
        .ok (net.lobbyJoined (s.lobbies L).name id)) ∧
      (Decodes unpack (encodeLobbyUpdate (s.lobbies L)) fun net =>
        .ok (net.updateLobby (listing (s.lobbies L).players))) ∧
      (∀ id payload, id < 256 → payload.length ≤ 65535 →
        Decodes unpack (encodeRelayMessage id payload) fun net =>
          (unpack payload).bind fun message => .ok (net.relayMessage id message)) ∧
      ((s.lobbies L).players ≠ [] → ∀ (net : Table β) (id : Nat),
        (net.updateLobby (listing (s.lobbies L).players)).isMaster (some id) =
          .ok ((s.lobbies L).isPlayerMaster id)) := by
  obtain ⟨hinv, hnamed⟩ := Server.inv_and_named h
  have hfits := hnamed.lobby L
  refine ⟨?_, ?_, ?_, ?_⟩
  · intro id hid
    exact decodes_lobbyJoined hid hfits.name_lt
  · exact decodes_lobbyUpdate (hinv.valid L) hfits
  · intro id payload hid hpayload
    exact decodes_relayMessage hid (Nat.lt_succ_of_le hpayload)
  · intro hne net id
    exact isMaster_updateLobby hne _ rfl net id

def boldFox : WordLists := ⟨[[98, 111, 108, 100]], [[102, 111, 120]], by decide⟩

/-- Two players in the lobby `boldfox`. A client reads this name, both players, and a message of
theirs, and the first one is the master for it, too. -/
theorem codec_exact_boldFox : ∃ s : Server (Fin 2),
    (Decodes (β := Bytes) .ok (encodeLobbyJoined (s.lobbies 0).name 1) fun net =>
        .ok (net.lobbyJoined [98, 111, 108, 100, 102, 111, 120] 1)) ∧
      (Decodes (β := Bytes) .ok (encodeLobbyUpdate (s.lobbies 0)) fun net =>
        .ok (net.updateLobby [⟨0, [106]⟩, ⟨1, [107]⟩])) ∧
      (Decodes .ok (encodeRelayMessage 1 [104, 105]) fun net =>
        .ok (net.relayMessage 1 [104, 105])) ∧
      ∀ net : Table Bytes,
        (net.updateLobby [⟨0, [106]⟩, ⟨1, [107]⟩]).isMaster (some 0) = .ok true := by
  let name : Bytes := [98, 111, 108, 100, 102, 111, 120]
  let events : List (Event (Fin 2)) := [.message 0 (.createLobby [106]) [name], .resume 0,
    .message 1 (.joinLobby [107] name) [], .resume 1]
  have hrun : ((serverSystem (Fin 2)).run events).any (fun s =>
      decide ((s.lobbies 0).name = name ∧ (s.lobbies 0).isPlayerMaster 0 = true ∧
        listing (s.lobbies 0).players = [⟨0, [106]⟩, ⟨1, [107]⟩])) = true := by
    decide
  obtain ⟨s, hs, hstate⟩ := (Option.any_eq_true _ _).mp hrun
  obtain ⟨hname, hmaster, hplayers⟩ := of_decide_eq_true hstate
  have hbytes : ∀ e ∈ events, ∀ s : Server (Fin 2), s.FromBytes boldFox e := by
    intro e he s
    simp only [events, List.mem_cons, List.not_mem_nil, or_false] at he
    rcases he with rfl | rfl | rfl | rfl
    · refine ⟨⟨[0, 1, 106], by decide⟩, fun drawn hdrawn => ?_⟩
      rw [List.mem_singleton.mp hdrawn]
      exact ⟨[98, 111, 108, 100], by decide, [102, 111, 120], by decide, rfl⟩
    · trivial
    · exact ⟨⟨2 :: 1 :: 107 :: 7 :: name, by decide⟩, by simp⟩
    · trivial
  obtain ⟨hjoined, hupdate, hrelay, hagree⟩ :=
    codec_exact (TransitionSystem.reachableWhile_of_run hs hbytes) Except.ok 0
  have hne : (s.lobbies 0).players ≠ [] := by
    intro hnil
    rw [hnil] at hplayers
    cases hplayers
  rw [hplayers] at hupdate hagree
  refine ⟨s, ?_, hupdate, hrelay 1 [104, 105] (by decide) (by decide), fun net => ?_⟩
  · have hdecodes := hjoined 1 (by decide)
    rwa [hname] at hdecodes ⊢
  · rw [hagree hne net 0, hmaster]

end Net

end ChatGames
