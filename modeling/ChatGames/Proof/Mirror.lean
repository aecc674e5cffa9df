import ChatGames.Proof.Episodes
import ChatGames.Proof.Joining
import ChatGames.Proof.LobbyCodec
import ChatGames.Proof.Packets
import ChatGames.Proof.ViewFreshness

/-!
# Clients mirror the server

The handlers of `net.lua` take every frame that the session of a well-behaved client is sent, and
what they note down is the session's place: the id it was let in under, and the players listed last.
A client cannot tell whether that list has been overtaken. Where none is, its table is the lobby.
-/

namespace ChatGames

namespace Net

variable {β : Type} {unpack : Bytes → Except LuaError β} {frames : List (Frame β)}

/-- The bytes are the packet that the server makes of this frame. -/
inductive Tells (unpack : Bytes → Except LuaError β) : Frame β → Bytes → Prop
  | lobbyJoined {lobbyId : Bytes} {id : Nat} (hid : id < 256) (hname : lobbyId.length < 256) :
      Tells unpack (.lobbyJoined lobbyId id) (packet (encodeLobbyJoined lobbyId id))
  | updateLobby {Sid : Type} {lobby : Lobby Sid} (hvalid : lobby.Valid) (hfits : lobby.Fits) :
      Tells unpack (.updateLobby (listing lobby.players)) (packet (encodeLobbyUpdate lobby))
  | relayMessage {id : Nat} {msg : Bytes} {value : β} (hid : id < 256)
      (hlength : msg.length < 65536) (hunpack : unpack msg = .ok value) :
      Tells unpack (.relayMessage id value) (packet (encodeRelayMessage id msg))

theorem packet_injective : Function.Injective packet := by
  intro data data' h
  rw [packet_eq, packet_eq] at h
  exact List.append_inj_right h (by rw [toBigEndian_length, toBigEndian_length])

theorem Tells.sentAs {frame : Frame β} {bytes : Bytes} (h : Tells unpack frame bytes) :
    ∃ data, bytes = packet data ∧ SentAs unpack frame data := by
  cases h with
  | lobbyJoined hid hname => exact ⟨_, rfl, sentAs_lobbyJoined hid hname⟩
  | updateLobby hvalid hfits => exact ⟨_, rfl, sentAs_lobbyUpdate hvalid hfits⟩
  | relayMessage hid hlength hunpack => exact ⟨_, rfl, sentAs_relayMessage hid hlength hunpack⟩

theorem sentAs_of_tells {datas : List Bytes}
    (h : List.Forall₂ (Tells unpack) frames (datas.map packet)) :
    List.Forall₂ (SentAs unpack) frames datas := by
  refine (List.forall₂_map_right_iff.mp h).imp fun frame data htells => ?_
  obtain ⟨data', hdata, hsent⟩ := htells.sentAs
  rwa [packet_injective hdata]

theorem exists_datas {queue : List Bytes} (h : List.Forall₂ (Tells unpack) frames queue) :
    ∃ datas : List Bytes, queue = datas.map packet ∧ List.Forall₂ (SentAs unpack) frames datas := by
  have hpackets : ∀ bytes ∈ queue, ∃ data, bytes = packet data :=
    Pointwise.forall_right h fun frame bytes htells =>
      htells.sentAs.imp fun data hdata => hdata.1
  obtain ⟨datas, hdatas⟩ := Pointwise.exists_forall₂ hpackets
  obtain rfl : queue = datas.map packet := by
    rw [← List.forall₂_eq_eq_eq, List.forall₂_map_right_iff]
    exact hdatas
  exact ⟨datas, rfl, sentAs_of_tells h⟩

/-- Equal updates are lists of the same players. -/
theorem listing_eq_of_encodeLobbyUpdate_eq {Sid : Type} {lobby lobby' : Lobby Sid}
    (hvalid : lobby.Valid) (hfits : lobby.Fits) (hvalid' : lobby'.Valid) (hfits' : lobby'.Fits)
    (h : encodeLobbyUpdate lobby = encodeLobbyUpdate lobby') :
    listing lobby.players = listing lobby'.players := by
  let unpack : Bytes → Except LuaError Unit := fun _ => .ok ()
  have hsent : SentAs unpack _ _ := sentAs_lobbyUpdate hvalid hfits
  have hsent' : SentAs unpack _ _ := sentAs_lobbyUpdate hvalid' hfits'
  obtain ⟨reader, hdispatch⟩ := hsent.dispatch_eq ⟨⟨[], 0⟩, .init⟩
  obtain ⟨reader', hdispatch'⟩ := hsent'.dispatch_eq ⟨⟨[], 0⟩, .init⟩
  rw [h, hdispatch'] at hdispatch
  injection hdispatch with hmodule
  exact congrArg (fun client : Module Unit => client.net.players) hmodule.symm

/-- The table knows the lobby as the player with this id should. -/
structure Table.Mirrors {Sid : Type} (net : Table β) (lobby : Lobby Sid) (id : Nat) : Prop where
  playerId : net.playerId = some id
  players : net.players = listing lobby.players

theorem Table.Mirrors.isMaster_eq {Sid : Type} {net : Table β} {lobby : Lobby Sid} {id : Nat}
    (h : net.Mirrors lobby id) (hne : lobby.players ≠ []) :
    net.isMaster none = .ok (lobby.isPlayerMaster id) := by
  rw [Table.isMaster, h.players, h.playerId, Lobby.isPlayerMaster]
  cases hplayers : lobby.players with
  | nil => exact absurd hplayers hne
  | cons first others => simp [listing]; rfl

end Net

namespace Server

section Episodes

variable {β : Type} {unpack : Bytes → Except LuaError β} {Sid : Type} {M : Bytes → Prop} {T : Sid}
  {last : Option Nat} {queue : List Bytes} {frames : List (Net.Frame β)} {lobby : Lobby Sid}
  {id : Nat}

/-- What the frames in a session's queue have its client know. -/
structure Shows (unpack : Bytes → Except LuaError β) (T : Sid) (last : Option Nat)
    (queue : List Bytes) (frames : List (Net.Frame β)) : Prop where
  tells : List.Forall₂ (Net.Tells unpack) frames queue
  playerId : (Net.Table.init.receive frames).playerId = last
  players : ∀ id, last = some id → ∃ lobby : Lobby Sid, Lists lobby T id ∧
    (Net.Table.init.receive frames).players = Net.listing lobby.players ∧
      lastUpdate queue = some (packet (encodeLobbyUpdate lobby))
  listed : ∀ players, .updateLobby players ∈ frames → players ≠ []
  begins : frames = [] ∨ ∃ lobbyId id players later,
    frames = .lobbyJoined lobbyId id :: .updateLobby players :: later

theorem Lists.listing_ne_nil (h : Lists lobby T id) : Net.listing lobby.players ≠ [] := by
  obtain ⟨player, hplayer, -⟩ := h.listed
  exact List.ne_nil_of_mem (List.mem_map_of_mem hplayer)

theorem Lists.tells (h : Lists lobby T id) : Net.Tells unpack
    (.updateLobby (Net.listing lobby.players)) (packet (encodeLobbyUpdate lobby)) :=
  .updateLobby h.valid h.fits

theorem Lists.tells_joined (h : Lists lobby T id) :
    Net.Tells unpack (.lobbyJoined lobby.name id) (packet (encodeLobbyJoined lobby.name id)) := by
  obtain ⟨player, hplayer, -, rfl⟩ := h.listed
  have hlt := h.valid.id_lt player hplayer
  unfold Lobby.maxPlayers at hlt
  exact .lobbyJoined (by omega) h.fits.name_lt

theorem Shows.welcome (h : Shows unpack T last queue frames) (hlists : Lists lobby T id) :
    Shows unpack T (some id)
      (queue ++ [packet (encodeLobbyJoined lobby.name id), packet (encodeLobbyUpdate lobby)])
      (frames ++ [.lobbyJoined lobby.name id, .updateLobby (Net.listing lobby.players)]) where
  tells := List.rel_append h.tells (.cons hlists.tells_joined (.cons hlists.tells .nil))
  playerId := by
    rw [Net.Table.receive_append]
    rfl
  players id' hid := by
    obtain rfl := Option.some.inj hid
    refine ⟨lobby, hlists, ?_, ?_⟩
    · rw [Net.Table.receive_append]
      rfl
    · refine lastUpdate_append_of_mem (by simp) (frameType_encodeLobbyUpdate lobby) ?_
      simp [IsUpdate]
  listed players hmem := by
    rcases List.mem_append.mp hmem with hmem | hmem
    · exact h.listed players hmem
    · obtain rfl : players = Net.listing lobby.players := by simpa using hmem
      exact hlists.listing_ne_nil
  begins := by
    right
    rcases h.begins with rfl | ⟨lobbyId, id', players, later, rfl⟩
    · exact ⟨_, _, _, _, rfl⟩
    · exact ⟨_, _, _, _, rfl⟩

/-- Whoever knows its id has been welcomed. -/
theorem Shows.begins_append (h : Shows unpack T (some id) queue frames)
    (more : List (Net.Frame β)) : ∃ lobbyId id players later,
      frames ++ more = .lobbyJoined lobbyId id :: .updateLobby players :: later := by
  rcases h.begins with rfl | ⟨lobbyId, id', players, later, rfl⟩
  · have hplayer := h.playerId
    cases hplayer
  · exact ⟨_, _, _, _, rfl⟩

theorem Shows.update (h : Shows unpack T (some id) queue frames) (hlists : Lists lobby T id) :
    Shows unpack T (some id) (queue ++ [packet (encodeLobbyUpdate lobby)])
      (frames ++ [.updateLobby (Net.listing lobby.players)]) where
  tells := List.rel_append h.tells (.cons hlists.tells .nil)
  playerId := by
    rw [Net.Table.receive_append]
    exact h.playerId
  players id' hid := by
    obtain rfl := Option.some.inj hid
    refine ⟨lobby, hlists, ?_, ?_⟩
    · rw [Net.Table.receive_append]
      rfl
    · exact lastUpdate_append_of_mem (by simp) (frameType_encodeLobbyUpdate lobby) (by simp)
  listed players hmem := by
    rcases List.mem_append.mp hmem with hmem | hmem
    · exact h.listed players hmem
    · obtain rfl : players = Net.listing lobby.players := by simpa using hmem
      exact hlists.listing_ne_nil
  begins := Or.inr (h.begins_append _)

theorem Shows.relay (h : Shows unpack T (some id) queue frames) {playerId : Nat} {msg : Bytes}
    (hrelays : Relays M id playerId msg) {value : β} (hunpack : unpack msg = .ok value) :
    Shows unpack T (some id) (queue ++ [packet (encodeRelayMessage playerId msg)])
      (frames ++ [.relayMessage playerId value]) where
  tells := List.rel_append h.tells
    (.cons (.relayMessage hrelays.playerId_lt hrelays.length_lt hunpack) .nil)
  playerId := by
    rw [Net.Table.receive_append]
    exact h.playerId
  players id' hid := by
    obtain ⟨lobby, hlists, hplayers, hlast⟩ := h.players id' hid
    refine ⟨lobby, hlists, ?_, ?_⟩
    · rw [Net.Table.receive_append]
      exact hplayers
    · rw [lastUpdate_append_of_none (by simp [IsUpdate]), hlast]
  listed players hmem := by
    rcases List.mem_append.mp hmem with hmem | hmem
    · exact h.listed players hmem
    · simp at hmem
  begins := Or.inr (h.begins_append _)

/-- The client is told the id of the last episode and the last list. -/
theorem Episodes.shows (h : Episodes M T last queue)
    (hunpack : ∀ msg, M msg → ∃ value, unpack msg = .ok value) :
    ∃ frames, Shows unpack T last queue frames := by
  induction h with
  | nil =>
      exact ⟨[], .nil, rfl, by simp, by simp, Or.inl rfl⟩
  | welcome _ hlists ih =>
      obtain ⟨frames, hshows⟩ := ih
      exact ⟨_, hshows.welcome hlists⟩
  | update _ hlists ih =>
      obtain ⟨frames, hshows⟩ := ih
      exact ⟨_, hshows.update hlists⟩
  | relay _ hrelays ih =>
      obtain ⟨frames, hshows⟩ := ih
      obtain ⟨value, hvalue⟩ := hunpack _ hrelays.accepted
      exact ⟨_, hshows.relay hrelays hvalue⟩

end Episodes

variable {β : Type} {unpack : Bytes → Except LuaError β} {Sid : Type} [DecidableEq Sid]
  [Fintype Sid] {s : Server Sid} {words : WordLists} {M : Bytes → Prop}

theorem exists_shows (h : (serverSystem Sid).ReachableWhile (WellBehaved words M) s)
    (hunpack : ∀ msg, M msg → ∃ value, unpack msg = .ok value) (T : Sid) :
    ∃ last frames, Shows unpack T last (s.sessions T).sendQueue frames ∧
      ∀ id, (s.sessions T).playerId = some id → last = some id := by
  obtain ⟨-, -, -, hepisodic⟩ := episodic_of_reachableWhile h
  obtain ⟨last, hepisodes, hlast⟩ := hepisodic.queued T
  obtain ⟨frames, hshows⟩ := hepisodes.shows hunpack
  exact ⟨last, frames, hshows, hlast⟩

/-- The frames in a member's queue tell its client its place, as long as no list is overtaken. -/
theorem exists_mirrors
    (h : (serverSystem Sid).ReachableWhile (fun s e => s.WellBehaved words M e ∧ s.SendsFresh e) s)
    (hunpack : ∀ msg, M msg → ∃ value, unpack msg = .ok value) (T : Sid) :
    ∃ last frames, Shows unpack T last (s.sessions T).sendQueue frames ∧
      ((s.sessions T).alive = true → ∀ L id, s.EntryAt T L id →
        (Net.Table.init.receive frames).Mirrors (s.lobbies L) id) := by
  have hwell := h.mono fun _ _ hcond => hcond.1
  obtain ⟨hinv, -, hnamed, -⟩ := episodic_of_reachableWhile hwell
  obtain ⟨hord, hfresh⟩ :=
    orderly_and_viewsFresh (h.mono fun _ _ hcond => ⟨hcond.1.1, hcond.2⟩)
  obtain ⟨last, frames, hshows, hlast⟩ := exists_shows hwell hunpack T
  refine ⟨last, frames, hshows, fun halive L id hentry => ?_⟩
  obtain rfl := hlast id (hord.agrees T halive L id hentry).2
  obtain ⟨lobby, hlists, hplayers, hupdate⟩ := hshows.players id rfl
  have hsame := (hfresh T halive L ⟨id, hentry⟩).symm.trans hupdate
  have hlisting := Net.listing_eq_of_encodeLobbyUpdate_eq (hinv.valid L) (hnamed.lobby L)
    hlists.valid hlists.fits (Net.packet_injective (Option.some.inj hsame))
  exact ⟨hshows.playerId, hplayers.trans hlisting.symm⟩

end Server

/-! ### The lobby scene -/

/-- A table that the lobby scene sends, packed. -/
def LobbyMessage.Packs (packed : Bytes) : Prop :=
  ∃ msg : LobbyMessage, msg.Fits ∧ msg.pack = .ok packed

theorem LobbyMessage.unpack_of_pack {msg : LobbyMessage} {packed : Bytes} (hfits : msg.Fits)
    (hpack : msg.pack = .ok packed) : unpack packed = .ok msg := by
  obtain ⟨packed', hpack', -, hunpack⟩ := arrives hfits
  obtain rfl := Except.ok.inj (hpack.symm.trans hpack')
  exact hunpack

theorem LobbyMessage.Packs.exists_unpack {packed : Bytes} (h : Packs packed) :
    ∃ msg, unpack packed = .ok msg := by
  obtain ⟨msg, hfits, hpack⟩ := h
  exact ⟨msg, unpack_of_pack hfits hpack⟩

theorem LobbyMessage.fits_vote : Fits (.vote (some 1)) := by
  rintro n hn
  cases hn
  decide

theorem LobbyMessage.pack_vote : pack (.vote (some 1)) = .ok Server.packedVote := rfl

theorem LobbyMessage.packs_vote : Packs Server.packedVote := ⟨.vote (some 1), fits_vote, pack_vote⟩

namespace Client

/-- **Whole visits.** Whatever a session of a well-behaved client has been sent, the client's
handlers take it as frames, and however these are spread over ticks, no tick meets an unexpected
event or an empty list exactly when no tick falls between the first two. -/
theorem plays_iff {Sid : Type} [DecidableEq Sid] [Fintype Sid] {words : WordLists}
    {s : Server Sid} {S : Sid}
    (h : (serverSystem Sid).ReachableWhile (Server.WellBehaved words LobbyMessage.Packs) s)
    (hsent : (s.sessions S).sendQueue ≠ []) :
    ∃ datas frames, (s.sessions S).sendQueue = datas.map packet ∧
      List.Forall₂ (Net.SentAs LobbyMessage.unpack) frames datas ∧
        ∀ (games : List Game) (indices : List Nat) (ticks : List (Nat × Buttons)),
          (∀ error, play games ticks frames (init indices) = .error error → ¬error.AtJoin) ↔
            ¬SplitsJoin (ticks.map Prod.fst) := by
  obtain ⟨last, frames, hshows, -⟩ :=
    Server.exists_shows h (fun _ hpacks => hpacks.exists_unpack) S
  obtain ⟨datas, hqueue, hsent'⟩ := Net.exists_datas hshows.tells
  refine ⟨datas, frames, hqueue, hsent', fun games indices ticks => ?_⟩
  rcases hshows.begins with rfl | ⟨lobbyId, id, players, later, rfl⟩
  · exact absurd (List.forall₂_nil_left_iff.mp hshows.tells) hsent
  · rw [← Outcome.ends_true_iff]
    apply ends_play_iff indices ticks
    · exact hshows.listed players (by simp)
    · intro players hmem
      exact hshows.listed players (by simp [hmem])

/-- The frames of the creator of a lobby: two before a tick, then one, then the vote. -/
theorem plays_iff_chat : ∃ (s : Server (Fin 2)) (datas : List Bytes)
    (frames : List (Net.Frame LobbyMessage)), (s.sessions 0).sendQueue = datas.map packet ∧
      List.Forall₂ (Net.SentAs LobbyMessage.unpack) frames datas ∧ frames.length = 4 ∧
        ∀ error, play [⟨2, 2⟩] [(2, ⟨[], false, false⟩), (1, ⟨[], false, false⟩),
          (1, ⟨[1], true, false⟩)] frames (init [2, 1]) = .error error → ¬error.AtJoin := by
  obtain ⟨s, hs, htypes⟩ := Server.exists_chat LobbyMessage.packs_vote
  have hlength : (s.sessions 0).sendQueue.length = 4 := by
    rw [← List.length_map (f := frameType), htypes]
    rfl
  have hsent : (s.sessions 0).sendQueue ≠ [] := by
    rw [← List.length_pos_iff, hlength]
    decide
  obtain ⟨datas, frames, hqueue, hframes, hplays⟩ := plays_iff hs hsent
  refine ⟨s, datas, frames, hqueue, hframes, ?_, ?_⟩
  · rw [hframes.length_eq, ← List.length_map (f := packet), ← hqueue, hlength]
  · exact (hplays _ _ _).mpr (by simp [splitsJoin_cons])

end Client

end ChatGames
