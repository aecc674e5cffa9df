import ChatGames.NetReceive
import ChatGames.Proof.Codec

/-!
# What the server sends a client can take

Every frame in the send queue of a session is the packet of a message that is short enough for the
length in front of it and of a type the client has a handler for.
-/

namespace ChatGames

def Sendable (frame : Bytes) : Prop :=
  ∃ data, frame = packet data ∧ data.length < 2 ^ 32 ∧ Net.hasHandler data = true

theorem sendable_lobbyUpdate {Sid : Type} {lobby : Lobby Sid} (hvalid : lobby.Valid)
    (hfits : lobby.Fits) : Sendable (packet (encodeLobbyUpdate lobby)) := by
  have hcount := hvalid.length_le
  have hentries := @Net.length_flatMap_entry_le (Net.listing lobby.players) (by
    intro player hplayer
    obtain ⟨player, hmem, rfl⟩ := List.mem_map.mp hplayer
    exact hfits.playerName_lt player hmem)
  rw [Net.listing, List.length_map] at hentries
  refine ⟨_, rfl, ?_, ?_⟩
  · rw [Net.encodeLobbyUpdate_eq, Net.listing]
    simp only [List.length_append, toBigEndian_length]
    omega
  · rw [Net.encodeLobbyUpdate_eq]
    rfl

theorem sendable_lobbyJoined {lobbyId : Bytes} (hlobby : lobbyId.length < 256) (playerId : Nat) :
    Sendable (packet (encodeLobbyJoined lobbyId playerId)) := by
  refine ⟨_, rfl, ?_, rfl⟩
  simp only [encodeLobbyJoined, BufferWriter.integer, BufferWriter.string, BufferWriter.toString,
    BufferWriter.empty, List.length_append, toBigEndian_length, List.length_nil]
  omega

theorem sendable_relayMessage (playerId : Nat) {msg : Bytes} (hmsg : msg.length < 65536) :
    Sendable (packet (encodeRelayMessage playerId msg)) := by
  refine ⟨_, rfl, ?_, rfl⟩
  simp only [encodeRelayMessage, BufferWriter.integer, BufferWriter.string, BufferWriter.toString,
    BufferWriter.empty, List.length_append, toBigEndian_length, List.length_nil]
  omega

namespace Server

/-- All frames are sendable, the answer a session has still to send included. -/
structure Readable {Sid : Type} (s : Server Sid) : Prop where
  queued : ∀ T, ∀ frame ∈ (s.sessions T).sendQueue, Sendable frame
  answer : ∀ S wbuf, (s.sessions S).pending = some (.requestLobbyUpdate wbuf) →
    Sendable (packet wbuf)

variable {Sid : Type} [DecidableEq Sid] [Fintype Sid] {s s' : Server Sid} {e : Event Sid}
  {words : WordLists}

theorem Step.sendable_posted (h : Step s e s') (hinv : s.Inv) (hnamed : s.Named)
    (hread : s.Readable) (hbytes : s.FromBytes words e) (T : Sid) :
    ∀ frame ∈ s.posted s' T, Sendable frame := by
  have hnext := inv_step h hinv
  have hfits := h.lobby_fits hinv hnamed hbytes
  have hupdate {players : List (Player Sid)} {lobby : Lobby Sid} {L : LobbyRef} {frame : Bytes}
      {alive : Bool} (hlobby : s'.lobbies L = lobby)
      (hframe : frame ∈ if alive then postsTo players T (encodeLobbyUpdate lobby) else []) :
      Sendable frame := by
    split at hframe
    · rw [(mem_postsTo hframe).1, ← hlobby]
      exact sendable_lobbyUpdate (hnext.valid L) (hfits L)
    · exact absurd hframe List.not_mem_nil
  have hquiet (hsame : (s'.sessions T).sendQueue = (s.sessions T).sendQueue) :
      ∀ frame ∈ s.posted s' T, Sendable frame := by
    rw [posted_of_eq (hsame.trans (List.append_nil _).symm)]
    exact fun _ hframe => absurd hframe List.not_mem_nil
  cases h with
  | @leaveLobby S draws L playerId lobby hidle hlobby hplayer hremove =>
      rw [posted_of_eq (sendQueue_leaveLobby s S T L lobby)]
      exact fun frame => hupdate (L := L) (by simp)
  | @sendMessage S msg draws L playerId hidle hlobby hplayer =>
      have hmsg : msg.length < 65536 := fits_of_processMessage hbytes.1.choose_spec
      rw [posted_of_eq (by simp; rfl)]
      intro frame hframe
      split at hframe
      · rw [(mem_postsTo hframe).1]
        exact sendable_relayMessage playerId hmsg
      · exact absurd hframe List.not_mem_nil
  | @enterLobby S playerName L id lobby hpending hlobby hadd =>
      rw [posted_of_eq (sendQueue_enterLobby s S T L lobby id)]
      intro frame hframe
      have hname := (hfits L).name_lt
      rcases List.mem_append.mp hframe with hjoined | hupdated
      · split at hjoined
        · rw [List.mem_singleton.mp hjoined]
          exact sendable_lobbyJoined (by simpa using hname) id
        · exact absurd hjoined List.not_mem_nil
      · exact hupdate (L := L) (by simp) hupdated
  | @sendUpdate S wbuf hpending =>
      rw [posted_of_eq (sendQueue_sendUpdate s S T wbuf)]
      intro frame hframe
      split at hframe
      · rw [List.mem_singleton.mp hframe]
        exact hread.answer S wbuf hpending
      · exact absurd hframe List.not_mem_nil
  | setLobbyLocked | nothing => exact hquiet rfl
  | @createLobby S | @joinUnknown S | @joinLobby S | @requestLobbyUpdate S | @refuse S
  | @resetLobby S | @disconnect S => exact hquiet (by by_cases hT : T = S <;> simp [hT])

theorem Step.readable (h : Step s e s') (hinv : s.Inv) (hnamed : s.Named) (hread : s.Readable)
    (hbytes : s.FromBytes words e) : s'.Readable where
  queued T frame hframe := by
    rw [h.sendQueue hinv T] at hframe
    rcases List.mem_append.mp hframe with hframe | hframe
    · exact hread.queued T frame hframe
    · exact h.sendable_posted hinv hnamed hread hbytes T frame hframe
  answer T wbuf hpending := by
    by_cases hne : T = e.session
    · subst hne
      cases h with
      | requestLobbyUpdate hidle hlobby =>
          obtain rfl : encodeLobbyUpdate _ = wbuf := by simpa using hpending
          exact sendable_lobbyUpdate (hinv.valid _) (hnamed.lobby _)
      | joinUnknown hidle | setLobbyLocked hidle | sendMessage hidle | nothing hidle
      | disconnect hidle => simp [hidle.2] at hpending
      | createLobby | joinLobby | leaveLobby | enterLobby | refuse | resetLobby | sendUpdate =>
          simp at hpending
    · obtain ⟨-, -, hsame, -⟩ := h.others hne
      rw [hsame] at hpending
      exact hread.answer T wbuf hpending

omit [DecidableEq Sid] [Fintype Sid] in
theorem readable_init : (init : Server Sid).Readable where
  queued _ _ h := by cases h
  answer _ _ h := by cases h

end Server

end ChatGames
