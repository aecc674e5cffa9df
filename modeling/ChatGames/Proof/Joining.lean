import ChatGames.Proof.SceneSteps
import ChatGames.Proof.Posts
import ChatGames.Proof.Codec

/-!
# Joining

The server queues `lobbyJoined` and `updateLobby` for a player that joins in one critical section,
but they are two frames. `waitForJoin` goes to the lobby on the first, and the lobby's tick asks
`net.isMaster` whether or not the second has arrived.
-/

namespace ChatGames

open Outcome

/-- An event that `waitForJoin` does not expect, or no list of players for `net.isMaster`. -/
def SceneError.AtJoin : SceneError → Prop
  | unexpectedEvent _ | noPlayers _ => True
  | outOfColors _ | noGames _ | voteFinished _ | noEntry _ => False

namespace Client

/-- Ticks of the current scene. A tick comes with the number of frames that arrived before it. -/
def play (games : List Game) : List (Nat × Buttons) → List (Net.Frame LobbyMessage) → Client →
    Except SceneError Client
  | [], _, client => .ok client
  | (count, buttons) :: ticks, frames, client => do
      let client ← client.tick games (frames.take count) buttons
      play games ticks (frames.drop count) client

/-- The first frame arrives alone, and nothing before the tick after that. -/
def SplitsJoin (counts : List Nat) : Prop :=
  ∃ waiting rest, counts = List.replicate waiting 0 ++ 1 :: 0 :: rest

variable {games : List Game} {buttons : Buttons} {client : Client}

/-! ### In the lobby, with a player list -/

def Established (client : Client) : Prop := client.scene = .lobby ∧ client.net.players ≠ []

theorem ends_isMaster (h : client.net.players ≠ []) :
    Ends client.isMaster (fun _ => True) fun error => ¬error.AtJoin := by
  obtain ⟨master, hmaster⟩ := exists_isMaster h
  rw [hmaster]
  trivial

theorem ends_addPlayerData (players : List Net.NetPlayer) (playerData : PlayerData)
    (indices : List Nat) (added : Bool) :
    Ends (addPlayerData players playerData indices added) (fun _ => True)
      fun error => ¬error.AtJoin := by
  induction players generalizing playerData indices added with
  | nil => exact ends_ok trivial
  | cons player players ih =>
      rw [addPlayerData]
      split
      · exact ih _ _ _
      · split
        · exact ends_error id
        · exact ih _ _ _

theorem ends_completePlayerData (h : client.Established) :
    Ends client.completePlayerData Established fun error => ¬error.AtJoin := by
  refine (ends_isMaster h.2).bind fun master _ _ => ?_
  cases master with
  | false => exact ends_ok h
  | true =>
      refine (ends_addPlayerData _ _ _ _).bind fun result _ _ => ?_
      dsimp only
      split <;> exact ends_ok h

theorem ends_pressVote (h : client.Established) :
    Ends client.pressVote Established fun error => ¬error.AtJoin := by
  rw [pressVote]
  split
  · exact ends_error id
  · refine Ends.bind (ends_isMaster h.2) fun master _ _ => ?_
    split <;> exact ends_ok h

theorem ends_showStart (h : client.Established) :
    Ends (client.showStart games) Established fun error => ¬error.AtJoin :=
  (ends_masterVoteFinished (ends_isMaster h.2) fun _ => id).bind fun _ _ _ => ends_ok h

theorem ends_finishTick (h : client.Established) :
    Ends (client.finishTick games buttons) Established fun error => ¬error.AtJoin := by
  refine (ends_completePlayerData h).bind fun completed _ hcompleted => ?_
  have hlayout : Ends (completed.layout games) Established fun error => ¬error.AtJoin := by
    rw [layout]
    split
    · exact ends_error id
    · exact ends_ok hcompleted
  refine hlayout.bind fun laidOut _ hlaidOut => ?_
  refine (ends_showStart hlaidOut).bind fun shown _ hshown => ?_
  have hpress : Ends (if buttons.vote then (shown.selectGame games buttons).pressVote
      else .ok (shown.selectGame games buttons)) Established fun error => ¬error.AtJoin := by
    split
    · exact ends_pressVote hshown
    · exact ends_ok hshown
  refine hpress.bind fun pressed _ hpressed => ends_ok ?_
  split <;> exact hpressed

theorem ends_processMessage (h : client.Established) (playerId : Nat) (msg : LobbyMessage) :
    Ends (client.processMessage playerId msg) Established fun error => ¬error.AtJoin := by
  obtain ⟨client', hprocess⟩ := exists_processMessage h.2 playerId msg
  have hprocessed := processed_of_eq hprocess
  rw [hprocess]
  refine ends_ok ⟨?_, hprocessed.net_eq ▸ h.2⟩
  cases hprocessed <;> exact h.1

theorem players_receive {frames : List (Net.Frame LobbyMessage)} {net : Net.Table LobbyMessage}
    (hframes : ∀ players, .updateLobby players ∈ frames → players ≠ [])
    (hplayers : net.players ≠ []) : (net.receive frames).players ≠ [] := by
  induction frames generalizing net with
  | nil => exact hplayers
  | cons frame frames ih =>
      apply ih fun players hmem => hframes players (List.mem_cons_of_mem _ hmem)
      cases frame with
      | updateLobby players => exact hframes players List.mem_cons_self
      | lobbyJoined | relayMessage => exact hplayers

theorem ends_sceneUpdate (h : client.Established) (event : Option (Net.NetEvent LobbyMessage)) :
    Ends (client.sceneUpdate games buttons event) Established fun error => ¬error.AtJoin := by
  rw [sceneUpdate_lobby h.1]
  have hgoOn : client.goOn.Established := h
  cases event with
  | none => exact ends_finishTick h
  | some event =>
      cases event with
      | message playerId msg => exact ends_processMessage hgoOn playerId msg
      | lobbyJoined | lobbyUpdated => exact ends_ok hgoOn

theorem ends_update {frames : List (Net.Frame LobbyMessage)}
    (h : (client.receive frames).Established) :
    Ends (client.update games frames buttons) Established fun error => ¬error.AtJoin := by
  cases hevents : (client.receive frames).net.events with
  | nil =>
      rw [update_of_nil hevents]
      have hsent : (client.receive frames).send.Established := h
      exact ends_sceneUpdate hsent none
  | cons event events =>
      rw [update_of_cons hevents]
      have hpopped : ((client.receive frames).popEvent events).Established := h
      exact ends_sceneUpdate hpopped (some event)

theorem ends_tickLoop (fuel : Nat) (h : client.Established) :
    Ends (tickLoop games buttons fuel client) Established fun error => ¬error.AtJoin := by
  induction fuel generalizing client with
  | zero => exact ends_ok h
  | succ fuel ih =>
      have hnone : (client.receive []).Established := h
      refine (ends_update hnone).bind fun client' _ h' => ?_
      split
      · exact ih h'
      · exact ends_ok h'

theorem Established.receive {frames : List (Net.Frame LobbyMessage)} (h : client.Established)
    (hframes : ∀ players, .updateLobby players ∈ frames → players ≠ []) :
    (client.receive frames).Established := ⟨h.1, players_receive hframes h.2⟩

theorem ends_play (ticks : List (Nat × Buttons)) {frames : List (Net.Frame LobbyMessage)}
    (h : client.Established) (hframes : ∀ players, .updateLobby players ∈ frames → players ≠ []) :
    Ends (play games ticks frames client) Established fun error => ¬error.AtJoin := by
  induction ticks generalizing client frames with
  | nil => exact ends_ok h
  | cons tick ticks ih =>
      have harrived : (client.receive (frames.take tick.1)).Established :=
        h.receive fun players hmem => hframes players (List.mem_of_mem_take hmem)
      refine Ends.bind (ends_tickLoop _ harrived) fun client' _ h' => ?_
      exact ih h' fun players hmem => hframes players (List.mem_of_mem_drop hmem)

/-! ### Waiting, and in the lobby without a player list -/

variable {lobbyId : Bytes} {playerId : Nat} {players : List Net.NetPlayer}
  {later : List (Net.Frame LobbyMessage)}

/-- A client that went to the lobby on `lobbyJoined` and has heard nothing since. -/
def atDoor (indices : List Nat) (lobbyId : Bytes) (playerId : Nat) : Client :=
  { Client.init indices with
    scene := .lobby
    net := ⟨some playerId, some lobbyId, [], []⟩ }

theorem tick_waiting (games : List Game) (buttons : Buttons) (indices : List Nat) :
    (init indices).tick games [] buttons = .ok (init indices) := rfl

theorem tick_joined (games : List Game) (buttons : Buttons) (indices : List Nat) :
    (init indices).tick games [.lobbyJoined lobbyId playerId] buttons =
      .ok (atDoor indices lobbyId playerId) := rfl

theorem tick_atDoor (games : List Game) (buttons : Buttons) (indices : List Nat) :
    (atDoor indices lobbyId playerId).tick games [] buttons =
      .error (.noPlayers "attempt to index field '?' (a nil value)") := rfl

/-- Both frames arrive before one tick: it goes to the lobby, and the next finds the players. -/
theorem ends_tick_both (indices : List Nat) (hplayers : players ≠ [])
    (hlater : ∀ players, .updateLobby players ∈ later → players ≠ []) :
    Ends ((init indices).tick games (.lobbyJoined lobbyId playerId :: .updateLobby players :: later)
      buttons) Established fun error => ¬error.AtJoin := by
  have hupdated : (((Net.Table.init : Net.Table LobbyMessage).lobbyJoined lobbyId
      playerId).updateLobby players).players ≠ [] := hplayers
  have hend := players_receive hlater hupdated
  have hreceived : ((init indices).receive
      (.lobbyJoined lobbyId playerId :: .updateLobby players :: later)).net.players ≠ [] :=
    hend
  have hevents : ((init indices).receive (.lobbyJoined lobbyId playerId ::
      .updateLobby players :: later)).net.events = .lobbyJoined lobbyId playerId ::
        .lobbyUpdated players :: later.map Net.Frame.event := Net.Table.events_receive _ _
  have hevents' : (((init indices).receive (.lobbyJoined lobbyId playerId ::
      .updateLobby players :: later)).receive []).net.events = _ := hevents
  refine Ends.bind (Q := fun client => client.Established ∧ client.ticking = false) ?_ ?_
  · rw [update_of_cons hevents', sceneUpdate_waitForJoin rfl]
    exact ends_ok ⟨⟨rfl, hreceived⟩, rfl⟩
  · intro client _ hclient
    rw [hclient.2]
    exact ends_ok hclient.1

theorem ends_play_atDoor (indices : List Nat) (ticks : List (Nat × Buttons))
    (hplayers : players ≠ [])
    (hlater : ∀ players, .updateLobby players ∈ later → players ≠ [])
    (hnext : ∀ buttons rest, ticks ≠ (0, buttons) :: rest) :
    Ends (play games ticks (.updateLobby players :: later) (atDoor indices lobbyId playerId))
      (fun _ => True) fun error => ¬error.AtJoin := by
  cases ticks with
  | nil => exact ends_ok trivial
  | cons tick ticks =>
      obtain ⟨count, buttons⟩ := tick
      cases count with
      | zero => exact absurd rfl (hnext buttons ticks)
      | succ count =>
          have hupdated :
              ((atDoor indices lobbyId playerId).net.updateLobby players).players ≠ [] := hplayers
          have htaken : ∀ players, .updateLobby players ∈ later.take count → players ≠ [] :=
            fun players hmem => hlater players (List.mem_of_mem_take hmem)
          have hend := players_receive htaken hupdated
          have hreceived : ((atDoor indices lobbyId playerId).receive
              (.updateLobby players :: later.take count)).Established := ⟨rfl, hend⟩
          refine Ends.bind (ends_tickLoop _ hreceived) fun client _ hclient => ?_
          exact (ends_play ticks hclient fun players hmem =>
            hlater players (List.mem_of_mem_drop hmem)).imp fun _ _ => trivial

theorem splitsJoin_cons {count : Nat} {counts : List Nat} : SplitsJoin (count :: counts) ↔
    (count = 0 ∧ SplitsJoin counts) ∨ (count = 1 ∧ ∃ rest, counts = 0 :: rest) := by
  constructor
  · rintro ⟨waiting, rest, hcounts⟩
    cases waiting with
    | zero =>
        obtain ⟨hcount, hrest⟩ := List.cons.inj hcounts
        exact Or.inr ⟨hcount, rest, hrest⟩
    | succ waiting =>
        obtain ⟨hcount, hrest⟩ := List.cons.inj hcounts
        exact Or.inl ⟨hcount, waiting, rest, hrest⟩
  · rintro (⟨rfl, waiting, rest, rfl⟩ | ⟨rfl, rest, rfl⟩)
    · exact ⟨waiting + 1, rest, rfl⟩
    · exact ⟨0, rest, rfl⟩

/-- When `lobbyJoined` arrives alone, `updateLobby` must arrive before the next tick. -/
theorem ends_play_iff (indices : List Nat) (ticks : List (Nat × Buttons)) (hplayers : players ≠ [])
    (hlater : ∀ players, .updateLobby players ∈ later → players ≠ []) :
    Ends (play games ticks (.lobbyJoined lobbyId playerId :: .updateLobby players :: later)
        (init indices)) (fun _ => True) (fun error => ¬error.AtJoin) ↔
      ¬SplitsJoin (ticks.map Prod.fst) := by
  induction ticks with
  | nil =>
      refine iff_of_true (ends_ok trivial) ?_
      rintro ⟨waiting, rest, hcounts⟩
      simp at hcounts
  | cons tick ticks ih =>
      obtain ⟨count, buttons⟩ := tick
      rw [List.map_cons, splitsJoin_cons]
      match count with
      | 0 =>
          rw [play, List.take_zero, tick_waiting]
          change Ends (play games ticks _ (init indices)) _ _ ↔ _
          rw [List.drop_zero, ih]
          simp
      | 1 =>
          rw [play, List.take_succ_cons, List.take_zero, tick_joined]
          change Ends (play games ticks (.updateLobby players :: later)
            (atDoor indices lobbyId playerId)) _ _ ↔ _
          constructor
          · rintro hends (⟨hcount, -⟩ | ⟨-, rest, hrest⟩)
            · cases hcount
            · obtain ⟨tick', ticks', rfl, hcount, -⟩ := List.map_eq_cons_iff.mp hrest
              obtain ⟨count', buttons'⟩ := tick'
              obtain rfl : count' = 0 := hcount
              rw [play, List.take_zero, tick_atDoor] at hends
              exact hends trivial
          · intro hsplits
            apply ends_play_atDoor indices ticks hplayers hlater
            rintro buttons' rest rfl
            exact hsplits (Or.inr ⟨rfl, rest.map Prod.fst, rfl⟩)
      | count + 2 =>
          refine iff_of_true ?_ (by simp)
          have hboth : Ends ((init indices).tick games (.lobbyJoined lobbyId playerId ::
              .updateLobby players :: later.take count) buttons) Established
                fun error => ¬error.AtJoin :=
            ends_tick_both indices hplayers fun players hmem =>
              hlater players (List.mem_of_mem_take hmem)
          refine Ends.bind hboth fun client _ hclient => ?_
          exact (ends_play ticks hclient fun players hmem =>
            hlater players (List.mem_of_mem_drop hmem)).imp fun _ _ => trivial

end Client

/-! ### What the server queues -/

/-- The bytes are a packet that the client dispatches as this frame. -/
def Net.Carries {β : Type} (unpack : Bytes → Except LuaError β) (bytes : Bytes)
    (frame : Net.Frame β) : Prop :=
  ∃ data, bytes = packet data ∧ Net.Decodes unpack data fun net => .ok (net.dispatch frame)

namespace Server

variable {Sid : Type} [DecidableEq Sid] [Fintype Sid] {words : WordLists} {s s' : Server Sid}
  {S : Sid}

/-- A step that tells a session it has joined posts the players list right behind. -/
theorem posted_of_joined (hinv : s.Inv) (hstep : Step s (.resume S) s')
    (hjoined : ∃ frame ∈ s.posted s' S, IsJoined frame) :
    ∃ L id more, (∃ player ∈ (s'.lobbies L).players, player.id = id) ∧
      s.posted s' S = packet (encodeLobbyJoined (s'.lobbies L).name id) ::
        packet (encodeLobbyUpdate (s'.lobbies L)) :: more := by
  obtain ⟨frame, hframe, htype⟩ := hjoined
  cases hstep with
  | @enterLobby _ playerName L id lobby hpending hlobby hadd =>
      have halive : (s.sessions S).alive = true := by
        apply hinv.busy_alive
        rcases hpending with hpending | ⟨hpending, -⟩ <;> rw [hpending] <;> simp
      have hadded := (hinv.valid L).added hadd
      have hplayer : Player.mk id S playerName ∈ lobby.players :=
        hadded.perm.mem_iff.mpr List.mem_cons_self
      have hposted := posted_of_eq (sendQueue_enterLobby s S S L lobby id)
      rw [if_pos rfl, if_pos halive, List.singleton_append] at hposted
      have hmem := mem_postsTo_self hplayer (encodeLobbyUpdate lobby)
      refine ⟨L, id, (postsTo lobby.players S (encodeLobbyUpdate lobby)).tail, ?_, ?_⟩
      · simpa using ⟨_, hplayer, rfl⟩
      · rw [hposted]
        cases hposts : postsTo lobby.players S (encodeLobbyUpdate lobby) with
        | nil => rw [hposts] at hmem; exact absurd hmem List.not_mem_nil
        | cons first more =>
            obtain ⟨rfl, -⟩ := mem_postsTo (hposts ▸ List.mem_cons_self :
              first ∈ postsTo lobby.players S (encodeLobbyUpdate lobby))
            simp
  | @sendUpdate _ wbuf hpending =>
      have hposted := posted_of_eq (sendQueue_sendUpdate s S S wbuf)
      obtain ⟨lobby, rfl⟩ := hinv.update S wbuf hpending
      rw [if_pos rfl] at hposted
      rw [hposted, List.mem_singleton] at hframe
      rw [hframe, IsJoined, frameType_encodeLobbyUpdate] at htype
      cases htype
  | refuse | resetLobby =>
      simp [posted] at hframe

end Server

namespace Client

/-- **Joining.** A step of the server that lets a session in posts it `lobbyJoined` and then a list
of players. However these and what is sent later are spread over ticks, no tick meets an unexpected
event or an empty list exactly when no tick falls between the two. -/
theorem joining_iff {Sid : Type} [DecidableEq Sid] [Fintype Sid] {words : WordLists}
    {s s' : Server Sid} {S : Sid}
    (h : (serverSystem Sid).ReachableWhile (Server.FromBytes words) s)
    (hstep : (serverSystem Sid).step s (.resume S) = some s')
    (hjoined : ∃ frame ∈ s.posted s' S, IsJoined frame)
    (unpack : Bytes → Except LuaError LobbyMessage) :
    ∃ lobbyId playerId players joined updated more,
      s.posted s' S = joined :: updated :: more ∧
        Net.Carries unpack joined (.lobbyJoined lobbyId playerId) ∧
        Net.Carries unpack updated (.updateLobby players) ∧
        ∀ later, (∀ players, .updateLobby players ∈ later → players ≠ []) →
          ∀ (games : List Game) (indices : List Nat) (ticks : List (Nat × Buttons)),
            (∀ error, play games ticks
              (.lobbyJoined lobbyId playerId :: .updateLobby players :: later) (init indices) =
                .error error → ¬error.AtJoin) ↔
              ¬SplitsJoin (ticks.map Prod.fst) := by
  obtain ⟨hinv, -⟩ := Server.inv_and_named h
  have hbytes : Server.FromBytes words s (.resume S) := trivial
  obtain ⟨hinv', hnamed'⟩ := Server.inv_and_named (h.step hbytes hstep)
  obtain ⟨L, id, more, ⟨player, hplayer, rfl⟩, hposted⟩ :=
    Server.posted_of_joined hinv (Server.step_of_system hstep) hjoined
  have hid := (hinv'.valid L).id_lt player hplayer
  unfold Lobby.maxPlayers at hid
  refine ⟨(s'.lobbies L).name, player.id, Net.listing (s'.lobbies L).players, _, _, more, hposted,
    ⟨_, rfl, ?_⟩, ⟨_, rfl, ?_⟩, ?_⟩
  · exact Net.decodes_lobbyJoined (by omega) (hnamed'.lobby L).name_lt
  · exact Net.decodes_lobbyUpdate (hinv'.valid L) (hnamed'.lobby L)
  · intro later hlater games indices ticks
    have hplayers : Net.listing (s'.lobbies L).players ≠ [] := by
      apply List.ne_nil_of_mem
      exact List.mem_map.mpr ⟨player, hplayer, rfl⟩
    rw [← ends_play_iff indices ticks hplayers hlater, ends_true_iff]

/-- The creator of `boldfox` joins, and both frames arrive before one tick. -/
theorem joining_iff_boldFox : ∃ s s' : Server (Fin 1),
    (serverSystem (Fin 1)).step s (.resume 0) = some s' ∧ ∃ lobbyId playerId players,
      ∀ error, play [⟨2, 2⟩] [(0, ⟨[], false, false⟩), (2, ⟨[], false, false⟩),
        (0, ⟨[1], true, false⟩)] [.lobbyJoined lobbyId playerId, .updateLobby players]
          (init [1]) = .error error → ¬error.AtJoin := by
  let name : Bytes := [98, 111, 108, 100, 102, 111, 120]
  let create : Event (Fin 1) := .message 0 (.createLobby [106]) [name]
  have hrun : ((serverSystem (Fin 1)).run [create]).any (fun s =>
      ((serverSystem (Fin 1)).step s (.resume 0)).any fun s' =>
        (s.posted s' 0).any fun frame => frameType frame = some 3) = true := by
    decide
  obtain ⟨s, hs, hnext⟩ := (Option.any_eq_true _ _).mp hrun
  obtain ⟨s', hstep, hposted⟩ := (Option.any_eq_true _ _).mp hnext
  obtain ⟨frame, hframe, htype⟩ := List.any_eq_true.mp hposted
  have hbytes : ∀ e ∈ [create], ∀ s : Server (Fin 1), s.FromBytes Net.boldFox e := by
    intro e he s
    obtain rfl := List.mem_singleton.mp he
    refine ⟨⟨[0, 1, 106], by decide⟩, fun drawn hdrawn => ?_⟩
    rw [List.mem_singleton.mp hdrawn]
    exact ⟨[98, 111, 108, 100], by decide, [102, 111, 120], by decide, rfl⟩
  have htype : frameType frame = some 3 := of_decide_eq_true htype
  have hjoined : ∃ frame ∈ s.posted s' 0, IsJoined frame := ⟨frame, hframe, htype⟩
  obtain ⟨lobbyId, playerId, players, _, _, _, -, -, -, hplay⟩ :=
    joining_iff (TransitionSystem.reachableWhile_of_run hs hbytes) hstep hjoined
      fun _ => .ok .other
  refine ⟨s, s', hstep, lobbyId, playerId, players, ?_⟩
  exact (hplay [] (by simp) _ _ _).mpr (by simp [splitsJoin_cons])

/-- `lobbyJoined` arrives before one tick, and nothing before the next. -/
theorem not_joining : ¬∀ (games : List Game) (indices : List Nat) (ticks : List (Nat × Buttons))
    (lobbyId : Bytes) (playerId : Nat) (players : List Net.NetPlayer) (error : SceneError),
    players ≠ [] → play games ticks [.lobbyJoined lobbyId playerId, .updateLobby players]
      (init indices) = .error error → ¬error.AtJoin := by
  intro h
  exact h [⟨2, 2⟩] [1] [(1, ⟨[], false, false⟩), (0, ⟨[], false, false⟩)] [120] 0 [⟨0, [106]⟩]
    (.noPlayers "attempt to index field '?' (a nil value)") (by decide) rfl trivial

end Client

end ChatGames
