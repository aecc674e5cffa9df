import ChatGames.LobbyCodec
import ChatGames.Proof.Codec
import ChatGames.Proof.Convergence
import ChatGames.Proof.LobbyCodec
import ChatGames.Proof.Members

/-!
# What goes over the wire fits

The numbers that clients send come from the server's ids, from the twelve colors and from the list
of games, and from messages of other clients. So every message fits what it is packed into.
-/

namespace ChatGames

open Outcome

def Net.NetEvent.Fits : Net.NetEvent LobbyMessage → Prop
  | .lobbyJoined _ id => id < 256
  | .lobbyUpdated players => ∀ player ∈ players, player.id < 256
  | .message id msg => id < 256 ∧ msg.Fits

def PlayerData.Fits (playerData : PlayerData) : Prop :=
  ∀ id entry, playerData.lookup id = some entry → (PlayerRow.mk id entry.color entry.vote).Fits

namespace PlayerData

variable {playerData playerData' : PlayerData} {indices indices' : List Nat}
  {players : List Net.NetPlayer}

theorem fits_empty : PlayerData.Fits ∅ := fun id entry h => by cases h

theorem Fits.insert (h : playerData.Fits) {id : Nat} {entry : PlayerEntry}
    (hentry : (PlayerRow.mk id entry.color entry.vote).Fits) :
    PlayerData.Fits (playerData.insert id entry) := by
  intro id' entry' hlookup
  by_cases hid : id' = id
  · subst hid
    rw [AList.lookup_insert, Option.some_inj] at hlookup
    exact hlookup ▸ hentry
  · rw [AList.lookup_insert_ne hid] at hlookup
    exact h id' entry' hlookup

theorem Fits.entry (h : playerData.Fits) {id : Nat} (hid : id < 256) :
    (PlayerRow.mk id (playerData.entry id).color (playerData.entry id).vote).Fits := by
  rw [PlayerData.entry]
  cases hlookup : playerData.lookup id with
  | none => exact ⟨hid, (fun color hcolor => by cases hcolor), fun vote hvote => by cases hvote⟩
  | some entry => exact h id entry hlookup

theorem fits_ofRows {data : List PlayerRow} (h : ∀ row ∈ data, row.Fits) :
    (ofRows data).Fits := by
  intro id entry hlookup
  rw [lookup_ofRows] at hlookup
  obtain ⟨row, hrow, rfl⟩ := Option.map_eq_some_iff.mp hlookup
  obtain ⟨hmem, rfl⟩ := id_of_lastRow hrow
  exact h row hmem

theorem Fits.completed (h : playerData.Fits) (hplayers : ∀ player ∈ players, player.id < 256)
    (hindices : ∀ color ∈ indices, color < maxField)
    (hcompleted : Client.Completed players playerData indices playerData' indices') :
    playerData'.Fits := by
  intro id entry hlookup
  cases hbefore : playerData.lookup id with
  | some before =>
      have hkept := hcompleted.kept id before hbefore
      rw [hlookup, Option.some_inj] at hkept
      exact hkept ▸ h id before hbefore
  | none =>
      obtain ⟨⟨player, hplayer, rfl⟩, color, hcolor, rfl⟩ :=
        hcompleted.fresh id entry hlookup hbefore
      refine ⟨hplayers player hplayer, fun color' hcolor' => ?_, fun vote hvote => by cases hvote⟩
      obtain rfl : color = color' := Option.some.inj hcolor'
      exact hindices color hcolor

/-- There are no more rows than ids. -/
theorem Fits.rows (h : playerData.Fits) : (LobbyMessage.updatePlayerData playerData.rows).Fits := by
  constructor
  · have hnodup : playerData.keys.Nodup := playerData.nodupKeys
    have hsubset : playerData.keys ⊆ List.range 256 := by
      intro id hid
      obtain ⟨entry, hentry⟩ := mem_keys_iff.mp hid
      exact List.mem_range.mpr (h id entry hentry).id_lt
    have hlength := (List.subperm_of_subset hnodup hsubset).length_le
    rw [List.length_range] at hlength
    rw [PlayerData.rows, List.length_map]
    exact (List.length_map _).symm.trans_le hlength
  · intro row hrow
    exact h row.id _ ((mem_rows playerData).mp hrow)

end PlayerData

/-! ### Clients -/

namespace Client

structure Fits (client : Client) : Prop where
  playerId : ∀ id ∈ client.net.playerId, id < 256
  players : ∀ player ∈ client.net.players, player.id < 256
  events : ∀ event ∈ client.net.events, event.Fits
  playerData : client.playerData.Fits
  indices : ∀ color ∈ client.playerColorIndices, color < maxField
  selected : ∀ game ∈ client.selectedGame, game < maxField
  out : ∀ msg ∈ client.out, msg.Fits

variable {client client' : Client} {games : List Game} {buttons : Buttons}

theorem fits_init {indices : List Nat} (h : ∀ color ∈ indices, color < maxField) :
    (init indices).Fits where
  playerId id hid := by cases hid
  players player hplayer := by cases hplayer
  events event hevent := by cases hevent
  playerData := PlayerData.fits_empty
  indices := h
  selected game hgame := by cases hgame
  out msg hmsg := by cases hmsg

theorem Fits.receive (h : client.Fits) {frames : List (Net.Frame LobbyMessage)}
    (hframes : ∀ frame ∈ frames, frame.event.Fits) : (client.receive frames).Fits where
  playerId id hid := by
    rcases Net.Table.playerId_receive_cases client.net frames with
      hsame | ⟨lobbyId, id', hmem, hid'⟩
    · exact h.playerId id (hsame ▸ hid)
    · change id ∈ (client.net.receive frames).playerId at hid
      rw [hid'] at hid
      obtain rfl : id' = id := Option.some.inj hid
      exact hframes _ hmem
  players player hplayer := by
    rcases Net.Table.players_receive client.net frames with hsame | hmem
    · exact h.players player (hsame ▸ hplayer)
    · exact hframes _ hmem player hplayer
  events := Net.Table.forall_events_receive h.events hframes
  playerData := h.playerData
  indices := h.indices
  selected := h.selected
  out := h.out

theorem Fits.sendMessage (h : client.Fits) {msg : LobbyMessage} (hmsg : msg.Fits) :
    (client.sendMessage msg).Fits :=
  ⟨h.playerId, h.players, h.events, h.playerData, h.indices, h.selected,
    forall_out_sendMessage h.out hmsg⟩

theorem Fits.sendPlayerData (h : client.Fits) : client.sendPlayerData.Fits :=
  h.sendMessage h.playerData.rows

theorem Fits.send (h : client.Fits) : client.send.Fits :=
  ⟨h.playerId, h.players, h.events, h.playerData, h.indices, h.selected, forall_out_send h.out⟩

theorem Fits.withPlayerData (h : client.Fits) {playerData : PlayerData} {indices : List Nat}
    (hplayerData : playerData.Fits) (hindices : ∀ color ∈ indices, color < maxField) :
    (client.withPlayerData playerData indices).Fits :=
  ⟨h.playerId, h.players, h.events, hplayerData, hindices, h.selected, h.out⟩

theorem Fits.setVote (h : client.Fits) {playerId : Nat} {vote : Option Nat} (hid : playerId < 256)
    (hvote : ∀ n ∈ vote, n < maxField) : (client.setVote playerId vote).Fits := by
  have hentry := h.playerData.entry hid
  exact h.withPlayerData (h.playerData.insert ⟨hid, hentry.color_lt, hvote⟩) h.indices

theorem Processed.fits (h : client.Fits) {playerId : Nat} {msg : LobbyMessage}
    (hid : playerId < 256) (hmsg : msg.Fits) (hprocessed : Processed client playerId msg client') :
    client'.Fits := by
  have haddVoted {client : Client} (h : client.Fits) : (client.addVoted playerId).Fits :=
    ⟨h.playerId, h.players, h.events, h.playerData, h.indices, h.selected, h.out⟩
  cases hprocessed with
  | vote => exact haddVoted (h.setVote hid hmsg)
  | voteAtMaster => exact (haddVoted (h.setVote hid hmsg)).sendPlayerData
  | table =>
      exact ⟨h.playerId, h.players, h.events, PlayerData.fits_ofRows hmsg.2, h.indices, h.selected,
        h.out⟩
  | tableAtMaster => exact h.withPlayerData (h.playerData.insert (h.playerData.entry hid)) h.indices
  | other => cases hmsg

theorem Fits.completePlayerData (h : client.Fits)
    (hcomplete : client.completePlayerData = .ok client') : client'.Fits := by
  rcases completePlayerData_eq_ok hcomplete with
    ⟨-, rfl⟩ | ⟨-, playerData, indices, hcompleted, hclient'⟩
  · exact h
  · have hplayerData := h.playerData.completed h.players h.indices hcompleted
    have hfits := h.withPlayerData hplayerData fun color hcolor =>
      h.indices color (hcompleted.indices_subset hcolor)
    rcases hclient' with rfl | ⟨-, rfl⟩
    · exact hfits.sendPlayerData
    · exact hfits

theorem Fits.withButtons (h : client.Fits) {selectedGame : Option Nat} (startHidden : Bool)
    (hselected : ∀ game ∈ selectedGame, game < maxField) :
    (client.withButtons startHidden selectedGame).Fits :=
  ⟨h.playerId, h.players, h.events, h.playerData, h.indices, hselected, h.out⟩

/-- A game is selected by its index. -/
theorem Fits.selectGame (h : client.Fits) (hgames : games.length < maxField) (buttons : Buttons) :
    (client.selectGame games buttons).Fits := by
  refine h.withButtons client.startHidden fun game hgame => ?_
  cases hlast : ((List.range' 1 games.length).filter fun game => game ∈ buttons.games).getLast? with
  | none =>
      rw [hlast, Option.none_or] at hgame
      exact h.selected game hgame
  | some last =>
      rw [hlast, Option.some_or] at hgame
      obtain rfl : last = game := Option.some.inj hgame
      have hmem := (List.mem_filter.mp (List.mem_of_getLast? hlast)).1
      rw [List.mem_range'_1] at hmem
      omega

theorem Fits.pressVote (h : client.Fits) (hpress : client.pressVote = .ok client') :
    client'.Fits := by
  have hvote : client.selectedGame.getD 0 < maxField := by
    cases hselected : client.selectedGame with
    | none => decide
    | some game => exact h.selected game hselected
  rw [Client.pressVote] at hpress
  cases hplayer : client.net.playerId with
  | none => rw [hplayer] at hpress; cases hpress
  | some playerId =>
      rw [hplayer, Option.bind_some] at hpress
      cases hentry : client.playerData.lookup playerId with
      | none => rw [hentry] at hpress; cases hpress
      | some entry =>
          rw [hentry] at hpress
          obtain ⟨master, -, hpress⟩ := bind_eq_ok.mp hpress
          have hset : (client.setVote playerId (some (client.selectedGame.getD 0))).Fits :=
            h.setVote (h.playerId playerId hplayer) fun n hn => by cases hn; exact hvote
          have hclicked : (client.click playerId (client.selectedGame.getD 0)).Fits :=
            ⟨hset.playerId, hset.players, hset.events, hset.playerData, hset.indices,
              hset.selected, hset.out⟩
          cases master with
          | true => exact Except.ok.inj hpress ▸ hclicked.sendPlayerData
          | false =>
              exact Except.ok.inj hpress ▸ hclicked.sendMessage fun n hn => by cases hn; exact hvote

theorem Fits.finishTick (h : client.Fits) (hgames : games.length < maxField)
    (hfinish : client.finishTick games buttons = .ok client') : client'.Fits := by
  obtain ⟨completed, hcompleted, hlayout⟩ := bind_eq_ok.mp hfinish
  obtain ⟨laidOut, hlaidOut, hshow⟩ := bind_eq_ok.mp hlayout
  obtain ⟨shown, hshown, hpress⟩ := bind_eq_ok.mp hshow
  obtain ⟨pressed, hpressed, hwatch⟩ := bind_eq_ok.mp hpress
  have hsame : laidOut = completed := by
    rw [layout] at hlaidOut
    split at hlaidOut
    · cases hlaidOut
    · exact (Except.ok.inj hlaidOut).symm
  obtain ⟨startHidden, rfl⟩ := showStart_eq_ok hshown
  have hcompletedFits := hsame ▸ h.completePlayerData hcompleted
  have hselectedFits := (hcompletedFits.withButtons startHidden hcompletedFits.selected).selectGame
    hgames buttons
  have hpressedFits : pressed.Fits := by
    split at hpressed
    · exact hselectedFits.pressVote hpressed
    · exact Except.ok.inj hpressed ▸ hselectedFits
  have hwatched : (if buttons.watch then pressed.pressWatch else pressed).Fits := by
    split
    · exact hpressedFits.withButtons pressed.startHidden fun game hgame => by cases hgame
    · exact hpressedFits
  rw [← Except.ok.inj hwatch]
  exact ⟨hwatched.playerId, hwatched.players, hwatched.events, hwatched.playerData,
    hwatched.indices, hwatched.selected, hwatched.out⟩

theorem Fits.popEvent (h : client.Fits) {event : Net.NetEvent LobbyMessage}
    {events : List (Net.NetEvent LobbyMessage)} (hevents : client.net.events = event :: events) :
    event.Fits ∧ (client.popEvent events).Fits := by
  have hall := h.events
  rw [hevents] at hall
  obtain ⟨hevent, hrest⟩ := List.forall_mem_cons.mp hall
  exact ⟨hevent, h.playerId, h.players, hrest, h.playerData, h.indices, h.selected, h.out⟩

theorem Fits.goOn (h : client.Fits) : client.goOn.Fits :=
  ⟨h.playerId, h.players, h.events, h.playerData, h.indices, h.selected, h.out⟩

theorem Updated.fits (h : client.Fits) (hgames : games.length < maxField)
    (hupdated : Updated games buttons client client') : client'.Fits := by
  cases hupdated with
  | wait => exact h.send
  | enter _ hevents =>
      have hpopped := (h.popEvent hevents).2
      exact ⟨hpopped.playerId, hpopped.players, hpopped.events, hpopped.playerData,
        hpopped.indices, (fun game hgame => by cases hgame), hpopped.out⟩
  | skip _ hevents => exact (h.popEvent hevents).2.goOn
  | message _ hevents hprocessed =>
      obtain ⟨⟨hid, hmsg⟩, hpopped⟩ := h.popEvent hevents
      exact hprocessed.fits hpopped.goOn hid hmsg
  | finish _ _ hfinish => exact h.send.finishTick hgames hfinish

end Client

/-! ### Rooms -/

theorem Lobby.Fits.added {Sid : Type} {lobby lobby' : Lobby Sid} {C : Sid} {playerName : Bytes}
    {id : Nat} (h : lobby.Fits) (hname : playerName.length < 256)
    (hadded : lobby.Added playerName C id lobby') : lobby'.Fits := by
  refine ⟨hadded.name_eq ▸ h.name_lt, fun player hplayer => ?_⟩
  rcases List.mem_cons.mp (hadded.perm.mem_iff.mp hplayer) with rfl | hplayer
  · exact hname
  · exact h.playerName_lt player hplayer

theorem Lobby.Fits.removed {Sid : Type} [DecidableEq Sid] {lobby lobby' : Lobby Sid} {id : Nat}
    (h : lobby.Fits) (hvalid : lobby.Valid) (hremove : lobby.removePlayer id = .ok lobby') :
    lobby'.Fits := by
  rw [(Lobby.removePlayer_eq_ok hvalid hremove).1]
  exact ⟨h.name_lt, fun player hplayer => h.playerName_lt player (List.mem_of_mem_filter hplayer)⟩

namespace OpenRoom

variable {Sid : Type}

structure Fits (s : OpenRoom Sid) : Prop where
  lobby : s.lobby.Fits
  client : ∀ C, (s.clients C).Fits
  inbox : ∀ C, ∀ frame ∈ s.inbox C, frame.event.Fits
  posts : ∀ C T frame, (T, frame) ∈ s.posts C → frame.event.Fits

theorem fits_init {lobbyName : Bytes} (hname : lobbyName.length < 256)
    (colors : Sid → ShuffledColors) : (init lobbyName colors).Fits where
  lobby := ⟨hname, fun player hplayer => by cases hplayer⟩
  client C := by
    refine Client.fits_init fun color hcolor => ?_
    have hmem := (colors C).perm.mem_iff.mp hcolor
    rw [List.mem_range'_1] at hmem
    exact hmem.2.trans (by decide)
  inbox C frame hframe := by cases hframe
  posts C T frame hframe := by cases hframe

variable [DecidableEq Sid] {s s' : OpenRoom Sid} {C : Sid} {games : List Game}

omit [DecidableEq Sid] in
theorem event_fits_updateLobby {lobby : Lobby Sid} (h : lobby.Valid) :
    (Net.Frame.updateLobby (Net.listing lobby.players) : Net.Frame LobbyMessage).event.Fits := by
  refine List.forall_mem_map.mpr fun player hplayer => ?_
  exact (h.id_lt player hplayer).trans (by decide)

omit [DecidableEq Sid] in
theorem Coherent.playerId_lt (h : s.Coherent) {id : Nat} (hid : s.playerId C = some id) :
    id < 256 := by
  obtain ⟨player, hplayer, rfl, -⟩ := (h.member C id).mp hid
  exact (h.valid.id_lt player hplayer).trans (by decide)

/-- Of the clients only one is another. -/
theorem client_fits_update (h : ∀ D, (s.clients D).Fits) {client : Client} (hclient : client.Fits)
    (D : Sid) : ((s.toRoom.setClient C client).clients D).Fits := by
  by_cases hD : D = C
  · subst hD
    rwa [Room.clients_setClient_self]
  · rw [Room.clients_setClient_of_ne _ hD]
    exact h D

theorem Fits.join (h : s.Fits) (hs : s.Coherent) {playerName : Bytes}
    (hname : playerName.length < 256) (hjoin : s.join C playerName = some s') : s'.Fits := by
  obtain ⟨-, id, lobby, hadded, rfl⟩ := join_eq_some hs.valid hjoin
  have hnew : ⟨id, C, playerName⟩ ∈ lobby.players := hadded.perm.mem_iff.mpr List.mem_cons_self
  refine ⟨h.lobby.added hname hadded, h.client, fun T frame hframe => ?_, h.posts⟩
  rcases List.mem_append.mp hframe with hold | hwelcome
  · exact h.inbox T frame hold
  · rcases Room.mem_welcome hwelcome with ⟨-, rfl⟩ | ⟨-, rfl⟩
    · exact (hadded.valid.id_lt _ hnew).trans (by decide)
    · exact event_fits_updateLobby hadded.valid

theorem Fits.leave (h : s.Fits) (hs : s.Coherent) (hleave : s.leave C = some s') : s'.Fits := by
  rw [OpenRoom.leave] at hleave
  split at hleave
  · rename_i id _
    split at hleave
    · cases hremove : s.lobby.removePlayer id with
      | error fault => rw [hremove] at hleave; cases hleave
      | ok lobby =>
          rw [hremove] at hleave
          obtain rfl := Option.some.inj hleave
          have hvalid := (Lobby.removePlayer_eq_ok hs.valid hremove).2
          refine ⟨h.lobby.removed hs.valid hremove, h.client, fun T frame hframe => ?_, h.posts⟩
          rcases List.mem_append.mp hframe with hold | hfarewell
          · exact h.inbox T frame hold
          · rw [(mem_farewell hfarewell).2]
            exact event_fits_updateLobby hvalid
    · cases hleave
  · cases hleave

theorem Fits.relay (h : s.Fits) (hs : s.Coherent) {room : Room Sid}
    (hrelay : s.toRoom.relay C = some room) : (s.withRoom room).Fits := by
  obtain ⟨id, msg, sent, hid, hsent, -, rfl⟩ := Room.relay_eq_some hrelay
  have hout := Client.out_of_sent hsent
  have hclient := (h.client C).out
  rw [hout] at hclient
  obtain ⟨hmsg, hrest⟩ := List.forall_mem_cons.mp hclient
  have hfits := h.client C
  refine ⟨h.lobby, client_fits_update h.client ?_, h.inbox, fun D T frame hframe => ?_⟩
  · exact ⟨hfits.playerId, hfits.players, hfits.events, hfits.playerData, hfits.indices,
      hfits.selected, hrest⟩
  · rcases Room.mem_update hframe with ⟨rfl, hnew⟩ | hold
    · obtain ⟨player, -, heq⟩ := List.mem_map.mp hnew
      obtain ⟨-, rfl⟩ := Prod.mk.inj heq
      exact ⟨hs.playerId_lt hid, hmsg⟩
    · exact h.posts D T frame hold

theorem Fits.post (h : s.Fits) {room : Room Sid} (hpost : s.toRoom.post C = some room) :
    (s.withRoom room).Fits := by
  obtain ⟨T, frame, posts, hposts, rfl⟩ := Room.post_eq_some hpost
  have hmem : (T, frame) ∈ s.posts C := by simp [hposts]
  refine ⟨h.lobby, h.client, fun D frame' hframe => ?_, fun D T' frame' hframe => ?_⟩
  · rcases Room.mem_update hframe with ⟨rfl, hnew⟩ | hold
    · rcases List.mem_append.mp hnew with hold | hpost
      · exact h.inbox D frame' hold
      · rw [List.mem_singleton.mp hpost]
        exact h.posts C D frame hmem
    · exact h.inbox D frame' hold
  · rcases Room.mem_update hframe with ⟨rfl, hrest⟩ | hold
    · exact h.posts D T' frame' (hposts ▸ List.mem_cons_of_mem _ hrest)
    · exact h.posts D T' frame' hold

theorem Fits.update (h : s.Fits) (hgames : games.length < maxField) {count : Nat}
    {buttons : Buttons} {room : Room Sid}
    (hupdate : s.toRoom.update games C count buttons = some room) :
    (s.withRoom room).Fits := by
  obtain ⟨client', hupdated, rfl⟩ := update_eq_some hupdate
  have harrived : (s.arrived C count).Fits := (h.client C).receive fun frame hframe =>
    h.inbox C frame (List.mem_of_mem_take hframe)
  have hclient' := hupdated.fits harrived hgames
  refine ⟨h.lobby, client_fits_update h.client hclient', fun D frame hframe => ?_, h.posts⟩
  · rcases Room.mem_update hframe with ⟨rfl, hrest⟩ | hold
    · exact h.inbox D frame (List.mem_of_mem_drop hrest)
    · exact h.inbox D frame hold

theorem Fits.step (h : s.Fits) (hs : s.Coherent) (hgames : games.length < maxField)
    {e : OpenRoomEvent Sid}
    (hname : ∀ C playerName, e = .join C playerName → playerName.length < 256)
    (hstep : s.step games e = some s') : s'.Fits := by
  cases e with
  | join C playerName => exact h.join hs (hname C playerName rfl) hstep
  | leave C => exact h.leave hs hstep
  | relay C =>
      obtain ⟨room, hrelay, rfl⟩ := Option.map_eq_some_iff.mp hstep
      exact h.relay hs hrelay
  | post C =>
      obtain ⟨room, hpost, rfl⟩ := Option.map_eq_some_iff.mp hstep
      exact h.post hpost
  | update C count buttons =>
      obtain ⟨room, hupdate, rfl⟩ := Option.map_eq_some_iff.mp hstep
      exact h.update hgames hupdate

end OpenRoom

end ChatGames
