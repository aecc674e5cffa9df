import ChatGames.Proof.Convergence
import ChatGames.Proof.Members

/-!
# Whom the tables have

A client makes an entry for the sender of a message, for the rows of a table that it takes over,
and, as the master, for the players on its list; and it takes none out. The server hands the id of a
player that left to the next one that joins. As long as a player leaves only while no other member
has its id in anything, and a master gives an entry only to players that are still on every list on
its way, every id in a table is on its client's list of players.
-/

namespace ChatGames

/-- The player is on the list. -/
def Net.Listed (players : List Net.NetPlayer) (id : Nat) : Prop :=
  ∃ player ∈ players, player.id = id

/-- The message is a table with a row for the player. -/
def LobbyMessage.Lists (id : Nat) : LobbyMessage → Prop
  | .updatePlayerData data => ∃ row ∈ data, row.id = id
  | .vote _ | .other => False

def Net.NetEvent.Mentions (id : Nat) : Net.NetEvent LobbyMessage → Prop
  | .message playerId msg => playerId = id ∨ msg.Lists id
  | .lobbyJoined _ _ | .lobbyUpdated _ => False

def Net.Frame.Mentions (id : Nat) : Net.Frame LobbyMessage → Prop
  | .relayMessage playerId msg => playerId = id ∨ msg.Lists id
  | .lobbyJoined _ _ | .updateLobby _ => False

/-- If the frame is a list of players, the player is on it. -/
def Net.Frame.Keeps (id : Nat) : Net.Frame LobbyMessage → Prop
  | .updateLobby players => Net.Listed players id
  | .lobbyJoined _ _ | .relayMessage _ _ => True

instance decidableLists (id : Nat) : ∀ msg : LobbyMessage, Decidable (msg.Lists id)
  | .updatePlayerData data => inferInstanceAs (Decidable (∃ row ∈ data, row.id = id))
  | .vote _ | .other => inferInstanceAs (Decidable False)

instance decidableEventMentions (id : Nat) :
    ∀ event : Net.NetEvent LobbyMessage, Decidable (event.Mentions id)
  | .message playerId msg => inferInstanceAs (Decidable (playerId = id ∨ msg.Lists id))
  | .lobbyJoined _ _ | .lobbyUpdated _ => inferInstanceAs (Decidable False)

instance decidableFrameMentions (id : Nat) :
    ∀ frame : Net.Frame LobbyMessage, Decidable (frame.Mentions id)
  | .relayMessage playerId msg => inferInstanceAs (Decidable (playerId = id ∨ msg.Lists id))
  | .lobbyJoined _ _ | .updateLobby _ => inferInstanceAs (Decidable False)

instance decidableKeeps (id : Nat) : ∀ frame : Net.Frame LobbyMessage, Decidable (frame.Keeps id)
  | .updateLobby players => inferInstanceAs (Decidable (∃ player ∈ players, player.id = id))
  | .lobbyJoined _ _ | .relayMessage _ _ => inferInstanceAs (Decidable True)

namespace Client

/-- The client has an entry for the player, or an event that may make one. -/
def Holds (id : Nat) (client : Client) : Prop :=
  id ∈ client.playerData.keys ∨ ∃ event ∈ client.net.events, event.Mentions id

/-- The same, or it is about to send a row for the player. -/
def Mentions (id : Nat) (client : Client) : Prop :=
  client.Holds id ∨ ∃ msg ∈ client.out, msg.Lists id

def OnList (id : Nat) (client : Client) : Prop := Net.Listed client.net.players id

/-- At the end of a master's tick, the player gets an entry. -/
def Adds (id : Nat) (client : Client) : Prop :=
  client.scene = .lobby ∧ client.net.events = [] ∧ client.isMaster = .ok true ∧
    client.OnList id ∧ id ∉ client.playerData.keys

/-- Whoever the client has an entry for, or is about to make one for, is on its list. -/
def Within (client : Client) : Prop := ∀ id, client.Holds id → client.OnList id

instance decidableMentions (id : Nat) (client : Client) : Decidable (client.Mentions id) :=
  inferInstanceAs (Decidable ((_ ∨ _) ∨ _))

variable {client client' : Client} {id : Nat} {V W : Nat → Prop} {games : List Game}
  {buttons : Buttons}

theorem holds_receive (frames : List (Net.Frame LobbyMessage)) :
    (client.receive frames).Holds id ↔ client.Holds id ∨ ∃ frame ∈ frames, frame.Mentions id := by
  have hevents : (client.receive frames).net.events =
      client.net.events ++ frames.map Net.Frame.event := Net.Table.events_receive _ _
  have hframe (frame : Net.Frame LobbyMessage) :
      frame.event.Mentions id ↔ frame.Mentions id := by
    cases frame <;> rfl
  rw [Holds, Holds, hevents, or_assoc]
  apply or_congr_right
  simp only [List.mem_append, List.mem_map, or_and_right, exists_or, exists_exists_and_eq_and,
    hframe]

/-! ### A client's step -/

/-- The entries and events are about players that `V` knows, and the rows to be sent about players
that `W` knows. -/
structure About (V W : Nat → Prop) (client : Client) : Prop where
  table : ∀ id ∈ client.playerData.keys, V id
  events : ∀ event ∈ client.net.events, ∀ id, event.Mentions id → V id
  out : ∀ msg ∈ client.out, ∀ id, msg.Lists id → W id

theorem About.holds (h : client.About V W) (hid : client.Holds id) : V id := by
  rcases hid with hkey | ⟨event, hevent, hmentions⟩
  · exact h.table id hkey
  · exact h.events event hevent id hmentions

theorem About.of_same (h : client.About V W) (hplayerData : client'.playerData = client.playerData)
    (hnet : client'.net = client.net) (hout : client'.out = client.out) :
    client'.About V W where
  table := hplayerData ▸ h.table
  events := hnet ▸ h.events
  out := hout ▸ h.out

theorem About.send (h : client.About V W) : client.send.About V W :=
  ⟨h.table, h.events, forall_out_send h.out⟩

theorem About.insert (h : client.About V W) (hid : V id) (entry : PlayerEntry) :
    ({ client with playerData := client.playerData.insert id entry } : Client).About V W := by
  refine ⟨fun id' hkey => ?_, h.events, h.out⟩
  rcases (AList.mem_insert client.playerData).mp hkey with rfl | hkey
  · exact hid
  · exact h.table id' hkey

section Sending

variable (hVW : ∀ id, V id → W id)

include hVW

theorem About.sendPlayerData (h : client.About V W) : client.sendPlayerData.About V W := by
  refine ⟨h.table, h.events, forall_out_sendMessage h.out ?_⟩
  rintro id ⟨row, hrow, rfl⟩
  apply hVW
  exact h.table row.id
    (PlayerData.mem_keys_iff.mpr ⟨_, (PlayerData.mem_rows client.playerData).mp hrow⟩)

theorem About.processed {msg : LobbyMessage} (h : client.About V W)
    (hmsg : ∀ id', (Net.NetEvent.message id msg).Mentions id' → V id')
    (hprocessed : Processed client id msg client') : client'.About V W := by
  have hsender : V id := hmsg id (Or.inl rfl)
  cases hprocessed with
  | vote => exact (h.insert hsender _).of_same rfl rfl rfl
  | @voteAtMaster vote =>
      have hvoted : ((client.setVote id vote).addVoted id).About V W :=
        (h.insert hsender _).of_same rfl rfl rfl
      exact hvoted.sendPlayerData hVW
  | @table data =>
      refine ⟨fun id' hkey => ?_, h.events, h.out⟩
      obtain ⟨entry, hentry⟩ := PlayerData.mem_keys_iff.mp hkey
      change (PlayerData.ofRows data).lookup id' = some entry at hentry
      rw [PlayerData.lookup_ofRows, Option.map_eq_some_iff] at hentry
      obtain ⟨row, hrow, -⟩ := hentry
      exact hmsg id' (Or.inr ⟨row, PlayerData.id_of_lastRow hrow⟩)
  | tableAtMaster | other => exact h.insert hsender _

theorem About.completePlayerData (h : client.About V W)
    (hadds : client.isMaster = .ok true → ∀ id, client.OnList id → id ∉ client.playerData.keys →
      V id) (hcomplete : client.completePlayerData = .ok client') : client'.About V W := by
  rcases completePlayerData_eq_ok hcomplete with
    ⟨-, rfl⟩ | ⟨hmaster, playerData, indices, hcompleted, hclient'⟩
  · exact h
  · have hfilled : (client.withPlayerData playerData indices).About V W := by
      refine ⟨fun id hkey => ?_, h.events, h.out⟩
      by_cases hold : id ∈ client.playerData.keys
      · exact h.table id hold
      · obtain ⟨entry, hentry⟩ := PlayerData.mem_keys_iff.mp hkey
        have hnone : client.playerData.lookup id = none := by
          by_contra hsome
          exact hold (PlayerData.mem_keys_iff.mpr (Option.ne_none_iff_exists'.mp hsome))
        exact hadds hmaster id (hcompleted.fresh id entry hentry hnone).1 hold
    rcases hclient' with rfl | ⟨-, rfl⟩
    · exact hfilled.sendPlayerData hVW
    · exact hfilled

theorem About.pressVote (h : client.About V W) (hpress : client.pressVote = .ok client') :
    client'.About V W := by
  obtain ⟨playerId, entry, vote, -, hentry, hclient'⟩ := pressVote_eq_ok hpress
  have hid := h.table playerId (PlayerData.mem_keys_iff.mpr ⟨entry, hentry⟩)
  have hclicked : (client.click playerId vote).About V W :=
    (h.insert hid _).of_same rfl rfl rfl
  rcases hclient' with ⟨-, rfl⟩ | ⟨-, rfl⟩
  · exact hclicked.sendPlayerData hVW
  · exact ⟨hclicked.table, hclicked.events, forall_out_sendMessage hclicked.out fun _ => False.elim⟩

/-- A call of `net.update` makes entries for nobody else, but for whom a master adds. -/
theorem About.updated (h : client.About V W) (hadds : ∀ id, client.Adds id → V id)
    (hupdated : Updated games buttons client client') : client'.About V W := by
  have hpopped {event : Net.NetEvent LobbyMessage} {events : List (Net.NetEvent LobbyMessage)}
      (hevents : client.net.events = event :: events) :
      (∀ id, event.Mentions id → V id) ∧ (client.popEvent events).About V W := by
    have hall := h.events
    rw [hevents] at hall
    obtain ⟨hevent, hrest⟩ := List.forall_mem_cons.mp hall
    exact ⟨hevent, h.table, hrest, h.out⟩
  cases hupdated with
  | wait => exact h.send
  | enter _ hevents | skip _ hevents => exact (hpopped hevents).2.of_same rfl rfl rfl
  | @message playerId msg events _ _ hevents hprocessed =>
      obtain ⟨hmsg, hpop⟩ := hpopped hevents
      have hgoOn : (client.popEvent events).goOn.About V W := hpop.of_same rfl rfl rfl
      exact hgoOn.processed hVW hmsg hprocessed
  | finish hscene hevents hfinish =>
      obtain ⟨completed, startHidden, selectedGame, pressed, selectedGame', hcompleted, hpressed,
        rfl⟩ := finishTick_eq_ok hfinish
      have hfilled := h.send.completePlayerData hVW
        (fun hmaster id hlisted hnew => hadds id ⟨hscene, hevents, hmaster, hlisted, hnew⟩)
        hcompleted
      have hshown : (completed.withButtons startHidden selectedGame).About V W :=
        hfilled.of_same rfl rfl rfl
      have hafter : pressed.About V W := by
        rcases hpressed with rfl | hpressed
        · exact hshown
        · exact hshown.pressVote hVW hpressed
      exact hafter.of_same rfl rfl rfl

end Sending

/-! ### The frames on their way to a client -/

theorem receive_append (client : Client) (frames more : List (Net.Frame LobbyMessage)) :
    client.receive (frames ++ more) = (client.receive frames).receive more := by
  rw [receive, receive, receive, Net.Table.receive_append]

/-- When the client has received the frames, `players` is its list; and whatever front of them it
receives next, it holds only players on the list that it then has. -/
structure Abreast (players : List Net.NetPlayer) (frames : List (Net.Frame LobbyMessage))
    (client : Client) : Prop where
  informed : (client.receive frames).net.players = players
  within : ∀ front, front <+: frames → (client.receive front).Within
  out : ∀ msg ∈ client.out, ∀ id, msg.Lists id → Net.Listed players id

variable {players players' : List Net.NetPlayer} {frames more : List (Net.Frame LobbyMessage)}

theorem Abreast.listed (h : client.Abreast players frames)
    (hid : client.Mentions id ∨ ∃ frame ∈ frames, frame.Mentions id) : Net.Listed players id := by
  have hheld (hid : (client.receive frames).Holds id) : Net.Listed players id :=
    h.informed ▸ h.within frames (List.prefix_refl _) id hid
  rcases hid with (hholds | ⟨msg, hmsg, hlists⟩) | hframe
  · exact hheld ((holds_receive frames).mpr (Or.inl hholds))
  · exact h.out msg hmsg id hlists
  · exact hheld ((holds_receive frames).mpr (Or.inr hframe))

theorem Abreast.of_same (h : client.Abreast players frames)
    (hplayerData : client'.playerData = client.playerData) (hnet : client'.net = client.net)
    (hout : ∀ msg ∈ client'.out, ∀ id, msg.Lists id → Net.Listed players id) :
    client'.Abreast players frames := by
  have hreceive (front : List (Net.Frame LobbyMessage)) :
      (client'.receive front).net = (client.receive front).net :=
    congrArg (Net.Table.receive · front) hnet
  refine ⟨hreceive frames ▸ h.informed, fun front hfront id hid => ?_, hout⟩
  rw [OnList, hreceive]
  apply h.within front hfront id
  change id ∈ client'.playerData.keys ∨ ∃ event ∈ (client'.receive front).net.events, _ at hid
  rwa [hplayerData, hreceive] at hid

/-- The server takes the next message of the client. -/
theorem Abreast.relayed {msg : LobbyMessage} {sent : List LobbyMessage}
    (h : client.Abreast players frames) (hsent : client.sent = msg :: sent) :
    (∀ id, msg.Lists id → Net.Listed players id) ∧
      ({ client with sent := sent } : Client).Abreast players frames := by
  have hout := h.out
  rw [out_of_sent hsent] at hout
  obtain ⟨hmsg, hrest⟩ := List.forall_mem_cons.mp hout
  exact ⟨hmsg, h.of_same rfl rfl hrest⟩

theorem abreast_joined {indices : List Nat} {lobbyId : Bytes} {playerId : Nat} :
    (init indices).Abreast [] [.lobbyJoined lobbyId playerId] where
  informed := rfl
  within front hfront id hid := by
    exfalso
    rcases (holds_receive front).mp hid with (hkey | ⟨event, hevent, -⟩) | ⟨frame, hframe, hid⟩
    · cases hkey
    · cases hevent
    · rw [List.mem_singleton.mp (hfront.subset hframe)] at hid
      exact hid
  out msg hmsg := by cases hmsg

/-- The list changes, and the client is sent it: whom the client may know has to stay on it. -/
theorem Abreast.list (h : client.Abreast players frames)
    (hmore : ∀ frame ∈ more, frame = .updateLobby players') (hne : more ≠ [])
    (hkept : ∀ id, Net.Listed players id → client.Mentions id ∨ (∃ frame ∈ frames,
      frame.Mentions id) → Net.Listed players' id) : client.Abreast players' (frames ++ more) := by
  have hlist (front : List (Net.Frame LobbyMessage)) (hfront : front <+: more)
      (hnonempty : front ≠ []) : (client.receive (frames ++ front)).net.players = players' := by
    rw [receive_append]
    refine Net.Table.players_receive_updateLobby _ ?_ hnonempty
    exact fun frame hframe => hmore frame (hfront.subset hframe)
  have hknown (id : Nat) (hid : client.Mentions id ∨ ∃ frame ∈ frames, frame.Mentions id) :
      Net.Listed players' id := hkept id (h.listed hid) hid
  refine ⟨hlist more (List.prefix_refl _) hne, ?_,
    fun msg hmsg id hlists => hknown id (Or.inl (Or.inr ⟨msg, hmsg, hlists⟩))⟩
  rintro front ⟨back, hsplit⟩ id hid
  rcases List.append_eq_append_iff.mp hsplit with ⟨rest, rfl, -⟩ | ⟨rest, rfl, hrest⟩
  · exact h.within front (List.prefix_append _ _) id hid
  · by_cases hnil : rest = []
    · rw [hnil, List.append_nil] at hid ⊢
      exact h.within frames (List.prefix_refl _) id hid
    · have hfront : rest <+: more := hrest ▸ List.prefix_append _ _
      rw [OnList, hlist rest hfront hnil]
      rcases (holds_receive _).mp hid with hholds | ⟨frame, hframe, hmentions⟩
      · exact hknown id (Or.inl (Or.inl hholds))
      · rcases List.mem_append.mp hframe with hold | hnew
        · exact hknown id (Or.inr ⟨frame, hold, hmentions⟩)
        · rw [hmore frame (hfront.subset hnew)] at hmentions
          exact hmentions.elim

/-- A message comes that mentions only players on the list. -/
theorem Abreast.message {playerId : Nat} {msg : LobbyMessage} (h : client.Abreast players frames)
    (hmsg : ∀ id, (Net.Frame.relayMessage playerId msg).Mentions id → Net.Listed players id) :
    client.Abreast players (frames ++ [.relayMessage playerId msg]) := by
  have hinformed :
      (client.receive (frames ++ [.relayMessage playerId msg])).net.players = players := by
    rw [receive_append]
    exact h.informed
  refine ⟨hinformed, fun front hfront id hid => ?_, h.out⟩
  rcases List.prefix_concat_iff.mp hfront with rfl | hfront
  · rw [OnList, hinformed]
    rw [receive_append, holds_receive] at hid
    rcases hid with hheld | ⟨frame, hframe, hmentions⟩
    · exact h.informed ▸ h.within frames (List.prefix_refl _) id hheld
    · obtain rfl := List.mem_singleton.mp hframe
      exact hmsg id hmentions
  · exact h.within front hfront id hid

theorem Abreast.receive (h : client.Abreast players (frames ++ more)) :
    (client.receive frames).Abreast players more where
  informed := receive_append client frames more ▸ h.informed
  within front hfront := receive_append client frames front ▸
    h.within (frames ++ front) ((List.prefix_append_right_inj frames).mpr hfront)
  out := h.out

/-- The lists on their way have all whom the client adds. -/
theorem onList_of_adds (hadds : client.Adds id) (hkeeps : ∀ frame ∈ frames, frame.Keeps id) :
    (client.receive frames).OnList id := by
  obtain ⟨-, -, -, hlisted, -⟩ := hadds
  rw [OnList]
  rcases Net.Table.players_receive client.net frames with hsame | hlist
  · exact hsame ▸ hlisted
  · exact hkeeps _ hlist

theorem Abreast.updated (h : client.Abreast players frames)
    (hkeeps : ∀ id, client.Adds id → ∀ frame ∈ frames, frame.Keeps id)
    (hupdated : Updated games buttons client client') : client'.Abreast players frames := by
  have honList (front : List (Net.Frame LobbyMessage)) (hfront : front <+: frames) (id : Nat)
      (hid : client.Holds id ∨ client.Adds id) : (client.receive front).OnList id := by
    rcases hid with hholds | hadds
    · exact h.within front hfront id ((holds_receive front).mpr (Or.inl hholds))
    · exact onList_of_adds hadds fun frame hframe => hkeeps id hadds frame (hfront.subset hframe)
  have hknown (id : Nat) (hid : client.Holds id ∨ client.Adds id) : Net.Listed players id :=
    h.informed ▸ honList frames (List.prefix_refl _) id hid
  have habout : client.About (fun id => client.Holds id ∨ client.Adds id) (Net.Listed players) :=
    ⟨fun id hkey => Or.inl (Or.inl hkey),
      fun event hevent id hmentions => Or.inl (Or.inr ⟨event, hevent, hmentions⟩), h.out⟩
  have habout' := habout.updated hknown (fun id => Or.inr) hupdated
  obtain ⟨events, -, hnet⟩ := hupdated.net_eq
  have hplayers (front : List (Net.Frame LobbyMessage)) :
      (client'.receive front).net.players = (client.receive front).net.players := by
    apply Net.Table.players_receive_congr
    rw [hnet]
  refine ⟨(hplayers frames).trans h.informed, fun front hfront id hid => ?_, habout'.out⟩
  rw [OnList, hplayers]
  rcases (holds_receive front).mp hid with hholds | hframe
  · exact honList front hfront id (habout'.holds hholds)
  · exact h.within front hfront id ((holds_receive front).mpr (Or.inr hframe))

end Client

namespace OpenRoom

variable {Sid : Type} {s s' : OpenRoom Sid} {C D : Sid} {games : List Game} {buttons : Buttons}
  {count id : Nat}

/-- No other member has the id of the player in its table, in an event, in a message it is about to
send, or in a frame on its way to it. -/
def Forgotten (s : OpenRoom Sid) (C : Sid) : Prop :=
  ∀ id ∈ s.playerId C, ∀ D, D ≠ C → s.playerId D ≠ none →
    ¬(s.clients D).Mentions id ∧ ∀ frame ∈ s.inbox D, ¬frame.Mentions id

/-- A player leaves only when it is forgotten, and at the end of its tick a master adds an entry
only for a player that all lists on its way to the master still have. -/
def LeavesNoTrace (s : OpenRoom Sid) : OpenRoomEvent Sid → Prop
  | .leave C => s.Forgotten C
  | .update C count _ => s.EndsMasterTick C count →
      ∀ player ∈ (s.arrived C count).net.players,
        player.id ∉ (s.arrived C count).playerData.keys →
          ∀ frame ∈ (s.inbox C).drop count, frame.Keeps player.id
  | _ => True

instance decidableForgotten [DecidableEq Sid] [Fintype Sid] (s : OpenRoom Sid) (C : Sid) :
    Decidable (s.Forgotten C) :=
  inferInstanceAs (Decidable (∀ id ∈ s.playerId C, ∀ D, D ≠ C → s.playerId D ≠ none →
    ¬(s.clients D).Mentions id ∧ ∀ frame ∈ s.inbox D, ¬frame.Mentions id))

instance decidableLeavesNoTrace [DecidableEq Sid] [Fintype Sid] (s : OpenRoom Sid) :
    ∀ e : OpenRoomEvent Sid, Decidable (s.LeavesNoTrace e)
  | .leave C => inferInstanceAs (Decidable (s.Forgotten C))
  | .update C count _ => inferInstanceAs (Decidable (_ → ∀ player ∈
      (s.arrived C count).net.players, player.id ∉ (s.arrived C count).playerData.keys →
        ∀ frame ∈ (s.inbox C).drop count, frame.Keeps player.id))
  | .join _ _ | .relay _ | .post _ => inferInstanceAs (Decidable True)

structure Tracked (s : OpenRoom Sid) : Prop where
  client : ∀ D, s.playerId D ≠ none →
    (s.clients D).Abreast (Net.listing s.lobby.players) (s.inbox D)
  posts : ∀ D T frame, (T, frame) ∈ s.posts D → ∀ id, frame.Mentions id →
    Net.Listed (Net.listing s.lobby.players) id

theorem listed_listing {players : List (Player Sid)} :
    Net.Listed (Net.listing players) id ↔ ∃ player ∈ players, player.id = id := by
  simp [Net.Listed, Net.listing]

variable [DecidableEq Sid]

/-- A member is sent the list of a lobby that has changed. -/
theorem farewell_ne_nil (hs : s.Coherent) (hD : s.playerId D ≠ none) :
    farewell s.lobby D ≠ [] := by
  obtain ⟨id, hid⟩ := Option.ne_none_iff_exists'.mp hD
  obtain ⟨player, hplayer, -, hconnection⟩ := (hs.member D id).mp hid
  exact List.ne_nil_of_mem (List.mem_map_of_mem
    (List.mem_filter.mpr ⟨hplayer, decide_eq_true hconnection⟩))

/-! ### Steps -/

theorem Tracked.join {playerName : Bytes} (h : s.Tracked) (hs : s.Coherent)
    (hjoin : s.join C playerName = some s') : s'.Tracked := by
  have hs' := hs.join hjoin
  obtain ⟨hjoined, idC, lobby, hadded, rfl⟩ := join_eq_some hs.valid hjoin
  obtain ⟨-, hempty, colors, hinit⟩ := hs.fresh C hjoined
  have hkept {id : Nat} (hid : Net.Listed (Net.listing s.lobby.players) id) :
      Net.Listed (Net.listing lobby.players) id := by
    obtain ⟨player, hplayer, rfl⟩ := listed_listing.mp hid
    exact listed_listing.mpr
      ⟨player, hadded.perm.mem_iff.mpr (List.mem_cons_of_mem _ hplayer), rfl⟩
  refine ⟨fun D hD => ?_, fun D T frame hframe id hid => hkept (h.posts D T frame hframe id hid)⟩
  have hlists : ∀ frame ∈ farewell lobby D, frame = .updateLobby (Net.listing lobby.players) :=
    fun frame hframe => (mem_farewell hframe).2
  change (s.clients D).Abreast (Net.listing lobby.players) (s.inbox D ++ (_ ++ farewell lobby D))
  rw [← List.append_assoc]
  by_cases hDC : D = C
  · subst hDC
    rw [hempty, if_pos rfl, List.nil_append, hinit]
    refine Client.abreast_joined.list hlists (farewell_ne_nil hs' hD) ?_
    rintro id ⟨player, hplayer, -⟩
    cases hplayer
  · have hold : s.playerId D ≠ none := by
      intro hnone
      exact hD ((Function.update_of_ne hDC _ _).trans hnone)
    rw [if_neg hDC, List.append_nil]
    exact (h.client D hold).list hlists (farewell_ne_nil hs' hD) fun id hid _ => hkept hid

theorem Tracked.leave (h : s.Tracked) (hs : s.Coherent) (hforgotten : s.Forgotten C)
    (hleave : s.leave C = some s') : s'.Tracked := by
  have hs' := hs.leave hleave
  obtain ⟨idC, hC, hposts, -, hplayers, heq⟩ := leave_eq_some hs.valid hleave
  constructor
  · intro D hD
    have hlists : ∀ frame ∈ farewell s'.lobby D,
        frame = .updateLobby (Net.listing s'.lobby.players) :=
      fun frame hframe => (mem_farewell hframe).2
    have hstays : D ≠ C ∧ s.playerId D ≠ none := by
      obtain ⟨id, hid⟩ := Option.ne_none_iff_exists'.mp hD
      rw [heq] at hid
      obtain ⟨hne, hold⟩ := playerId_left.mp hid
      exact ⟨hne, hold ▸ Option.some_ne_none id⟩
    obtain ⟨hquiet, hframes⟩ := hforgotten idC hC D hstays.1 hstays.2
    have habreast := (h.client D hstays.2).list hlists (farewell_ne_nil hs' hD) <| by
      intro id hid hmentions
      obtain ⟨player, hplayer, rfl⟩ := listed_listing.mp hid
      refine listed_listing.mpr ⟨player, ?_, rfl⟩
      rw [hplayers]
      refine List.mem_filter.mpr ⟨hplayer, decide_eq_true ?_⟩
      rintro rfl
      rcases hmentions with hclient | ⟨frame, hframe, hmentions⟩
      · exact hquiet hclient
      · exact hframes frame hframe hmentions
    rw [heq]
    exact habreast
  · intro D T frame hframe
    rw [heq] at hframe
    change (T, frame) ∈ s.posts D at hframe
    rw [hs.posts_eq_nil hposts D] at hframe
    cases hframe

theorem Tracked.relay {room : Room Sid} (h : s.Tracked) (hs : s.Coherent)
    (hrelay : s.toRoom.relay C = some room) : (s.withRoom room).Tracked := by
  obtain ⟨idC, msg, sent, hC, hsent, -, rfl⟩ := Room.relay_eq_some hrelay
  have hmember : s.playerId C ≠ none := hC ▸ Option.some_ne_none idC
  obtain ⟨hmsg, hrelayed⟩ := (h.client C hmember).relayed hsent
  refine ⟨fun D hD => ?_, fun D T frame hpost => ?_⟩
  · change ((s.setClient C _).clients D).Abreast _ (s.inbox D)
    by_cases hDC : D = C
    · subst hDC
      rw [Room.clients_setClient_self]
      exact hrelayed
    · rw [Room.clients_setClient_of_ne _ hDC]
      exact h.client D hD
  · rcases Room.mem_update hpost with ⟨rfl, hnew⟩ | hold
    · obtain ⟨player, -, heq⟩ := List.mem_map.mp hnew
      obtain ⟨rfl, rfl⟩ := Prod.mk.inj heq
      rintro id (rfl | hlists)
      · obtain ⟨own, hown, hid, -⟩ := (hs.member D idC).mp hC
        exact listed_listing.mpr ⟨own, hown, hid⟩
      · exact hmsg id hlists
    · exact h.posts D T frame hold

theorem Tracked.post {room : Room Sid} (h : s.Tracked) (hs : s.Coherent)
    (hpost : s.toRoom.post C = some room) : (s.withRoom room).Tracked := by
  obtain ⟨T, frame, posts, hposts, rfl⟩ := Room.post_eq_some hpost
  have hmem : (T, frame) ∈ s.posts C := by simp [hposts]
  obtain ⟨-, idC, msg, -, rfl⟩ := hs.posting C T frame hmem
  refine ⟨fun D hD => ?_, fun D T' frame' hpost' => ?_⟩
  · change (s.clients D).Abreast _ (Function.update s.inbox T _ D)
    by_cases hDT : D = T
    · subst hDT
      rw [Function.update_self]
      exact (h.client D hD).message (h.posts C D _ hmem)
    · rw [Function.update_of_ne hDT]
      exact h.client D hD
  · rcases Room.mem_update hpost' with ⟨rfl, hrest⟩ | hold
    · exact h.posts D T' frame' (hposts ▸ List.mem_cons_of_mem _ hrest)
    · exact h.posts D T' frame' hold

omit [DecidableEq Sid] in
theorem Tracked.arrived (h : s.Tracked) (hC : s.playerId C ≠ none) (count : Nat) :
    (s.arrived C count).Abreast (Net.listing s.lobby.players) ((s.inbox C).drop count) := by
  have hclient := h.client C hC
  rw [← List.take_append_drop count (s.inbox C)] at hclient
  exact hclient.receive

theorem Tracked.update {room : Room Sid} (h : s.Tracked)
    (hcond : s.LeavesNoTrace (.update C count buttons))
    (hupdate : s.toRoom.update games C count buttons = some room) : (s.withRoom room).Tracked := by
  obtain ⟨client', hupdated, rfl⟩ := update_eq_some hupdate
  refine ⟨fun D hD => ?_, h.posts⟩
  change ((s.setClient C client').clients D).Abreast _ (Function.update s.inbox C _ D)
  by_cases hDC : D = C
  · subst hDC
    rw [Room.clients_setClient_self, Function.update_self]
    refine (h.arrived hD count).updated ?_ hupdated
    rintro id ⟨hscene, hevents, hmaster, ⟨player, hplayer, rfl⟩, hnew⟩
    exact hcond ⟨hD, hscene, hevents, hmaster⟩ player hplayer hnew
  · rw [Room.clients_setClient_of_ne _ hDC, Function.update_of_ne hDC]
    exact h.client D hD

theorem Tracked.step {e : OpenRoomEvent Sid} (h : s.Tracked) (hs : s.Coherent)
    (hcond : s.LeavesNoTrace e) (hstep : s.step games e = some s') : s'.Tracked := by
  cases e with
  | join C playerName => exact h.join hs hstep
  | leave C => exact h.leave hs hcond hstep
  | relay C =>
      obtain ⟨room, hroom, rfl⟩ := Option.map_eq_some_iff.mp hstep
      exact h.relay hs hroom
  | post C =>
      obtain ⟨room, hroom, rfl⟩ := Option.map_eq_some_iff.mp hstep
      exact h.post hs hroom
  | update C count buttons =>
      obtain ⟨room, hroom, rfl⟩ := Option.map_eq_some_iff.mp hstep
      exact h.update hcond hroom

end OpenRoom

end ChatGames
