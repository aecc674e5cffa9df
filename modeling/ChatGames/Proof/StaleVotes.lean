import ChatGames.Proof.Listed

/-!
# Votes of players that have left

As long as players leave without a trace, the table of a master has an entry for everybody on its
list at the end of its tick, and for nobody else. A vote in a table is then its player's own: no
other member has one of a player that leaves, or is about to get one, when the server hands its id
to the next one that joins.
-/

namespace ChatGames

/-- From the player `id`, the message says that `voter` has a vote. -/
def LobbyMessage.HasVote (id voter : Nat) : LobbyMessage → Prop
  | .vote value => value ≠ none ∧ id = voter
  | .updatePlayerData data => ∃ row ∈ data, row.id = voter ∧ row.vote ≠ none
  | .other => False

def Net.Frame.HasVote (voter : Nat) : Net.Frame LobbyMessage → Prop
  | .relayMessage id msg => msg.HasVote id voter
  | .lobbyJoined _ _ | .updateLobby _ => False

def Net.NetEvent.HasVote (voter : Nat) : Net.NetEvent LobbyMessage → Prop
  | .message id msg => msg.HasVote id voter
  | .lobbyJoined _ _ | .lobbyUpdated _ => False

def PlayerData.HasVote (voter : Nat) (playerData : PlayerData) : Prop :=
  ∃ entry, playerData.lookup voter = some entry ∧ entry.vote ≠ none

instance decidableTableHasVote (voter : Nat) (playerData : PlayerData) :
    Decidable (playerData.HasVote voter) :=
  decidable_of_iff ((playerData.lookup voter).any fun entry => entry.vote.isSome) <| by
    simp [PlayerData.HasVote, Option.any_eq_true, Option.isSome_iff_ne_none]

theorem LobbyMessage.HasVote.mentions {msg : LobbyMessage} {id voter : Nat}
    (h : msg.HasVote id voter) : id = voter ∨ msg.Lists voter := by
  cases msg with
  | vote value => exact Or.inl h.2
  | updatePlayerData data =>
      obtain ⟨row, hrow, hid, -⟩ := h
      exact Or.inr ⟨row, hrow, hid⟩
  | other => exact h.elim

theorem Net.Frame.HasVote.mentions {frame : Net.Frame LobbyMessage} {voter : Nat}
    (h : frame.HasVote voter) : frame.Mentions voter := by
  cases frame with
  | relayMessage id msg => exact LobbyMessage.HasVote.mentions h
  | lobbyJoined | updateLobby => exact h.elim

theorem Net.NetEvent.HasVote.mentions {event : Net.NetEvent LobbyMessage} {voter : Nat}
    (h : event.HasVote voter) : event.Mentions voter := by
  cases event with
  | message id msg => exact LobbyMessage.HasVote.mentions h
  | lobbyJoined | lobbyUpdated => exact h.elim

namespace Client

variable {client client' : Client} {own : Nat} {V V' : Nat → Prop} {games : List Game}
  {buttons : Buttons}

/-- The client of the player `own` has a vote of `voter`, or is about to see or to send one. -/
def HasVote (own voter : Nat) (client : Client) : Prop :=
  client.playerData.HasVote voter ∨ (∃ event ∈ client.net.events, event.HasVote voter) ∨
    ∃ msg ∈ client.out, msg.HasVote own voter

theorem HasVote.mentions {voter : Nat} (h : client.HasVote own voter) (hne : own ≠ voter) :
    client.Mentions voter := by
  rcases h with ⟨entry, hentry, -⟩ | ⟨event, hevent, hvote⟩ | ⟨msg, hmsg, hvote⟩
  · exact Or.inl (Or.inl (PlayerData.mem_keys_iff.mpr ⟨entry, hentry⟩))
  · exact Or.inl (Or.inr ⟨event, hevent, hvote.mentions⟩)
  · exact Or.inr ⟨msg, hmsg, hvote.mentions.resolve_left hne⟩

/-- Every vote that the client of the player `own` has is one that `V` knows. -/
structure Backed (V : Nat → Prop) (own : Nat) (client : Client) : Prop where
  playerId : ∀ id, client.net.playerId = some id → id = own
  table : ∀ voter, client.playerData.HasVote voter → V voter
  events : ∀ event ∈ client.net.events, ∀ voter, event.HasVote voter → V voter
  out : ∀ msg ∈ client.out, ∀ voter, msg.HasVote own voter → V voter

theorem Backed.imp (h : client.Backed V own)
    (hV : ∀ voter, client.HasVote own voter → V voter → V' voter) : client.Backed V' own where
  playerId := h.playerId
  table voter hvote := hV voter (Or.inl hvote) (h.table voter hvote)
  events event hevent voter hvote :=
    hV voter (Or.inr (Or.inl ⟨event, hevent, hvote⟩)) (h.events event hevent voter hvote)
  out msg hmsg voter hvote :=
    hV voter (Or.inr (Or.inr ⟨msg, hmsg, hvote⟩)) (h.out msg hmsg voter hvote)

theorem backed_init (indices : List Nat) : (init indices).Backed V own where
  playerId id h := by cases h
  table voter h := by
    obtain ⟨entry, hentry, -⟩ := h
    cases hentry
  events event h := by cases h
  out msg h := by cases h

/-- Nothing else about the client counts. -/
theorem Backed.of_same (h : client.Backed V own)
    (hplayerData : client'.playerData = client.playerData) (hnet : client'.net = client.net)
    (hout : client'.out = client.out) : client'.Backed V own where
  playerId := hnet ▸ h.playerId
  table := hplayerData ▸ h.table
  events := hnet ▸ h.events
  out := hout ▸ h.out

/-! ### A client's step -/

theorem hasVote_rows {playerData : PlayerData} {id voter : Nat}
    (h : (LobbyMessage.updatePlayerData playerData.rows).HasVote id voter) :
    playerData.HasVote voter := by
  obtain ⟨row, hrow, rfl, hvote⟩ := h
  exact ⟨_, (PlayerData.mem_rows playerData).mp hrow, hvote⟩

theorem hasVote_setVote {playerId voter : Nat} {vote : Option Nat}
    (h : (client.setVote playerId vote).playerData.HasVote voter) :
    client.playerData.HasVote voter ∨ vote ≠ none ∧ playerId = voter := by
  obtain ⟨entry, hentry, hvote⟩ := h
  rw [lookup_setVote] at hentry
  split at hentry
  · obtain rfl := Option.some.inj hentry
    exact Or.inr ⟨hvote, Eq.symm ‹_›⟩
  · exact Or.inl ⟨entry, hentry, hvote⟩

theorem hasVote_addEntry {playerId voter : Nat}
    (h : (client.addEntry playerId).playerData.HasVote voter) :
    client.playerData.HasVote voter := by
  obtain ⟨entry, hentry, hvote⟩ := h
  by_cases hvoter : voter = playerId
  · subst hvoter
    rw [addEntry, AList.lookup_insert] at hentry
    cases hold : client.playerData.lookup voter with
    | none =>
        rw [PlayerData.entry, hold] at hentry
        exact absurd rfl (Option.some.inj hentry ▸ hvote)
    | some old =>
        rw [PlayerData.entry, hold] at hentry
        exact ⟨entry, hold.trans hentry, hvote⟩
  · rw [addEntry, AList.lookup_insert_ne hvoter] at hentry
    exact ⟨entry, hentry, hvote⟩

theorem hasVote_ofRows {data : List PlayerRow} {id voter : Nat}
    (h : (PlayerData.ofRows data).HasVote voter) :
    (LobbyMessage.updatePlayerData data).HasVote id voter := by
  obtain ⟨entry, hentry, hvote⟩ := h
  rw [PlayerData.lookup_ofRows, Option.map_eq_some_iff] at hentry
  obtain ⟨row, hrow, rfl⟩ := hentry
  obtain ⟨hmem, hid⟩ := PlayerData.id_of_lastRow hrow
  exact ⟨row, hmem, hid, hvote⟩

theorem Backed.sendPlayerData (h : client.Backed V own) : client.sendPlayerData.Backed V own where
  playerId := h.playerId
  table := h.table
  events := h.events
  out := forall_out_sendMessage h.out fun voter hvote => h.table voter (hasVote_rows hvote)

theorem Backed.send (h : client.Backed V own) : client.send.Backed V own :=
  ⟨h.playerId, h.table, h.events, forall_out_send h.out⟩

theorem Backed.setVote (h : client.Backed V own) {id : Nat} (vote : Option Nat)
    (hvote : vote ≠ none → V id) : (client.setVote id vote).Backed V own where
  playerId := h.playerId
  table voter hvoter := by
    rcases hasVote_setVote hvoter with hold | ⟨hsome, rfl⟩
    · exact h.table voter hold
    · exact hvote hsome
  events := h.events
  out := h.out

theorem Backed.processed {id : Nat} {msg : LobbyMessage} (h : client.Backed V own)
    (hmsg : ∀ voter, msg.HasVote id voter → V voter)
    (hprocessed : Processed client id msg client') : client'.Backed V own := by
  cases hprocessed with
  | @vote vote =>
      have hset := h.setVote vote fun hsome => hmsg id ⟨hsome, rfl⟩
      exact hset.of_same rfl rfl rfl
  | @voteAtMaster vote =>
      have hset := h.setVote vote fun hsome => hmsg id ⟨hsome, rfl⟩
      have hvoted : ((client.setVote id vote).addVoted id).Backed V own :=
        hset.of_same rfl rfl rfl
      exact hvoted.sendPlayerData
  | table =>
      exact ⟨h.playerId, fun voter hvote => hmsg voter (hasVote_ofRows hvote), h.events, h.out⟩
  | tableAtMaster | other =>
      exact ⟨h.playerId, fun voter hvote => h.table voter (hasVote_addEntry hvote), h.events, h.out⟩

/-- The entries that the master adds have no vote. -/
theorem hasVote_completed {playerData playerData' : PlayerData} {players : List Net.NetPlayer}
    {indices indices' : List Nat} {voter : Nat}
    (h : Completed players playerData indices playerData' indices')
    (hvote : playerData'.HasVote voter) : playerData.HasVote voter := by
  obtain ⟨entry, hentry, hsome⟩ := hvote
  cases hold : playerData.lookup voter with
  | some old =>
      have hkept := h.kept voter old hold
      rw [hentry] at hkept
      exact ⟨old, hold, Option.some.inj hkept ▸ hsome⟩
  | none =>
      obtain ⟨-, color, -, rfl⟩ := h.fresh voter entry hentry hold
      exact absurd rfl hsome

theorem Backed.completePlayerData (h : client.Backed V own)
    (hcomplete : client.completePlayerData = .ok client') : client'.Backed V own := by
  rcases completePlayerData_eq_ok hcomplete with
    ⟨-, rfl⟩ | ⟨-, playerData, indices, hcompleted, hclient'⟩
  · exact h
  · have hfilled : (client.withPlayerData playerData indices).Backed V own :=
      ⟨h.playerId, fun voter hvote => h.table voter (hasVote_completed hcompleted hvote), h.events,
        h.out⟩
    rcases hclient' with rfl | ⟨-, rfl⟩
    · exact hfilled.sendPlayerData
    · exact hfilled

theorem clicked_of_completePlayerData (h : client.completePlayerData = .ok client') :
    client'.history.clicked = client.history.clicked := by
  rcases completePlayerData_eq_ok h with ⟨-, rfl⟩ | ⟨-, _, _, -, rfl | ⟨-, rfl⟩⟩ <;> rfl

theorem clicked_of_pressVote (h : client.pressVote = .ok client') :
    client'.history.clicked ≠ none := by
  obtain ⟨_, _, vote, -, -, ⟨-, rfl⟩ | ⟨-, rfl⟩⟩ := pressVote_eq_ok h <;>
    exact Option.some_ne_none vote

/-- The vote that a click makes is the client's own. -/
theorem Backed.pressVote (h : client.Backed V own) (hown : V own)
    (hpress : client.pressVote = .ok client') : client'.Backed V own := by
  obtain ⟨playerId, entry, vote, hplayer, -, hclient'⟩ := pressVote_eq_ok hpress
  obtain rfl := h.playerId playerId hplayer
  have hset := h.setVote (some vote) fun _ => hown
  have hclicked : (client.click playerId vote).Backed V playerId := hset.of_same rfl rfl rfl
  rcases hclient' with ⟨-, rfl⟩ | ⟨-, rfl⟩
  · exact hclicked.sendPlayerData
  · refine ⟨hclicked.playerId, hclicked.table, hclicked.events, ?_⟩
    apply forall_out_sendMessage hclicked.out
    rintro voter ⟨-, rfl⟩
    exact hown

/-- A vote stays clicked. -/
theorem Updated.clicked (h : Updated games buttons client client')
    (hclicked : client.history.clicked ≠ none) : client'.history.clicked ≠ none := by
  cases h with
  | wait | enter | skip => exact hclicked
  | message _ _ hprocessed =>
      cases hprocessed <;> exact hclicked
  | finish _ _ hfinish =>
      refine finishTick_invariant (P := fun other => other.history.clicked ≠ none) hfinish hclicked
        ?_ ?_ ?_ ?_
      · intro other other' hother hcomplete
        rwa [clicked_of_completePlayerData hcomplete]
      · exact fun _ _ _ hother => hother
      · exact fun _ _ _ hpress => clicked_of_pressVote hpress
      · exact fun _ hother => hother

/-- If the client clicks a vote in the rest of its tick, `V` knows it. -/
theorem Backed.finishTick (h : client.Backed V own)
    (hfinish : client.finishTick games buttons = .ok client')
    (hclicked : client'.history.clicked ≠ none → V own) : client'.Backed V own := by
  -- whether it is clicked is known at the end only
  suffices hboth : client'.Backed (fun voter => V voter ∨ voter = own) own ∧
      (client'.history.clicked = none → client'.Backed V own) by
    by_cases hnone : client'.history.clicked = none
    · exact hboth.2 hnone
    · exact hboth.1.imp fun voter _ => fun hvoter => hvoter.elim id fun heq => heq ▸ hclicked hnone
  refine finishTick_invariant (P := fun other =>
    other.Backed (fun voter => V voter ∨ voter = own) own ∧
      (other.history.clicked = none → other.Backed V own)) hfinish ?_ ?_ ?_ ?_ ?_
  · exact ⟨h.imp fun _ _ => Or.inl, fun _ => h⟩
  · rintro other other' ⟨hother, hnone⟩ hcomplete
    refine ⟨hother.completePlayerData hcomplete, fun hsame => ?_⟩
    rw [clicked_of_completePlayerData hcomplete] at hsame
    exact (hnone hsame).completePlayerData hcomplete
  · rintro other startHidden selectedGame ⟨hother, hnone⟩
    exact ⟨hother.of_same rfl rfl rfl, fun hsame => (hnone hsame).of_same rfl rfl rfl⟩
  · rintro other other' ⟨hother, -⟩ hpress
    exact ⟨hother.pressVote (Or.inr rfl) hpress,
      fun hsame => absurd hsame (clicked_of_pressVote hpress)⟩
  · rintro other ⟨hother, hnone⟩
    exact ⟨hother.of_same rfl rfl rfl, fun hsame => (hnone hsame).of_same rfl rfl rfl⟩

theorem Backed.updated (h : client.Backed V own)
    (hupdated : Updated games buttons client client')
    (hclicked : client'.history.clicked ≠ none → V own) : client'.Backed V own := by
  have hpopped {event : Net.NetEvent LobbyMessage} {events : List (Net.NetEvent LobbyMessage)}
      (hevents : client.net.events = event :: events) (event' : Net.NetEvent LobbyMessage)
      (hmem : event' ∈ events) : ∀ voter, event'.HasVote voter → V voter := by
    apply h.events event'
    rw [hevents]
    exact List.mem_cons_of_mem _ hmem
  cases hupdated with
  | wait => exact h.send
  | enter _ hevents | skip _ hevents => exact ⟨h.playerId, h.table, hpopped hevents, h.out⟩
  | @message playerId msg events _ _ hevents hprocessed =>
      have hpop : ((client.popEvent events).goOn).Backed V own :=
        ⟨h.playerId, h.table, hpopped hevents, h.out⟩
      refine hpop.processed (h.events (.message playerId msg) ?_) hprocessed
      rw [hevents]
      exact List.mem_cons_self
  | finish _ _ hfinish => exact h.send.finishTick hfinish hclicked

/-! ### The end of a tick -/

end Client

namespace OpenRoom

variable {Sid : Type} {s s' : OpenRoom Sid} {C : Sid} {games : List Game} {buttons : Buttons}
  {count voter : Nat}

/-- A member has the id, and has clicked a vote. -/
def Voter (s : OpenRoom Sid) (id : Nat) : Prop :=
  ∃ C, s.playerId C = some id ∧ (s.clients C).history.clicked ≠ none

/-- What a frame on its way to the player `own` may say. -/
def BackedFrame (V : Nat → Prop) (own : Nat) (frame : Net.Frame LobbyMessage) : Prop :=
  (∀ lobbyId id, frame = .lobbyJoined lobbyId id → id = own) ∧
    ∀ voter, frame.HasVote voter → V voter

theorem localRules_backed (V : Nat → Prop) :
    LocalRules (fun own client => client.Backed V own) (BackedFrame V) where
  welcomed lobbyId id := by
    refine ⟨fun lobbyId' id' heq => ?_, fun voter hvote => hvote.elim⟩
    cases heq
    rfl
  relayed id client msg sent h hsent := by
    have hout := h.out
    rw [Client.out_of_sent hsent] at hout
    obtain ⟨hmsg, hrest⟩ := List.forall_mem_cons.mp hout
    refine ⟨⟨h.playerId, h.table, h.events, hrest⟩, fun id' => ⟨?_, hmsg⟩⟩
    intro lobbyId' id'' heq
    cases heq
  received id client frames h hframes := by
    refine ⟨?_, h.table, ?_, h.out⟩
    · intro id' hid'
      rcases Net.Table.playerId_receive_cases client.net frames with
        hsame | ⟨lobbyId, id'', hmem, hnew⟩
      · exact h.playerId id' (hsame.symm.trans hid')
      · obtain rfl := Option.some.inj (hnew.symm.trans hid')
        exact (hframes _ hmem).1 lobbyId id'' rfl
    · refine Net.Table.forall_events_receive h.events fun frame hframe => ?_
      have hbacked := (hframes frame hframe).2
      cases frame <;> exact hbacked

/-! ### Who has voted -/

variable [DecidableEq Sid]

theorem Voter.step {e : OpenRoomEvent Sid} (h : s.Voter voter) (hs : s.Coherent)
    (hstep : s.step games e = some s') (hstays : ∀ C, e = .leave C → s.playerId C ≠ some voter) :
    s'.Voter voter := by
  obtain ⟨D, hD, hclicked⟩ := h
  cases e with
  | join C playerName =>
      obtain ⟨hjoined, id, lobby, -, rfl⟩ := join_eq_some hs.valid hstep
      exact ⟨D, Room.playerId_kept (hs.fresh C hjoined).1 hD, hclicked⟩
  | leave C =>
      obtain ⟨id, hC, -, -, -, hs'⟩ := leave_eq_some hs.valid hstep
      rw [hs']
      refine ⟨D, playerId_left.mpr ⟨?_, hD⟩, hclicked⟩
      rintro rfl
      exact hstays D rfl hD
  | relay C =>
      obtain ⟨room, hroom, rfl⟩ := Option.map_eq_some_iff.mp hstep
      obtain ⟨id, msg, sent, -, -, -, rfl⟩ := Room.relay_eq_some hroom
      refine ⟨D, hD, ?_⟩
      have hsame : ((s.setClient C { s.clients C with sent := sent }).clients D).history.clicked =
          (s.clients D).history.clicked := by
        refine Room.setClient_same (fun client => client.history.clicked) ?_ D
        rfl
      exact hsame ▸ hclicked
  | post C =>
      obtain ⟨room, hroom, rfl⟩ := Option.map_eq_some_iff.mp hstep
      obtain ⟨T, frame, posts, -, rfl⟩ := Room.post_eq_some hroom
      exact ⟨D, hD, hclicked⟩
  | update C count buttons =>
      obtain ⟨room, hroom, rfl⟩ := Option.map_eq_some_iff.mp hstep
      obtain ⟨client', hupdated, rfl⟩ := update_eq_some hroom
      refine ⟨D, hD, ?_⟩
      change ((s.setClient C client').clients D).history.clicked ≠ none
      by_cases hDC : D = C
      · subst hDC
        rw [Room.clients_setClient_self]
        exact hupdated.clicked hclicked
      · rw [Room.clients_setClient_of_ne _ hDC]
        exact hclicked

/-- Every vote that anybody has is of a member that has clicked one. -/
def Voted (s : OpenRoom Sid) : Prop :=
  s.Local (fun own client => client.Backed s.Voter own) (BackedFrame s.Voter)

omit [DecidableEq Sid] in
theorem voted_init (lobbyName : Bytes) (colors : Sid → ShuffledColors) :
    (init lobbyName colors).Voted := local_init lobbyName colors

/-- A step keeps what the voters after it know. -/
theorem Local.backed_step {V : Nat → Prop} {e : OpenRoomEvent Sid}
    (h : s.Local (fun own client => client.Backed V own) (BackedFrame V)) (hs : s.Coherent)
    (hstep : s.step games e = some s')
    (hclicked : ∀ C count buttons, e = .update C count buttons → ∀ id, s.playerId C = some id →
      (s'.clients C).history.clicked ≠ none → V id) :
    s'.Local (fun own client => client.Backed V own) (BackedFrame V) := by
  refine h.step (localRules_backed V) hs hstep ?_ ?_ ?_
  · exact fun D id colors _ => Client.backed_init colors.indices
  · refine fun id => ⟨?_, fun voter hvote => hvote.elim⟩
    intro lobbyId id' heq
    cases heq
  · rintro C count buttons he id client' hC harrived hupdated rfl
    exact harrived.updated hupdated (hclicked C count buttons he id hC)

omit [DecidableEq Sid] in
theorem Voted.imp {V : Nat → Prop} (h : s.Voted)
    (hV : ∀ voter, s.Voter voter → V voter) :
    s.Local (fun own client => client.Backed V own) (BackedFrame V) :=
  Local.imp h (fun _ _ _ hclient => hclient.imp fun voter _ => hV voter)
    (fun _ _ _ _ _ hframe => ⟨hframe.1, fun voter hvote => hV voter (hframe.2 voter hvote)⟩)
    fun _ _ _ _ _ hframe => ⟨hframe.1, fun voter hvote => hV voter (hframe.2 voter hvote)⟩

theorem Voted.leave (h : s.Voted) (hs : s.Coherent) (hforgotten : s.Forgotten C)
    (hleave : s.leave C = some s') : s'.Voted := by
  have hstep : s.step [] (.leave C) = some s' := hleave
  obtain ⟨idC, hC, hposts, -, -, hs'⟩ := leave_eq_some hs.valid hleave
  have hstays {D : Sid} {id : Nat} (hD : s'.playerId D = some id) :
      D ≠ C ∧ s.playerId D = some id := by
    rw [hs'] at hD
    exact playerId_left.mp hD
  have hquiet {D : Sid} {id : Nat} (hne : D ≠ C) (hD : s.playerId D = some id) :
      ¬(s.clients D).Mentions idC ∧ ∀ frame ∈ s.inbox D, ¬frame.Mentions idC :=
    hforgotten idC hC D hne (hD ▸ Option.some_ne_none id)
  have hvoter {voter : Nat} (hvoter : s.Voter voter) (hne : voter ≠ idC) : s'.Voter voter := by
    refine hvoter.step hs hstep ?_
    rintro C' heq
    cases heq
    rw [hC]
    exact fun hsame => hne (Option.some.inj hsame).symm
  have hkept : s'.Local (fun own client => client.Backed s.Voter own) (BackedFrame s.Voter) := by
    refine Local.backed_step h hs hstep ?_
    intro D count buttons he
    cases he
  refine hkept.imp ?_ ?_ ?_
  · intro D id hD hclient
    obtain ⟨hne, hold⟩ := hstays hD
    refine hclient.imp fun voter hhas hvoted => hvoter hvoted ?_
    rintro rfl
    rw [hs'] at hhas
    refine (hquiet hne hold).1 (hhas.mentions ?_)
    rintro rfl
    exact hne (hs.playerId_inj hold hC)
  · intro D id hD frame hframe hbacked
    obtain ⟨hne, hold⟩ := hstays hD
    refine ⟨hbacked.1, fun voter hhas => hvoter (hbacked.2 voter hhas) ?_⟩
    rintro rfl
    rw [hs'] at hframe
    rcases List.mem_append.mp hframe with hmem | hfarewell
    · exact (hquiet hne hold).2 frame hmem hhas.mentions
    · rw [(mem_farewell hfarewell).2] at hhas
      exact hhas
  · intro D T frame hframe
    rw [hs'] at hframe
    change (T, frame) ∈ s.posts D at hframe
    rw [hs.posts_eq_nil hposts D] at hframe
    cases hframe

theorem Voted.step {e : OpenRoomEvent Sid} (h : s.Voted) (hs : s.Coherent)
    (hforgotten : ∀ C, e = .leave C → s.Forgotten C) (hstep : s.step games e = some s') :
    s'.Voted := by
  by_cases hleave : ∃ C, e = .leave C
  · obtain ⟨C, rfl⟩ := hleave
    exact h.leave hs (hforgotten C rfl) hstep
  · have hvoter : ∀ voter, s.Voter voter → s'.Voter voter := fun voter hvoter =>
      hvoter.step hs hstep fun C he => absurd ⟨C, he⟩ hleave
    refine (h.imp hvoter).backed_step hs hstep ?_
    rintro C count buttons rfl id hC hclicked
    obtain ⟨room, hroom, rfl⟩ := Option.map_eq_some_iff.mp hstep
    obtain ⟨client', -, rfl⟩ := update_eq_some hroom
    exact ⟨C, hC, hclicked⟩

theorem voted {lobbyName : Bytes} {colors : Sid → ShuffledColors}
    (h : (openRoomSystem games lobbyName colors).ReachableWhile LeavesNoTrace s) : s.Voted := by
  have hboth : s.Coherent ∧ s.Voted := by
    refine h.invariant (fun s => s.Coherent ∧ s.Voted)
      ⟨coherent_init lobbyName colors, voted_init lobbyName colors⟩ ?_
    rintro s e s' ⟨hs, hvoted⟩ hcond hstep
    refine ⟨hs.step hstep, hvoted.step hs ?_ hstep⟩
    rintro C rfl
    exact hcond
  exact hboth.2

end OpenRoom

end ChatGames
