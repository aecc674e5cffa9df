import ChatGames.Proof.RoomInvariant
import ChatGames.Library.LeaderTable.Agreement

/-!
# A room as replicas of one table

`playerData` is a table that player 0 leads: the master assigns the colors, and a player sets the
vote in its own entry. Here stands what each operation of a room is to its replicas.
-/

namespace ChatGames

open LeaderTable (setValue)

def PlayerData.view (playerData : PlayerData) : LeaderTable.Table Nat Nat Nat := fun id =>
  (playerData.lookup id).map fun entry => ⟨entry.color, entry.vote⟩

def LobbyMessage.toMsg : LobbyMessage → Option (LeaderTable.Msg Nat Nat Nat)
  | .vote value => some (.value value)
  | .updatePlayerData data => some (.table (PlayerData.ofRows data).view)
  | .other => none

theorem exists_toMsg {msg : LobbyMessage} (h : msg ≠ .other) : ∃ m, msg.toMsg = some m := by
  cases msg with
  | vote value => exact ⟨_, rfl⟩
  | updatePlayerData data => exact ⟨_, rfl⟩
  | other => exact absurd rfl h

/-- What a client has said and the server has still to read. -/
def Client.out (client : Client) : List LobbyMessage := client.sent ++ client.sendQueue

theorem Client.out_of_sent {client : Client} {msg : LobbyMessage} {sent : List LobbyMessage}
    (h : client.sent = msg :: sent) :
    client.out = msg :: { client with sent := sent }.out := by
  rw [out, h]
  rfl

/-- A client took an event off its queue and did nothing that the replicas show. -/
structure Client.Popped (client : Client) (event : Net.NetEvent LobbyMessage) (client' : Client) :
    Prop where
  events : client.net.events = event :: client'.net.events
  out : client'.out = client.out
  playerData : client'.playerData = client.playerData
  clicked : client'.history.clicked = client.history.clicked

namespace Room

variable {Sid : Type} {s s' : Room Sid} {C D : Sid} {id : Nat}

/-- The messages of player `id` among the events. -/
def relayed (id : Nat) (events : List (Net.NetEvent LobbyMessage)) : List LobbyMessage :=
  events.filterMap fun
    | .message id' msg => if id' = id then some msg else none
    | _ => none

section Definitions

variable [DecidableEq Sid]

/-- What `D` has still to see, with what the session of `C` has still to post to it. -/
def coming (s : Room Sid) (C D : Sid) : List (Net.NetEvent LobbyMessage) :=
  s.stream D ++ ((s.posts C).filter (·.1 = D)).map (·.2.event)

def path (s : Room Sid) (id : Nat) (C D : Sid) : List LobbyMessage :=
  relayed id (s.coming C D) ++ (s.clients C).out

def replicas (s : Room Sid) : LeaderTable.State Sid Nat Nat Nat where
  name := s.playerId
  view C := (s.clients C).playerData.view
  path C D :=
    match s.playerId C with
    | some id => (s.path id C D).filterMap LobbyMessage.toMsg
    | none => []
  said C := (s.clients C).history.clicked

end Definitions

/-! ### Tables -/

section Tables

variable {playerData : PlayerData}

theorem view_eq_none_iff : playerData.view id = none ↔ playerData.lookup id = none :=
  Option.map_eq_none_iff

theorem view_insert (entry : PlayerEntry) : PlayerData.view (playerData.insert id entry) =
    Function.update playerData.view id (some ⟨entry.color, entry.vote⟩) := by
  funext id'
  by_cases hid : id' = id
  · subst hid
    rw [Function.update_self, PlayerData.view, AList.lookup_insert]
    rfl
  · rw [Function.update_of_ne hid, PlayerData.view, AList.lookup_insert_ne hid]
    rfl

theorem view_setVote (client : Client) (vote : Option Nat) :
    (client.setVote id vote).playerData.view = setValue client.playerData.view id vote := by
  rw [Client.setVote, view_insert, setValue, PlayerData.entry, PlayerData.view]
  cases client.playerData.lookup id <;> rfl

theorem view_ofRows_rows : (PlayerData.ofRows playerData.rows).view = playerData.view := by
  funext id
  rw [PlayerData.view, PlayerData.lookup_ofRows_rows]
  rfl

end Tables

/-! ### Relayed messages -/

section Relayed

variable {event : Net.NetEvent LobbyMessage} {events more : List (Net.NetEvent LobbyMessage)}

@[simp]
theorem relayed_append : relayed id (events ++ more) = relayed id events ++ relayed id more :=
  List.filterMap_append

theorem relayed_cons_self (msg : LobbyMessage) :
    relayed id (.message id msg :: events) = msg :: relayed id events := by
  simp [relayed]

theorem relayed_cons_of_ne (h : ∀ msg, event ≠ .message id msg) :
    relayed id (event :: events) = relayed id events := by
  cases event with
  | lobbyJoined | lobbyUpdated => rfl
  | message id' msg =>
      have hid : id' ≠ id := by
        rintro rfl
        exact h msg rfl
      simp [relayed, hid]

theorem relayed_eq_nil (h : ∀ msg, .message id msg ∉ events) : relayed id events = [] := by
  induction events with
  | nil => rfl
  | cons event events ih =>
      rw [relayed_cons_of_ne, ih]
      · exact fun msg hmsg => h msg (List.mem_cons_of_mem _ hmsg)
      · rintro msg rfl
        exact h msg List.mem_cons_self

end Relayed

/-! ### Changes of a room and of its replicas -/

variable [DecidableEq Sid]

theorem replicas_path (hC : s.playerId C = some id) (D : Sid) :
    s.replicas.path C D = (s.path id C D).filterMap LobbyMessage.toMsg := by
  simp only [replicas, hC]

theorem replicas_path_of_none (hC : s.playerId C = none) (D : Sid) : s.replicas.path C D = [] := by
  simp only [replicas, hC]

theorem replicas_congr (hid : s'.playerId = s.playerId)
    (hdata : ∀ D, (s'.clients D).playerData = (s.clients D).playerData)
    (hclicked : ∀ D, (s'.clients D).history.clicked = (s.clients D).history.clicked)
    (hpath : ∀ id C D, s.playerId C = some id → s'.path id C D = s.path id C D) :
    s'.replicas = s.replicas := by
  apply LeaderTable.State.ext hid
  · funext D
    exact congrArg PlayerData.view (hdata D)
  · funext C D
    cases hC : s.playerId C with
    | none => rw [replicas_path_of_none hC, replicas_path_of_none (hid ▸ hC)]
    | some id => rw [replicas_path hC, replicas_path (hid ▸ hC), hpath id C D hC]
  · funext D
    exact hclicked D

theorem replicas_deliver (s : Room Sid) (C : Sid) (count : Nat) :
    (s.deliver C count).replicas = s.replicas := by
  have hid : (s.deliver C count).playerId = s.playerId := rfl
  have hsame {α : Type} (f : Client → α)
      (h : f ((s.clients C).receive ((s.inbox C).take count)) = f (s.clients C)) (D : Sid) :
      f ((s.deliver C count).clients D) = f (s.clients D) := setClient_same f h D
  apply replicas_congr hid (hsame Client.playerData rfl)
  · exact hsame (fun client => client.history.clicked) rfl
  · intro id C' D _
    rw [path, coming, stream_deliver, hsame Client.out rfl]
    rfl

section SetClient

variable {client client' : Client}

theorem out_setClient (client : Client) (D : Sid) : ((s.setClient C client).clients D).out =
    if D = C then client.out else (s.clients D).out := by
  by_cases hD : D = C
  · subst hD
    rw [clients_setClient_self, if_pos rfl]
  · rw [clients_setClient_of_ne _ hD, if_neg hD]

theorem stream_setClient (client : Client) (D : Sid) : (s.setClient C client).stream D =
    (if D = C then client.net.events else (s.clients D).net.events) ++
      (s.inbox D).map Net.Frame.event := by
  rw [stream]
  by_cases hD : D = C
  · subst hD
    rw [clients_setClient_self, if_pos rfl]
    rfl
  · rw [clients_setClient_of_ne _ hD, if_neg hD]
    rfl

@[simp]
theorem view_replicas_setClient (client : Client) :
    (s.setClient C client).replicas.view C = client.playerData.view :=
  congrArg (fun client : Client => client.playerData.view) (clients_setClient_self client)

theorem said_replicas_setClient (client : Client) :
    (s.setClient C client).replicas.said C = client.history.clicked :=
  congrArg (fun client : Client => client.history.clicked) (clients_setClient_self client)

/-- A client writes to its own entry of the state, and says nothing. -/
theorem replicas_write (hevents : client'.net.events = client.net.events)
    (hout : client'.out = client.out) : (s.setClient C client').replicas =
      ((s.setClient C client).replicas.setView C client'.playerData.view).setSaid C
        client'.history.clicked := by
  apply LeaderTable.State.ext
  · rfl
  · funext D
    change ((s.setClient C client').clients D).playerData.view =
      ((s.setClient C client).replicas.setView C _).view D
    by_cases hD : D = C
    · subst hD
      rw [clients_setClient_self, LeaderTable.view_setView_self]
    · rw [clients_setClient_of_ne _ hD, LeaderTable.view_setView_of_ne hD]
      change _ = ((s.setClient C client).clients D).playerData.view
      rw [clients_setClient_of_ne _ hD]
  · funext C' D
    change (s.setClient C client').replicas.path C' D = (s.setClient C client).replicas.path C' D
    cases hC' : s.playerId C' with
    | none =>
        rw [replicas_path_of_none (s := s.setClient C client') hC',
          replicas_path_of_none (s := s.setClient C client) hC']
    | some id =>
        rw [replicas_path (s := s.setClient C client') hC',
          replicas_path (s := s.setClient C client) hC', path, path, coming, coming,
          stream_setClient, stream_setClient, out_setClient, out_setClient, hevents, hout]
        rfl
  · funext D
    change ((s.setClient C client').clients D).history.clicked =
      (LeaderTable.State.setSaid _ C client'.history.clicked).said D
    by_cases hD : D = C
    · subst hD
      rw [clients_setClient_self, LeaderTable.said_setSaid_self]
    · rw [clients_setClient_of_ne _ hD, LeaderTable.said_setSaid_of_ne hD]
      change _ = ((s.setClient C client).clients D).history.clicked
      rw [clients_setClient_of_ne _ hD]

theorem replicas_setView (hevents : client'.net.events = client.net.events)
    (hout : client'.out = client.out)
    (hclicked : client'.history.clicked = client.history.clicked) :
    (s.setClient C client').replicas =
      (s.setClient C client).replicas.setView C client'.playerData.view := by
  rw [replicas_write hevents hout, hclicked, ← said_replicas_setClient (s := s) (C := C) client]
  exact LeaderTable.setSaid_eq_self

theorem replicas_same (hevents : client'.net.events = client.net.events)
    (hout : client'.out = client.out) (hclicked : client'.history.clicked = client.history.clicked)
    (hdata : client'.playerData = client.playerData) :
    (s.setClient C client').replicas = (s.setClient C client).replicas := by
  rw [replicas_setView hevents hout hclicked, hdata,
    ← view_replicas_setClient (s := s) (C := C) client]
  exact LeaderTable.setView_eq_self

theorem replicas_send (hC : s.playerId C ≠ none) {msg : LobbyMessage}
    {m : LeaderTable.Msg Nat Nat Nat} (hmsg : msg.toMsg = some m) (client : Client) :
    (s.setClient C (client.sendMessage msg)).replicas =
      (s.setClient C client).replicas.send C m := by
  have hout : (client.sendMessage msg).out = client.out ++ [msg] :=
    (List.append_assoc _ _ _).symm
  apply LeaderTable.State.ext
  · rfl
  · funext D
    have hdata : (client.sendMessage msg).playerData.view = client.playerData.view := rfl
    exact setClient_congr (fun client => client.playerData.view) hdata D
  · funext C' D
    rw [LeaderTable.path_send]
    cases hC' : s.playerId C' with
    | none =>
        have hne : C' ≠ C := by
          rintro rfl
          exact hC hC'
        rw [if_neg hne, replicas_path_of_none (s := s.setClient C (client.sendMessage msg)) hC',
          replicas_path_of_none (s := s.setClient C client) hC']
    | some id =>
        rw [replicas_path (s := s.setClient C (client.sendMessage msg)) hC',
          replicas_path (s := s.setClient C client) hC', path, path, coming, coming,
          stream_setClient, stream_setClient, out_setClient, out_setClient, hout]
        by_cases hne : C' = C
        · rw [if_pos hne, if_pos hne, if_pos hne, ← List.append_assoc, List.filterMap_append,
            List.filterMap_cons_some hmsg]
          rfl
        · rw [if_neg hne, if_neg hne, if_neg hne]
          rfl
  · funext D
    have hclicked : (client.sendMessage msg).history.clicked = client.history.clicked := rfl
    exact setClient_congr (fun client => client.history.clicked) hclicked D

section Popped

variable {event : Net.NetEvent LobbyMessage} (hpopped : (s.clients D).Popped event client')

include hpopped

/-- Only the sender's messages to `D` become fewer. -/
theorem path_popped (id : Nat) (C D' : Sid) (hother : D' = D → ∀ msg, event ≠ .message id msg) :
    (s.setClient D client').path id C D' = s.path id C D' := by
  rw [path, path, setClient_same Client.out hpopped.out, coming, coming, stream_setClient, stream]
  by_cases hD : D' = D
  · subst hD
    rw [if_pos rfl, hpopped.events, List.cons_append, List.cons_append,
      relayed_cons_of_ne (hother rfl)]
    rfl
  · rw [if_neg hD]
    rfl

theorem replicas_skip (hother : ∀ id msg, event ≠ .message id msg) :
    (s.setClient D client').replicas = s.replicas := by
  have hid : (s.setClient D client').playerId = s.playerId := rfl
  apply replicas_congr hid (setClient_same Client.playerData hpopped.playerData)
    (setClient_same (fun client => client.history.clicked) hpopped.clicked)
  intro id C D' _
  exact path_popped hpopped id C D' fun _ => hother id

end Popped

/-- A message that is popped has been heard. -/
theorem replicas_popped (h : s.Consistent) (hC : s.playerId C = some id) {msg : LobbyMessage}
    {m : LeaderTable.Msg Nat Nat Nat} (hmsg : msg.toMsg = some m)
    (hpopped : (s.clients D).Popped (.message id msg) client') :
    ∃ rest, s.replicas.path C D = m :: rest ∧
      (s.setClient D client').replicas = s.replicas.advance C D rest := by
  have hpath : s.path id C D = msg :: (s.setClient D client').path id C D := by
    rw [path, path, setClient_same Client.out hpopped.out, coming, coming, stream_setClient,
      if_pos rfl, stream, hpopped.events, List.cons_append, List.cons_append, relayed_cons_self,
      List.cons_append]
    rfl
  refine ⟨((s.setClient D client').path id C D).filterMap LobbyMessage.toMsg, ?_, ?_⟩
  · rw [replicas_path hC, hpath, List.filterMap_cons_some hmsg]
  · apply LeaderTable.State.ext
    · rfl
    · funext D'
      exact setClient_same (fun client => client.playerData.view)
        (congrArg PlayerData.view hpopped.playerData) D'
    · funext C' D'
      by_cases hpair : C' = C ∧ D' = D
      · obtain ⟨rfl, rfl⟩ := hpair
        rw [LeaderTable.path_advance_self, replicas_path (s := s.setClient D' client') hC]
      · rw [LeaderTable.path_advance_of_ne (not_and_or.mp hpair)]
        cases hC' : s.playerId C' with
        | none =>
            rw [replicas_path_of_none hC',
              replicas_path_of_none (s := s.setClient D client') hC']
        | some id' =>
            rw [replicas_path hC', replicas_path (s := s.setClient D client') hC',
              path_popped hpopped id' C' D']
            intro hD msg' heq
            cases heq
            exact hpair ⟨h.playerId_inj hC' hC, hD⟩
    · funext D'
      exact setClient_same (fun client => client.history.clicked) hpopped.clicked D'

/-- Whoever's message is popped, it is the oldest one that was on its way from there. -/
theorem exists_replicas_popped (h : s.Consistent) {playerId : Nat} {msg : LobbyMessage}
    (hplain : msg ≠ .other) (hpopped : (s.clients C).Popped (.message playerId msg) client') :
    ∃ D m rest, D ≠ C ∧ s.playerId D = some playerId ∧ msg.toMsg = some m ∧
      s.replicas.path D C = m :: rest ∧
        (s.setClient C client').replicas = s.replicas.advance D C rest := by
  have hmsg : .message playerId msg ∈ s.stream C := by
    rw [stream, hpopped.events]
    exact List.mem_cons_self
  obtain ⟨D, hne, hD⟩ := h.sender C playerId msg hmsg
  obtain ⟨m, hm⟩ := exists_toMsg hplain
  obtain ⟨rest, hpath, hadvance⟩ := replicas_popped h hD hm hpopped
  exact ⟨D, m, rest, hne, hD, hm, hpath, hadvance⟩

end SetClient

/-! ### Steps of the server -/

theorem replicas_join {playerName : Bytes} (h : s.Consistent)
    (hjoin : s.join C playerName = some s') :
    ∃ id, s.playerId C = none ∧ (∀ D, s.playerId D ≠ some id) ∧
      ((∀ D, s.playerId D = none) → id = 0) ∧ s'.replicas = s.replicas.setName C id := by
  obtain ⟨hnew, id, lobby, hadded, rfl⟩ := join_eq_some h.valid hjoin
  have hfree (D : Sid) : s.playerId D ≠ some id := by
    intro hD
    obtain ⟨player, hplayer, hid, -⟩ := (h.member D id).mp hD
    exact hadded.least.1 (List.mem_map.mpr ⟨player, hplayer, hid⟩)
  refine ⟨id, hnew, hfree, ?_, ?_⟩
  · intro hnobody
    apply Nat.le_zero.mp
    apply hadded.least.2
    intro hmem
    obtain ⟨player, hplayer, -⟩ := List.mem_map.mp hmem
    have hmember := h.playerId_connection hplayer
    rw [hnobody] at hmember
    cases hmember
  · have hwelcome (id' : Nat) (T : Sid) :
        relayed id' ((welcome C id lobby T).map Net.Frame.event) = [] := by
      apply relayed_eq_nil
      intro msg hmsg
      obtain ⟨frame, hframe, hevent⟩ := List.mem_map.mp hmsg
      rcases mem_welcome hframe with ⟨-, rfl⟩ | ⟨-, rfl⟩ <;> cases hevent
    obtain ⟨-, hposts, indices, hinit⟩ := h.outsider C hnew
    apply LeaderTable.State.ext
    · rfl
    · rfl
    · funext C' D
      change _ = s.replicas.path C' D
      by_cases hC' : C' = C
      · subst hC'
        have hold : relayed id (s.stream D) = [] := by
          apply relayed_eq_nil
          intro msg hmsg
          obtain ⟨E, -, hE⟩ := h.sender D id msg hmsg
          exact hfree E hE
        rw [stream, relayed_append] at hold
        rw [replicas_path_of_none hnew, replicas_path (Function.update_self _ _ _)]
        simp only [path, coming, stream, List.map_append, relayed_append, hwelcome,
          List.append_nil, hold, hposts, hinit]
        rfl
      · have hsame := Function.update_of_ne hC' (some id) s.playerId
        cases hid' : s.playerId C' with
        | none => rw [replicas_path_of_none hid', replicas_path_of_none (hsame.trans hid')]
        | some id' =>
            rw [replicas_path hid', replicas_path (hsame.trans hid')]
            simp only [path, coming, stream, List.map_append, relayed_append, hwelcome,
              List.append_nil]
    · rfl

theorem replicas_post (h : s.Consistent) (hpost : s.post C = some s') :
    s'.replicas = s.replicas := by
  obtain ⟨T, frame, posts, hposts, rfl⟩ := post_eq_some hpost
  obtain ⟨hne, hT, id, msg, hC, rfl⟩ := h.posting C T frame (by simp [hposts])
  refine replicas_congr (s := s) rfl (fun _ => rfl) (fun _ => rfl) ?_
  intro id' C' D hC'
  refine congrArg (· ++ (s.clients C').out) ?_
  rw [coming, coming, stream, stream]
  change relayed id' (((s.clients D).net.events ++
      (Function.update s.inbox T (s.inbox T ++ [.relayMessage id msg]) D).map Net.Frame.event) ++
    ((Function.update s.posts C posts C').filter (·.1 = D)).map (·.2.event)) = _
  by_cases hsender : C' = C
  · subst hsender
    rw [Function.update_self, hposts]
    by_cases hD : D = T
    · subst hD
      simp only [Function.update_self, List.filter_cons, decide_true, if_true, List.map_append,
        List.append_assoc, List.map_cons, List.map_nil, List.cons_append, List.nil_append]
    · rw [Function.update_of_ne hD, List.filter_cons_of_neg (by simpa using Ne.symm hD)]
  · rw [Function.update_of_ne hsender]
    by_cases hD : D = T
    · subst hD
      have hid : id ≠ id' := by
        rintro rfl
        exact hsender (h.playerId_inj hC' hC)
      have hevent : relayed id' [Net.NetEvent.message id msg] = [] := by
        rw [relayed_cons_of_ne fun _ heq => hid (by cases heq; rfl)]
        rfl
      simp only [Function.update_self, List.map_append, relayed_append, List.map_singleton,
        Net.Frame.event, hevent, List.append_nil]
    · rw [Function.update_of_ne hD]

theorem filter_posts (h : s.Consistent) (hC : s.playerId C = some id)
    (frame : Net.Frame LobbyMessage) (D : Sid) :
    ((s.lobby.players.filter (·.id ≠ id)).map fun player => (player.connection, frame)).filter
      (·.1 = D) = if D ≠ C ∧ s.playerId D ≠ none then [(D, frame)] else [] := by
  rw [List.filter_map, List.filter_filter]
  by_cases hD : D ≠ C ∧ s.playerId D ≠ none
  · obtain ⟨idD, hidD⟩ := Option.ne_none_iff_exists'.mp hD.2
    obtain ⟨player, hplayer, rfl, rfl⟩ := (h.member D idD).mp hidD
    have hne : player.id ≠ id := by
      rintro rfl
      exact hD.1 (h.playerId_inj hidD hC)
    rw [if_pos hD, h.valid.filter_eq_singleton hplayer]
    · rfl
    · simp [hne]
    · intro other hother hpass
      have hconnection : other.connection = player.connection := by
        simp only [Function.comp_apply, Bool.and_eq_true, decide_eq_true_eq] at hpass
        exact hpass.1
      have hidother := h.playerId_connection hother
      rw [hconnection, hidD] at hidother
      exact (Option.some.inj hidother).symm
  · rw [if_neg hD, List.map_eq_nil_iff, List.filter_eq_nil_iff]
    intro player hplayer hpass
    simp only [Function.comp_apply, Bool.and_eq_true, decide_eq_true_eq] at hpass
    obtain ⟨rfl, hne⟩ := hpass
    have hmember := h.playerId_connection hplayer
    refine hD ⟨?_, by simp [hmember]⟩
    rintro rfl
    exact hne (Option.some.inj (hmember.symm.trans hC))

/-- What a relay changes of what clients say and see. -/
structure Relayed (s : Room Sid) (C : Sid) (id : Nat) (s' : Room Sid) : Prop where
  playerId : s'.playerId = s.playerId
  playerData : ∀ D, (s'.clients D).playerData = (s.clients D).playerData
  history : ∀ D, (s'.clients D).history = (s.clients D).history
  others : ∀ id' C' D, C' ≠ C → s'.path id' C' D = s.path id' C' D
  member : ∀ D, D ≠ C ∧ s.playerId D ≠ none → s'.path id C D = s.path id C D
  missed : ∀ D, ¬(D ≠ C ∧ s.playerId D ≠ none) →
    ∃ msg ∈ (s.clients C).out, s.path id C D = msg :: s'.path id C D

theorem relayed_of_relay (h : s.Consistent) (hrelay : s.relay C = some s') :
    ∃ id, s.playerId C = some id ∧ s.Relayed C id s' := by
  obtain ⟨id, msg, sent, hC, hsent, hposts, heq⟩ := relay_eq_some hrelay
  have hclients (D : Sid) : (s'.clients D).playerData = (s.clients D).playerData ∧
      (s'.clients D).history = (s.clients D).history ∧
      s'.stream D = s.stream D ∧
      (s'.clients D).out =
        if D = C then sent ++ (s.clients C).sendQueue else (s.clients D).out := by
    rw [heq]
    by_cases hD : D = C
    · subst hD
      rw [if_pos rfl, stream]
      dsimp only
      rw [clients_setClient_self]
      exact ⟨rfl, rfl, rfl, rfl⟩
    · rw [if_neg hD, stream]
      dsimp only
      rw [clients_setClient_of_ne _ hD]
      exact ⟨rfl, rfl, rfl, rfl⟩
  have hposts' (C' D : Sid) : ((s'.posts C').filter (·.1 = D)) =
      if C' = C then if D ≠ C ∧ s.playerId D ≠ none then [(D, .relayMessage id msg)] else []
      else (s.posts C').filter (·.1 = D) := by
    rw [heq]
    by_cases hC' : C' = C
    · subst hC'
      rw [if_pos rfl, ← filter_posts h hC]
      exact congrArg _ (Function.update_self _ _ _)
    · rw [if_neg hC']
      exact congrArg _ (Function.update_of_ne hC' _ _)
  have hold (D : Sid) : s.path id C D =
      relayed id (s.stream D) ++ msg :: (sent ++ (s.clients C).sendQueue) := by
    rw [path, coming, hposts, Client.out, hsent]
    exact congrArg (relayed id · ++ _) (List.append_nil _)
  have hnone (D : Sid) (hD : ¬(D ≠ C ∧ s.playerId D ≠ none)) : relayed id (s.stream D) = [] := by
    apply relayed_eq_nil
    intro msg' hmsg'
    obtain ⟨E, hne, hE⟩ := h.sender D id msg' hmsg'
    obtain rfl := h.playerId_inj hE hC
    apply hD
    refine ⟨hne.symm, fun hnone => ?_⟩
    obtain ⟨hinbox, -, indices, hinit⟩ := h.outsider D hnone
    rw [stream, hinbox, hinit] at hmsg'
    cases hmsg'
  refine ⟨id, hC, by rw [heq]; rfl, fun D => (hclients D).1, fun D => (hclients D).2.1,
    ?_, ?_, ?_⟩
  · intro id' C' D hC'
    rw [path, path, coming, coming, (hclients D).2.2.1, (hclients C').2.2.2, hposts', if_neg hC',
      if_neg hC']
  · intro D hD
    rw [hold, path, coming, (hclients D).2.2.1, (hclients C).2.2.2, hposts', if_pos rfl, if_pos rfl,
      if_pos hD, relayed_append, List.append_assoc]
    exact congrArg (relayed id (s.stream D) ++ ·) (congrArg (· ++ _) (relayed_cons_self msg))
  · intro D hD
    refine ⟨msg, by simp [Client.out_of_sent hsent], ?_⟩
    rw [hold, path, coming, (hclients D).2.2.1, (hclients C).2.2.2, hposts', if_pos rfl, if_pos rfl,
      if_neg hD, relayed_append, hnone D hD]
    rfl

/-- The session of `C` takes the oldest message, for all members but `C`. -/
theorem replicas_relay (h : s.Consistent) (hplain : ∀ msg ∈ (s.clients C).out, msg ≠ .other)
    (hrelay : s.relay C = some s') : s'.replicas = s.replicas.relay C := by
  obtain ⟨id, hC, hrelayed⟩ := relayed_of_relay h hrelay
  apply LeaderTable.State.ext hrelayed.playerId
  · funext D
    exact congrArg PlayerData.view (hrelayed.playerData D)
  · funext C' D
    by_cases hC' : C' = C
    · subst hC'
      have hC'' : s'.playerId C' = some id := hrelayed.playerId ▸ hC
      by_cases hD : D ≠ C' ∧ s.playerId D ≠ none
      · rw [LeaderTable.path_relay_of_member hD.1 hD.2, replicas_path hC'', replicas_path hC,
          hrelayed.member D hD]
      · obtain ⟨msg, hmsg, hpath⟩ := hrelayed.missed D hD
        obtain ⟨m, hm⟩ := exists_toMsg (hplain msg hmsg)
        rw [LeaderTable.path_relay_missed hD, replicas_path hC'', replicas_path hC, hpath,
          List.filterMap_cons_some hm, List.tail_cons]
    · rw [LeaderTable.path_relay_of_ne hC']
      cases hid : s.playerId C' with
      | none => rw [replicas_path_of_none hid, replicas_path_of_none (hrelayed.playerId ▸ hid)]
      | some id' =>
          rw [replicas_path hid, replicas_path (hrelayed.playerId ▸ hid),
            hrelayed.others id' C' D hC']
  · funext D
    exact congrArg History.clicked (hrelayed.history D)

end Room

end ChatGames
