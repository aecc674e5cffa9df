import ChatGames.Room
import ChatGames.Proof.SceneSteps

/-!
# The invariant of a room

`Consistent` says who has which id, and what the server can have sent to whom. A step of a client
is cut in two: first its frames arrive (`deliver`), then its scene makes something of them
(`setClient`).
-/

namespace ChatGames.Room

variable {Sid : Type}

/-- What `D` has received and its scene has not seen, and what is on its way to `D`. -/
def stream (s : Room Sid) (D : Sid) : List (Net.NetEvent LobbyMessage) :=
  (s.clients D).net.events ++ (s.inbox D).map Net.Frame.event

/-- A list that `updateLobby` may tell: it begins with the master, and all on it are members. -/
structure Lists (s : Room Sid) (players : List Net.NetPlayer) : Prop where
  master : ∃ first others, players = first :: others ∧ first.id = 0
  members : ∀ player ∈ players, ∃ C, s.playerId C = some player.id

structure Consistent (s : Room Sid) : Prop where
  valid : s.lobby.Valid
  member : ∀ C id, s.playerId C = some id ↔
    ∃ player ∈ s.lobby.players, player.id = id ∧ player.connection = C
  first : s.lobby.players ≠ [] → 0 ∈ s.lobby.ids
  outsider : ∀ C, s.playerId C = none →
    s.inbox C = [] ∧ s.posts C = [] ∧ ∃ indices, s.clients C = Client.init indices
  sender : ∀ D id msg, .message id msg ∈ s.stream D → ∃ C, C ≠ D ∧ s.playerId C = some id
  posting : ∀ C T frame, (T, frame) ∈ s.posts C → T ≠ C ∧ s.playerId T ≠ none ∧
    ∃ id msg, s.playerId C = some id ∧ frame = .relayMessage id msg
  welcomed : ∀ D lobbyId id, .lobbyJoined lobbyId id ∈ s.inbox D → s.playerId D = some id
  listed : ∀ D players, .updateLobby players ∈ s.inbox D → s.Lists players
  players : ∀ D, (s.clients D).net.players = [] ∨ s.Lists (s.clients D).net.players
  own : ∀ D, (s.clients D).net.playerId = s.playerId D ∨ (s.clients D).net.players = [] ∧
    ∃ lobbyId id frames, s.inbox D = .lobbyJoined lobbyId id :: frames
  latest : ∀ D, s.playerId D ≠ none →
    ((s.clients D).net.receive (s.inbox D)).players = Net.listing s.lobby.players

/-- Nothing is queued or in flight, and every client has ticked since. -/
structure Quiet (s : Room Sid) : Prop where
  inbox : ∀ C, s.inbox C = []
  posts : ∀ C, s.posts C = []
  events : ∀ C, (s.clients C).net.events = []
  sent : ∀ C, (s.clients C).sent = []
  sendQueue : ∀ C, (s.clients C).sendQueue = []
  ticking : ∀ C, (s.clients C).ticking = false

/-! ### Players -/

variable {s s' : Room Sid} {C D : Sid} {id : Nat}

theorem Consistent.playerId_inj (h : s.Consistent) (hC : s.playerId C = some id)
    (hD : s.playerId D = some id) : C = D := by
  obtain ⟨player, hplayer, hid, rfl⟩ := (h.member C id).mp hC
  obtain ⟨player', hplayer', hid', rfl⟩ := (h.member D id).mp hD
  rw [h.valid.eq_of_id_eq hplayer hplayer' (hid.trans hid'.symm)]

theorem Consistent.playerId_connection (h : s.Consistent) {player : Player Sid}
    (hplayer : player ∈ s.lobby.players) : s.playerId player.connection = some player.id :=
  (h.member _ _).mpr ⟨player, hplayer, rfl, rfl⟩

/-- A client that knows its players knows whether it is the master. -/
theorem Consistent.isMaster_eq (h : s.Consistent) {master : Bool}
    (hmaster : (s.clients C).isMaster = .ok master) :
    ∃ id, s.playerId C = some id ∧ (s.clients C).net.playerId = some id ∧
      (master = true ↔ id = 0) ∧ s.Lists (s.clients C).net.players := by
  rcases h.players C with hnil | hlists
  · rw [Client.isMaster, Net.Table.isMaster, hnil] at hmaster
    cases hmaster
  · obtain ⟨first, others, hplayers, hfirst⟩ := hlists.master
    have hown : (s.clients C).net.playerId = s.playerId C := by
      refine (h.own C).resolve_right fun hnone => ?_
      rw [hnone.1] at hplayers
      cases hplayers
    rw [Client.isMaster_of_eq hplayers, hfirst, hown] at hmaster
    cases hid : s.playerId C with
    | none =>
        obtain ⟨-, -, indices, hinit⟩ := h.outsider C hid
        rw [hinit] at hplayers
        cases hplayers
    | some id =>
        refine ⟨id, rfl, hown.trans hid, ?_, hlists⟩
        rw [← Except.ok.inj hmaster, hid, decide_eq_true_iff, Option.some_inj]
        exact eq_comm

theorem Lists.of_playerId {players : List Net.NetPlayer} (h : s.Lists players)
    (hkept : ∀ C id, s.playerId C = some id → s'.playerId C = some id) : s'.Lists players where
  master := h.master
  members player hplayer := by
    obtain ⟨C, hC⟩ := h.members player hplayer
    exact ⟨C, hkept C _ hC⟩

/-- The first player of a lobby with a player 0 is that player. -/
theorem lists_listing {lobby : Lobby Sid} (hvalid : lobby.Valid) (hzero : 0 ∈ lobby.ids)
    (hmember : ∀ player ∈ lobby.players, ∃ C, s.playerId C = some player.id) :
    s.Lists (Net.listing lobby.players) := by
  constructor
  · obtain ⟨player, hplayer, hid⟩ := List.mem_map.mp hzero
    have hmaster := (hvalid.isPlayerMaster_iff 0).mpr
      ⟨player, hplayer, hid, fun _ _ => Nat.zero_le _⟩
    cases hplayers : lobby.players with
    | nil =>
        rw [hplayers] at hplayer
        cases hplayer
    | cons first others =>
        rw [Lobby.isPlayerMaster, hplayers] at hmaster
        exact ⟨_, _, rfl, beq_iff_eq.mp hmaster⟩
  · intro player hplayer
    obtain ⟨player', hplayer', rfl⟩ := List.mem_map.mp hplayer
    exact hmember player' hplayer'

theorem consistent_init (lobbyName : Bytes) (colors : Sid → ShuffledColors) :
    (init lobbyName colors).Consistent where
  valid := Lobby.valid_new lobbyName
  member C id := by
    constructor
    · intro h
      cases h
    · rintro ⟨player, hplayer, -⟩
      cases hplayer
  first h := absurd rfl h
  outsider C _ := ⟨rfl, rfl, _, rfl⟩
  sender D id msg h := by cases h
  posting C T frame h := by cases h
  welcomed D lobbyId id h := by cases h
  listed D players h := by cases h
  players D := Or.inl rfl
  own D := Or.inl rfl
  latest D h := absurd rfl h

variable [DecidableEq Sid]

/-- What is in a list after one of them has changed is in the new list, or was there before. -/
theorem mem_update {α : Type} {lists : Sid → List α} {changed : List α} {x : α}
    (h : x ∈ Function.update lists C changed D) : D = C ∧ x ∈ changed ∨ x ∈ lists D := by
  by_cases hD : D = C
  · subst hD
    rw [Function.update_self] at h
    exact Or.inl ⟨rfl, h⟩
  · rw [Function.update_of_ne hD] at h
    exact Or.inr h

@[simp]
theorem clients_setClient_self (client : Client) : (s.setClient C client).clients C = client :=
  Function.update_self _ _ _

theorem clients_setClient_of_ne (client : Client) (h : D ≠ C) :
    (s.setClient C client).clients D = s.clients D := Function.update_of_ne h _ _

/-- What two clients have in common, the rooms with either have in common. -/
theorem setClient_congr {α : Type*} (f : Client → α) {client client' : Client}
    (h : f client' = f client) (D : Sid) :
    f ((s.setClient C client').clients D) = f ((s.setClient C client).clients D) := by
  by_cases hD : D = C
  · subst hD
    rw [clients_setClient_self, clients_setClient_self, h]
  · rw [clients_setClient_of_ne _ hD, clients_setClient_of_ne _ hD]

theorem setClient_eq_self (s : Room Sid) (C : Sid) : s.setClient C (s.clients C) = s := by
  rw [Room.setClient, Function.update_eq_self]

theorem setClient_same {α : Type*} (f : Client → α) {client : Client}
    (h : f client = f (s.clients C)) (D : Sid) :
    f ((s.setClient C client).clients D) = f (s.clients D) := by
  have hcongr := setClient_congr (s := s) (C := C) f h D
  rwa [setClient_eq_self] at hcongr

/-! ### Joining -/

theorem mem_welcome {lobby : Lobby Sid} {T : Sid} {frame : Net.Frame LobbyMessage}
    (h : frame ∈ welcome C id lobby T) : (T = C ∧ frame = .lobbyJoined lobby.name id) ∨
      (∃ player ∈ lobby.players, player.connection = T) ∧
        frame = .updateLobby (Net.listing lobby.players) := by
  rcases List.mem_append.mp h with hjoined | hupdate
  · split at hjoined
    · exact Or.inl ⟨‹_›, List.mem_singleton.mp hjoined⟩
    · cases hjoined
  · obtain ⟨player, hplayer, rfl⟩ := List.mem_map.mp hupdate
    obtain ⟨hmem, hconnection⟩ := List.mem_filter.mp hplayer
    exact Or.inr ⟨⟨player, hmem, of_decide_eq_true hconnection⟩, rfl⟩

theorem players_receive_welcome {lobby : Lobby Sid} {T : Sid} (net : Net.Table LobbyMessage)
    (hmember : ∃ player ∈ lobby.players, player.connection = T) :
    (net.receive (welcome C id lobby T)).players = Net.listing lobby.players := by
  rw [welcome, Net.Table.receive_append]
  apply Net.Table.players_receive_updateLobby
  · intro frame hframe
    obtain ⟨_, -, rfl⟩ := List.mem_map.mp hframe
    rfl
  · obtain ⟨player, hplayer, hconnection⟩ := hmember
    intro hnil
    have hfiltered : player ∈ lobby.players.filter (·.connection = T) :=
      List.mem_filter.mpr ⟨hplayer, decide_eq_true hconnection⟩
    rw [List.map_eq_nil_iff.mp hnil] at hfiltered
    cases hfiltered

theorem join_eq_some {playerName : Bytes} (hvalid : s.lobby.Valid)
    (h : s.join C playerName = some s') :
    s.playerId C = none ∧ ∃ id lobby, s.lobby.Added playerName C id lobby ∧
      s' = { s with
        lobby := lobby
        playerId := Function.update s.playerId C (some id)
        inbox := fun T => s.inbox T ++ welcome C id lobby T } := by
  rw [join] at h
  split at h
  · rename_i hcond
    cases hadd : s.lobby.addPlayer playerName C with
    | error fault => rw [hadd] at h; cases h
    | ok added =>
        rw [hadd] at h
        exact ⟨hcond.1, added.1, added.2, hvalid.added hadd, (Option.some.inj h).symm⟩
  · cases h

theorem playerId_kept {id' : Nat} (hnew : s.playerId C = none) (hD : s.playerId D = some id') :
    Function.update s.playerId C (some id) D = some id' := by
  rw [Function.update_of_ne, hD]
  rintro rfl
  rw [hnew] at hD
  cases hD

theorem member_added {playerName : Bytes} {lobby : Lobby Sid}
    (hmember : ∀ D id', s.playerId D = some id' ↔
      ∃ player ∈ s.lobby.players, player.id = id' ∧ player.connection = D)
    (hnew : s.playerId C = none) (hadded : s.lobby.Added playerName C id lobby) (D : Sid)
    (id' : Nat) : Function.update s.playerId C (some id) D = some id' ↔
      ∃ player ∈ lobby.players, player.id = id' ∧ player.connection = D := by
  simp only [hadded.perm.mem_iff, List.mem_cons, exists_eq_or_imp]
  by_cases hD : D = C
  · subst hD
    rw [Function.update_self, Option.some_inj, or_iff_left]
    · simp
    · intro hold
      have hD := (hmember D id').mpr hold
      rw [hnew] at hD
      cases hD
  · rw [Function.update_of_ne hD, hmember D id', or_iff_right]
    exact fun hnew => hD hnew.2.symm

omit [DecidableEq Sid] in
/-- The lowest free id is 0 as long as nobody has it. -/
theorem zero_mem_added {playerName : Bytes} {lobby : Lobby Sid}
    (hadded : s.lobby.Added playerName C id lobby) : 0 ∈ lobby.ids := by
  by_cases hold : 0 ∈ s.lobby.ids
  · obtain ⟨player, hplayer, hid⟩ := List.mem_map.mp hold
    exact List.mem_map.mpr ⟨player, hadded.perm.mem_iff.mpr (List.mem_cons_of_mem _ hplayer), hid⟩
  · have hid : id = 0 := Nat.le_zero.mp (hadded.least.2 hold)
    exact List.mem_map.mpr ⟨_, hadded.perm.mem_iff.mpr List.mem_cons_self, hid⟩

theorem Consistent.join {playerName : Bytes} (h : s.Consistent)
    (hjoin : s.join C playerName = some s') : s'.Consistent := by
  obtain ⟨hnew, id, lobby, hadded, rfl⟩ := join_eq_some h.valid hjoin
  have hkept (D : Sid) (id' : Nat) (hD : s.playerId D = some id') :
      Function.update s.playerId C (some id) D = some id' := playerId_kept hnew hD
  have hmember := member_added h.member hnew hadded
  have hzero := zero_mem_added hadded
  constructor
  case outsider =>
    intro D hD
    change Function.update s.playerId C (some id) D = none at hD
    have hne : D ≠ C := by
      rintro rfl
      rw [Function.update_self] at hD
      cases hD
    have hold : s.playerId D = none := by rwa [Function.update_of_ne hne] at hD
    obtain ⟨hinbox, hposts, hinit⟩ := h.outsider D hold
    refine ⟨List.append_eq_nil_iff.mpr ⟨hinbox, ?_⟩, hposts, hinit⟩
    apply List.eq_nil_iff_forall_not_mem.mpr
    intro frame hframe
    rcases mem_welcome hframe with ⟨hDC, -⟩ | ⟨⟨player, hplayer, hconnection⟩, -⟩
    · exact hne hDC
    · rw [(hmember D player.id).mpr ⟨player, hplayer, rfl, hconnection⟩] at hD
      cases hD
  case sender =>
    intro D id' msg hmsg
    have hold : .message id' msg ∈ s.stream D := by
      rw [stream, List.map_append, ← List.append_assoc, List.mem_append] at hmsg
      refine hmsg.resolve_right fun hwelcome => ?_
      obtain ⟨frame, hframe, hevent⟩ := List.mem_map.mp hwelcome
      rcases mem_welcome hframe with ⟨-, rfl⟩ | ⟨-, rfl⟩ <;> cases hevent
    obtain ⟨D', hne, hD'⟩ := h.sender D id' msg hold
    exact ⟨D', hne, hkept D' id' hD'⟩
  case posting =>
    intro D T frame hframe
    obtain ⟨hne, hT, id', msg, hD, rfl⟩ := h.posting D T frame hframe
    obtain ⟨idT, hidT⟩ := Option.ne_none_iff_exists'.mp hT
    refine ⟨hne, ?_, id', msg, hkept D id' hD, rfl⟩
    change Function.update s.playerId C (some id) T ≠ none
    rw [hkept T idT hidT]
    exact Option.some_ne_none _
  case welcomed =>
    intro D lobbyId id' hframe
    rcases List.mem_append.mp hframe with hold | hwelcome
    · exact hkept D id' (h.welcomed D lobbyId id' hold)
    · rcases mem_welcome hwelcome with ⟨rfl, heq⟩ | ⟨-, heq⟩ <;> cases heq
      exact Function.update_self _ _ _
  case listed =>
    intro D players hframe
    rcases List.mem_append.mp hframe with hold | hwelcome
    · exact (h.listed D players hold).of_playerId hkept
    · rcases mem_welcome hwelcome with ⟨-, heq⟩ | ⟨-, heq⟩ <;> cases heq
      exact lists_listing hadded.valid hzero fun player hplayer =>
        ⟨player.connection, (hmember _ _).mpr ⟨player, hplayer, rfl, rfl⟩⟩
  case players =>
    intro D
    exact (h.players D).imp_right fun hlists => hlists.of_playerId hkept
  case own =>
    intro D
    by_cases hD : D = C
    · subst hD
      obtain ⟨hinbox, -, indices, hinit⟩ := h.outsider D hnew
      refine Or.inr ⟨congrArg (fun client : Client => client.net.players) hinit, lobby.name, id, ?_⟩
      change ∃ frames, s.inbox D ++ welcome D id lobby D = _
      rw [hinbox, welcome, if_pos rfl]
      exact ⟨_, rfl⟩
    · change (s.clients D).net.playerId = Function.update s.playerId C (some id) D ∨ _
      rw [Function.update_of_ne hD]
      refine (h.own D).imp_right ?_
      rintro ⟨hplayers, lobbyId, id', frames, hframes⟩
      refine ⟨hplayers, lobbyId, id', frames ++ welcome C id lobby D, ?_⟩
      change s.inbox D ++ welcome C id lobby D = _
      rw [hframes, List.cons_append]
  case latest =>
    intro D hD
    obtain ⟨id', hid'⟩ := Option.ne_none_iff_exists'.mp hD
    obtain ⟨player, hplayer, -, hconnection⟩ := (hmember D id').mp hid'
    change ((s.clients D).net.receive (s.inbox D ++ welcome C id lobby D)).players = _
    rw [Net.Table.receive_append]
    exact players_receive_welcome _ ⟨player, hplayer, hconnection⟩
  exacts [hadded.valid, hmember, fun _ => hzero]

/-! ### Relaying -/

theorem relay_eq_some (h : s.relay C = some s') :
    ∃ id msg sent, s.playerId C = some id ∧ (s.clients C).sent = msg :: sent ∧ s.posts C = [] ∧
      s' = { s.setClient C { s.clients C with sent := sent } with
        posts := Function.update s.posts C ((s.lobby.players.filter (·.id ≠ id)).map fun player =>
          (player.connection, .relayMessage id msg)) } := by
  rw [relay] at h
  split at h
  · rename_i id msg sent hid hsent
    split at h
    · exact ⟨id, msg, sent, hid, hsent, ‹_›, (Option.some.inj h).symm⟩
    · cases h
  · cases h

theorem post_eq_some (h : s.post C = some s') :
    ∃ T frame posts, s.posts C = (T, frame) :: posts ∧ s' = { s with
      posts := Function.update s.posts C posts
      inbox := Function.update s.inbox T (s.inbox T ++ [frame]) } := by
  rw [post] at h
  split at h
  · exact ⟨_, _, _, ‹_›, (Option.some.inj h).symm⟩
  · cases h

theorem Consistent.setPosts (h : s.Consistent) {posts : List (Sid × Net.Frame LobbyMessage)}
    (hmember : s.playerId C ≠ none)
    (hposts : ∀ T frame, (T, frame) ∈ posts → T ≠ C ∧ s.playerId T ≠ none ∧
      ∃ id msg, s.playerId C = some id ∧ frame = .relayMessage id msg) :
    Consistent { s with posts := Function.update s.posts C posts } where
  valid := h.valid
  member := h.member
  first := h.first
  outsider D hD := by
    obtain ⟨hinbox, hnone, hinit⟩ := h.outsider D hD
    refine ⟨hinbox, ?_, hinit⟩
    change Function.update s.posts C posts D = []
    rwa [Function.update_of_ne]
    rintro rfl
    exact hmember hD
  sender := h.sender
  posting D T frame hframe := by
    rcases mem_update hframe with ⟨rfl, hnew⟩ | hold
    · exact hposts T frame hnew
    · exact h.posting D T frame hold
  welcomed := h.welcomed
  listed D players hframe := (h.listed D players hframe).of_playerId fun _ _ hD => hD
  players D := (h.players D).imp_right fun hlists => hlists.of_playerId fun _ _ hD => hD
  own := h.own
  latest := h.latest

/-- One more relayed message is on its way. -/
theorem Consistent.push (h : s.Consistent) {T : Sid} {msg : LobbyMessage} (hne : T ≠ C)
    (hT : s.playerId T ≠ none) (hC : s.playerId C = some id) :
    Consistent { s with
      inbox := Function.update s.inbox T (s.inbox T ++ [.relayMessage id msg]) } := by
  have hold {D : Sid} {frame : Net.Frame LobbyMessage}
      (hframe : frame ∈ Function.update s.inbox T (s.inbox T ++ [.relayMessage id msg]) D) :
      frame ∈ s.inbox D ∨ D = T ∧ frame = .relayMessage id msg := by
    rcases mem_update hframe with ⟨rfl, hmem⟩ | hmem
    · rw [List.mem_append, List.mem_singleton] at hmem
      exact hmem.imp_right fun heq => ⟨rfl, heq⟩
    · exact Or.inl hmem
  constructor
  case outsider =>
    intro D hD
    obtain ⟨hinbox, hposts, hinit⟩ := h.outsider D hD
    refine ⟨?_, hposts, hinit⟩
    change Function.update s.inbox T _ D = []
    rwa [Function.update_of_ne]
    rintro rfl
    exact hT hD
  case sender =>
    intro D id' msg' hmsg
    rcases List.mem_append.mp hmsg with hevent | hframe
    · exact h.sender D id' msg' (List.mem_append_left _ hevent)
    · obtain ⟨frame, hframe, hevent⟩ := List.mem_map.mp hframe
      rcases hold hframe with hframe | ⟨rfl, rfl⟩
      · exact h.sender D id' msg'
          (List.mem_append_right _ (List.mem_map.mpr ⟨frame, hframe, hevent⟩))
      · cases hevent
        exact ⟨C, hne.symm, hC⟩
  case welcomed =>
    intro D lobbyId id' hframe
    rcases hold hframe with hframe | ⟨-, heq⟩
    · exact h.welcomed D lobbyId id' hframe
    · cases heq
  case listed =>
    intro D players hframe
    rcases hold hframe with hframe | ⟨-, heq⟩
    · exact (h.listed D players hframe).of_playerId fun _ _ hD => hD
    · cases heq
  case players =>
    intro D
    exact (h.players D).imp_right fun hlists => hlists.of_playerId fun _ _ hD => hD
  case own =>
    intro D
    refine (h.own D).imp_right ?_
    rintro ⟨hplayers, lobbyId, id', frames, hframes⟩
    refine ⟨hplayers, lobbyId, id', ?_⟩
    change ∃ frames, Function.update s.inbox T _ D = _
    by_cases hD : D = T
    · subst hD
      rw [Function.update_self, hframes]
      exact ⟨_, rfl⟩
    · rw [Function.update_of_ne hD]
      exact ⟨frames, hframes⟩
  case latest =>
    intro D hD
    change ((s.clients D).net.receive (Function.update s.inbox T _ D)).players = _
    by_cases hDT : D = T
    · subst hDT
      rw [Function.update_self, Net.Table.receive_append]
      exact h.latest D hD
    · rw [Function.update_of_ne hDT]
      exact h.latest D hD
  exacts [h.valid, h.member, h.first, h.posting]

/-! ### A client's step -/

/-- The first `count` frames arrive at `C`. -/
def deliver (s : Room Sid) (C : Sid) (count : Nat) : Room Sid :=
  { s.setClient C ((s.clients C).receive ((s.inbox C).take count)) with
    inbox := Function.update s.inbox C ((s.inbox C).drop count) }

theorem setClient_setClient (client client' : Client) :
    (s.setClient C client).setClient C client' = s.setClient C client' := by
  simp [setClient]

theorem update_eq_some {games : List Game} {count : Nat} {buttons : Buttons}
    (h : s.update games C count buttons = some s') :
    ∃ client', Client.Updated games buttons ((s.deliver C count).clients C) client' ∧
      s' = (s.deliver C count).setClient C client' := by
  rw [update] at h
  split at h
  · rename_i client' hclient
    have hupdated := Client.updated_of_eq hclient
    refine ⟨client', ?_, ?_⟩
    · rwa [deliver, clients_setClient_self]
    · rw [← Option.some.inj h]
      change _ = Room.mk _ _ _ _ (((s.setClient C _).setClient C client').clients)
      rw [setClient_setClient]
      rfl
  · cases h

theorem stream_deliver (s : Room Sid) (C : Sid) (count : Nat) (D : Sid) :
    (s.deliver C count).stream D = s.stream D := by
  by_cases hD : D = C
  · subst hD
    change ((s.setClient D _).clients D).net.events ++
      (Function.update s.inbox D _ D).map Net.Frame.event = _
    rw [clients_setClient_self, Function.update_self]
    change ((s.clients D).net.receive _).events ++ _ = _
    rw [Net.Table.events_receive, List.append_assoc, ← List.map_append, List.take_append_drop]
    rfl
  · change ((s.setClient C _).clients D).net.events ++
      (Function.update s.inbox C _ D).map Net.Frame.event = _
    rw [clients_setClient_of_ne _ hD, Function.update_of_ne hD]
    rfl

omit [DecidableEq Sid] in
/-- The first frames tell a client its id before they tell it any players. -/
theorem Consistent.own_receive (h : s.Consistent) (C : Sid) (count : Nat) :
    ((s.clients C).net.receive ((s.inbox C).take count)).playerId = s.playerId C ∨
      ((s.clients C).net.receive ((s.inbox C).take count)).players = [] ∧
        ∃ lobbyId id frames, (s.inbox C).drop count = .lobbyJoined lobbyId id :: frames := by
  have hjoined {frames : List (Net.Frame LobbyMessage)} (hsubset : frames ⊆ s.inbox C)
      (lobbyId : Bytes) (id : Nat) (hframe : .lobbyJoined lobbyId id ∈ frames) :
      some id = s.playerId C := (h.welcomed C lobbyId id (hsubset hframe)).symm
  rcases h.own C with hown | ⟨hplayers, lobbyId, id, frames, hframes⟩
  · left
    exact Net.Table.playerId_receive _ (hjoined (List.take_subset _ _)) hown
  · cases count with
    | zero => exact Or.inr ⟨hplayers, lobbyId, id, frames, hframes⟩
    | succ count =>
        left
        have hfirst : Net.Frame.lobbyJoined lobbyId id ∈ s.inbox C := by
          rw [hframes]
          exact List.mem_cons_self
        have hrest : frames.take count ⊆ s.inbox C := by
          rw [hframes]
          exact List.Subset.trans (List.take_subset _ _) (List.subset_cons_self _ _)
        rw [hframes, List.take_succ_cons]
        exact Net.Table.playerId_receive ((s.clients C).net.lobbyJoined lobbyId id)
          (hjoined hrest) (h.welcomed C lobbyId id hfirst).symm

theorem Consistent.deliver (h : s.Consistent) (hmember : s.playerId C ≠ none) (count : Nat) :
    (s.deliver C count).Consistent := by
  have hinbox {D : Sid} {frame : Net.Frame LobbyMessage}
      (hframe : frame ∈ (s.deliver C count).inbox D) : frame ∈ s.inbox D := by
    rcases mem_update hframe with ⟨rfl, hrest⟩ | hold
    · exact List.mem_of_mem_drop hrest
    · exact hold
  have hother {D : Sid} (hD : D ≠ C) : (s.deliver C count).inbox D = s.inbox D ∧
      (s.deliver C count).clients D = s.clients D :=
    ⟨Function.update_of_ne hD _ _, clients_setClient_of_ne _ hD⟩
  have hself : (s.deliver C count).inbox C = (s.inbox C).drop count ∧
      (s.deliver C count).clients C = (s.clients C).receive ((s.inbox C).take count) :=
    ⟨Function.update_self _ _ _, clients_setClient_self _⟩
  constructor
  case outsider =>
    intro D hD
    have hne : D ≠ C := by
      rintro rfl
      exact hmember hD
    rw [(hother hne).1, (hother hne).2]
    exact h.outsider D hD
  case sender =>
    intro D id msg hmsg
    rw [stream_deliver] at hmsg
    exact h.sender D id msg hmsg
  case welcomed =>
    intro D lobbyId id hframe
    exact h.welcomed D lobbyId id (hinbox hframe)
  case listed =>
    intro D players hframe
    exact (h.listed D players (hinbox hframe)).of_playerId fun _ _ hD => hD
  case players =>
    intro D
    by_cases hD : D = C
    · subst hD
      rw [hself.2]
      change ((s.clients D).net.receive _).players = [] ∨
        Lists _ ((s.clients D).net.receive _).players
      rcases Net.Table.players_receive (s.clients D).net ((s.inbox D).take count) with hsame | hmem
      · rw [hsame]
        exact (h.players D).imp_right fun hlists => hlists.of_playerId fun _ _ hD => hD
      · exact Or.inr ((h.listed D _ (List.mem_of_mem_take hmem)).of_playerId fun _ _ hD => hD)
    · rw [(hother hD).2]
      exact (h.players D).imp_right fun hlists => hlists.of_playerId fun _ _ hD => hD
  case own =>
    intro D
    by_cases hD : D = C
    · subst hD
      rw [hself.1, hself.2]
      exact h.own_receive D count
    · rw [(hother hD).1, (hother hD).2]
      exact h.own D
  case latest =>
    intro D hD
    by_cases hDC : D = C
    · subst hDC
      rw [hself.1, hself.2]
      change (((s.clients D).net.receive _).receive _).players = _
      rw [← Net.Table.receive_append, List.take_append_drop]
      exact h.latest D hD
    · rw [(hother hDC).1, (hother hDC).2]
      exact h.latest D hD
  exacts [h.valid, h.member, h.first, h.posting]

/-- A scene takes events off the queue, and leaves the rest of the table `net` alone. -/
theorem Consistent.setClient (h : s.Consistent) (hmember : s.playerId C ≠ none) {client : Client}
    {events : List (Net.NetEvent LobbyMessage)} (hevents : events <:+ (s.clients C).net.events)
    (hnet : client.net = { (s.clients C).net with events := events }) :
    (s.setClient C client).Consistent := by
  have hsame (D : Sid) : ((s.setClient C client).clients D).net.playerId =
        (s.clients D).net.playerId ∧
      ((s.setClient C client).clients D).net.players = (s.clients D).net.players ∧
      ((s.setClient C client).clients D).net.events <:+ (s.clients D).net.events := by
    by_cases hD : D = C
    · subst hD
      rw [clients_setClient_self, hnet]
      exact ⟨rfl, rfl, hevents⟩
    · rw [clients_setClient_of_ne _ hD]
      exact ⟨rfl, rfl, List.suffix_rfl⟩
  refine ⟨h.valid, h.member, h.first, ?_, ?_, h.posting, h.welcomed, ?_, ?_, ?_, ?_⟩
  · intro D hD
    have hne : D ≠ C := by
      rintro rfl
      exact hmember hD
    rw [clients_setClient_of_ne _ hne]
    exact h.outsider D hD
  · intro D id msg hmsg
    apply h.sender D id msg
    rcases List.mem_append.mp hmsg with hevent | hframe
    · exact List.mem_append_left _ ((hsame D).2.2.subset hevent)
    · exact List.mem_append_right _ hframe
  · intro D players hframe
    exact (h.listed D players hframe).of_playerId fun _ _ hD => hD
  · intro D
    rw [(hsame D).2.1]
    exact (h.players D).imp_right fun hlists => hlists.of_playerId fun _ _ hD => hD
  · intro D
    rw [(hsame D).1, (hsame D).2.1]
    exact h.own D
  · intro D hD
    exact (Net.Table.players_receive_congr (hsame D).2.1 _).trans (h.latest D hD)

/-- Nothing arrives at a client that has not joined, and its scene waits. -/
theorem update_outsider {games : List Game} {count : Nat} {buttons : Buttons} {indices : List Nat}
    (hinbox : s.inbox C = []) (hinit : s.clients C = Client.init indices)
    (hupdate : s.update games C count buttons = some s') : s' = s := by
  have hclient : (s.clients C).update games ((s.inbox C).take count) buttons =
      .ok (s.clients C) := by
    rw [hinbox, hinit, List.take_nil]
    rfl
  rw [update, hclient] at hupdate
  rw [← Option.some.inj hupdate, setClient_eq_self, hinbox, List.drop_nil, ← hinbox,
    Function.update_eq_self]

theorem Consistent.update_outsider (h : s.Consistent) {games : List Game} {count : Nat}
    {buttons : Buttons} (hC : s.playerId C = none)
    (hupdate : s.update games C count buttons = some s') : s' = s := by
  obtain ⟨hinbox, -, indices, hinit⟩ := h.outsider C hC
  exact Room.update_outsider hinbox hinit hupdate

theorem Consistent.step {games : List Game} {e : RoomEvent Sid} (h : s.Consistent)
    (hstep : s.step games e = some s') : s'.Consistent := by
  cases e with
  | join C playerName => exact h.join hstep
  | relay C =>
      obtain ⟨id, msg, sent, hid, -, -, rfl⟩ := relay_eq_some hstep
      have hmember : s.playerId C ≠ none := by simp [hid]
      have hclient : (s.setClient C { s.clients C with sent := sent }).Consistent := by
        refine h.setClient hmember List.suffix_rfl ?_
        rfl
      refine hclient.setPosts hmember ?_
      intro T frame hframe
      obtain ⟨player, hplayer, heq⟩ := List.mem_map.mp hframe
      obtain ⟨rfl, rfl⟩ := Prod.mk.inj heq
      obtain ⟨hplayer, hne⟩ := List.mem_filter.mp hplayer
      have hT := h.playerId_connection hplayer
      refine ⟨?_, ?_, id, msg, hid, rfl⟩
      · rintro rfl
        rw [hid] at hT
        exact absurd (Option.some.inj hT).symm (of_decide_eq_true hne)
      · change s.playerId player.connection ≠ none
        simp [hT]
  | post C =>
      obtain ⟨T, frame, posts, hposts, rfl⟩ := post_eq_some hstep
      have hmem : (T, frame) ∈ s.posts C := by simp [hposts]
      obtain ⟨hne, hT, id, msg, hid, rfl⟩ := h.posting C T frame hmem
      refine Consistent.push (h.setPosts (by simp [hid]) ?_) hne hT hid
      intro T' frame' hframe'
      apply h.posting C T' frame'
      rw [hposts]
      exact List.mem_cons_of_mem _ hframe'
  | update C count buttons =>
      cases hC : s.playerId C with
      | none => exact h.update_outsider hC hstep ▸ h
      | some id =>
          have hmember : s.playerId C ≠ none := by simp [hC]
          obtain ⟨client', hupdated, rfl⟩ := update_eq_some hstep
          obtain ⟨events, hevents, hnet⟩ := hupdated.net_eq
          exact (h.deliver hmember count).setClient hmember hevents hnet

end ChatGames.Room
