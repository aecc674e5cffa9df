import ChatGames.OpenRoom
import ChatGames.Proof.RoomInvariant

/-!
# The members of an open room

`Coherent` says who is a member, and that only members post, and only to members. What is proved
about open rooms beyond that is local: a property of the clients of members, and one of the frames
on their way to them. `Local.step` carries such a pair through a step.
-/

namespace ChatGames

/-- A client has a property `R` that depends on its player id, and the frames on their way to it a
property `F`. The rules are for what no scene has a part in. -/
structure LocalRules (R : Nat → Client → Prop) (F : Nat → Net.Frame LobbyMessage → Prop) :
    Prop where
  welcomed : ∀ lobbyId id, F id (.lobbyJoined lobbyId id)
  relayed : ∀ id client msg sent, R id client → client.sent = msg :: sent →
    R id { client with sent := sent } ∧ ∀ id', F id' (.relayMessage id msg)
  received : ∀ id client frames, R id client → (∀ frame ∈ frames, F id frame) →
    R id (client.receive frames)

namespace OpenRoom

variable {Sid : Type}

structure Coherent (s : OpenRoom Sid) : Prop where
  valid : s.lobby.Valid
  member : ∀ C id, s.playerId C = some id ↔
    ∃ player ∈ s.lobby.players, player.id = id ∧ player.connection = C
  fresh : ∀ C, s.joined C = false → s.playerId C = none ∧ s.inbox C = [] ∧
    ∃ colors : ShuffledColors, s.clients C = Client.init colors.indices
  posting : ∀ C T frame, (T, frame) ∈ s.posts C → s.playerId T ≠ none ∧
    ∃ id msg, s.playerId C = some id ∧ frame = .relayMessage id msg

/-- The clients of the members and the frames on their way to them. -/
structure Local (R : Nat → Client → Prop) (F : Nat → Net.Frame LobbyMessage → Prop)
    (s : OpenRoom Sid) : Prop where
  client : ∀ C id, s.playerId C = some id → R id (s.clients C)
  inbox : ∀ C id, s.playerId C = some id → ∀ frame ∈ s.inbox C, F id frame
  posts : ∀ C T frame, (T, frame) ∈ s.posts C → ∀ id, s.playerId T = some id → F id frame

variable {s s' : OpenRoom Sid} {C D : Sid} {id : Nat} {R R' : Nat → Client → Prop}
  {F F' : Nat → Net.Frame LobbyMessage → Prop}

theorem Coherent.playerId_inj (h : s.Coherent) (hC : s.playerId C = some id)
    (hD : s.playerId D = some id) : C = D := by
  obtain ⟨player, hplayer, hid, rfl⟩ := (h.member C id).mp hC
  obtain ⟨player', hplayer', hid', rfl⟩ := (h.member D id).mp hD
  rw [h.valid.eq_of_id_eq hplayer hplayer' (hid.trans hid'.symm)]

/-- While no member posts nobody does. -/
theorem Coherent.posts_eq_nil (h : s.Coherent)
    (hmembers : ∀ player ∈ s.lobby.players, s.posts player.connection = []) (C : Sid) :
    s.posts C = [] := by
  cases hposts : s.posts C with
  | nil => rfl
  | cons post posts =>
      have hmem : (post.1, post.2) ∈ s.posts C := by simp [hposts]
      obtain ⟨-, id, -, hid, -⟩ := h.posting C post.1 post.2 hmem
      obtain ⟨player, hplayer, -, rfl⟩ := (h.member C id).mp hid
      rw [hmembers player hplayer] at hposts
      cases hposts

theorem coherent_init (lobbyName : Bytes) (colors : Sid → ShuffledColors) :
    (init lobbyName colors).Coherent where
  valid := Lobby.valid_new lobbyName
  member C id := by
    constructor
    · intro h
      cases h
    · rintro ⟨player, hplayer, -⟩
      cases hplayer
  fresh C _ := ⟨rfl, rfl, colors C, rfl⟩
  posting C T frame h := by cases h

theorem local_init (lobbyName : Bytes) (colors : Sid → ShuffledColors) :
    (init lobbyName colors).Local R F where
  client C id h := by cases h
  inbox C id h := by cases h
  posts C T frame h := by cases h

theorem Local.imp (h : s.Local R F)
    (hclient : ∀ C id, s.playerId C = some id → R id (s.clients C) → R' id (s.clients C))
    (hinbox : ∀ C id, s.playerId C = some id → ∀ frame ∈ s.inbox C, F id frame → F' id frame)
    (hposts : ∀ C T frame, (T, frame) ∈ s.posts C → ∀ id, F id frame → F' id frame) :
    s.Local R' F' where
  client C id hC := hclient C id hC (h.client C id hC)
  inbox C id hC frame hframe := hinbox C id hC frame hframe (h.inbox C id hC frame hframe)
  posts C T frame hframe id hT := hposts C T frame hframe id (h.posts C T frame hframe id hT)

/-- The client when its next call of `net.update` has received `count` frames. -/
def arrived (s : OpenRoom Sid) (C : Sid) (count : Nat) : Client :=
  (s.clients C).receive ((s.inbox C).take count)

/-- With `count` frames the call ends a tick of a player that takes itself for the master. -/
def EndsMasterTick (s : OpenRoom Sid) (C : Sid) (count : Nat) : Prop :=
  s.playerId C ≠ none ∧ (s.arrived C count).scene = .lobby ∧
    (s.arrived C count).net.events = [] ∧ (s.arrived C count).isMaster = .ok true

instance decidableEndsMasterTick (s : OpenRoom Sid) (C : Sid) (count : Nat) :
    Decidable (s.EndsMasterTick C count) := inferInstanceAs (Decidable (_ ∧ _ ∧ _ ∧ _))

variable [DecidableEq Sid]

/-! ### Steps -/

theorem join_eq_some {playerName : Bytes} (hvalid : s.lobby.Valid)
    (h : s.join C playerName = some s') :
    s.joined C = false ∧ ∃ id lobby, s.lobby.Added playerName C id lobby ∧
      s' = { s with
        lobby := lobby
        playerId := Function.update s.playerId C (some id)
        inbox := fun T => s.inbox T ++ Room.welcome C id lobby T
        joined := Function.update s.joined C true } := by
  rw [join] at h
  split at h
  · cases h
  · rename_i hjoined
    obtain ⟨room, hroom, rfl⟩ := Option.map_eq_some_iff.mp h
    obtain ⟨-, id, lobby, hadded, rfl⟩ := Room.join_eq_some hvalid hroom
    exact ⟨Bool.not_eq_true _ ▸ hjoined, id, lobby, hadded, rfl⟩

theorem leave_eq_some (hvalid : s.lobby.Valid) (h : s.leave C = some s') :
    ∃ id, s.playerId C = some id ∧
      (∀ player ∈ s.lobby.players, s.posts player.connection = []) ∧
      s'.lobby.Valid ∧ s'.lobby.players = s.lobby.players.filter (·.id ≠ id) ∧
      s' = { s with
        lobby := s'.lobby
        playerId := Function.update s.playerId C none
        inbox := fun T => s.inbox T ++ farewell s'.lobby T } := by
  rw [leave] at h
  split at h
  · rename_i id hid
    split at h
    · rename_i hposts
      cases hremove : s.lobby.removePlayer id with
      | error fault => rw [hremove] at h; cases h
      | ok lobby =>
          rw [hremove] at h
          obtain ⟨hlobby, hvalid'⟩ := Lobby.removePlayer_eq_ok hvalid hremove
          obtain rfl := Option.some.inj h
          exact ⟨id, hid, hposts, hvalid', congrArg Lobby.players hlobby, rfl⟩
    · cases h
  · cases h

theorem update_eq_some {games : List Game} {count : Nat} {buttons : Buttons} {room : Room Sid}
    (h : s.toRoom.update games C count buttons = some room) :
    ∃ client', Client.Updated games buttons (s.arrived C count) client' ∧
      room = { s.toRoom.setClient C client' with
        inbox := Function.update s.inbox C ((s.inbox C).drop count) } := by
  rw [Room.update] at h
  split at h
  · exact ⟨_, Client.updated_of_eq ‹_›, (Option.some.inj h).symm⟩
  · cases h

/-- The update runs the rest of the master's tick. -/
theorem EndsMasterTick.finishTick {games : List Game} {count : Nat} {buttons : Buttons}
    (h : s.EndsMasterTick C count) (hstep : s.step games (.update C count buttons) = some s') :
    (s.arrived C count).send.isMaster = .ok true ∧
      (s.arrived C count).send.finishTick games buttons = .ok (s'.clients C) := by
  obtain ⟨-, hscene, hevents, hmaster⟩ := h
  obtain ⟨room, hroom, rfl⟩ := Option.map_eq_some_iff.mp hstep
  obtain ⟨client', hupdated, rfl⟩ := update_eq_some hroom
  have hclient' : (s.setClient C client').clients C = client' := Room.clients_setClient_self _
  refine ⟨hmaster, ?_⟩
  change _ = Except.ok ((s.setClient C client').clients C)
  rw [hclient']
  exact hupdated.finishTick hscene hevents

/-! ### Who is a member -/

theorem Coherent.join {playerName : Bytes} (h : s.Coherent)
    (hjoin : s.join C playerName = some s') : s'.Coherent := by
  obtain ⟨hjoined, id, lobby, hadded, rfl⟩ := join_eq_some h.valid hjoin
  have hnew := (h.fresh C hjoined).1
  have hkept {D : Sid} {id' : Nat} (hD : s.playerId D = some id') :
      Function.update s.playerId C (some id) D = some id' := Room.playerId_kept hnew hD
  refine ⟨hadded.valid, Room.member_added h.member hnew hadded, ?_, ?_⟩
  · intro D hD
    change Function.update s.joined C true D = false at hD
    have hne : D ≠ C := by
      rintro rfl
      rw [Function.update_self] at hD
      cases hD
    rw [Function.update_of_ne hne] at hD
    obtain ⟨hnone, hinbox, hinit⟩ := h.fresh D hD
    refine ⟨(Function.update_of_ne hne _ _).trans hnone, ?_, hinit⟩
    apply List.append_eq_nil_iff.mpr ⟨hinbox, ?_⟩
    apply List.eq_nil_iff_forall_not_mem.mpr
    intro frame hframe
    rcases Room.mem_welcome hframe with ⟨heq, -⟩ | ⟨⟨player, hplayer, hconnection⟩, -⟩
    · exact hne heq
    · have hmember := (Room.member_added h.member hnew hadded D player.id).mpr
        ⟨player, hplayer, rfl, hconnection⟩
      rw [Function.update_of_ne hne, hnone] at hmember
      cases hmember
  · intro D T frame hframe
    obtain ⟨hT, id', msg, hD, rfl⟩ := h.posting D T frame hframe
    obtain ⟨idT, hidT⟩ := Option.ne_none_iff_exists'.mp hT
    refine ⟨?_, id', msg, hkept hD, rfl⟩
    change Function.update s.playerId C (some id) T ≠ none
    rw [hkept hidT]
    exact Option.some_ne_none _

theorem playerId_left {id' : Nat} :
    Function.update s.playerId C none D = some id' ↔ D ≠ C ∧ s.playerId D = some id' := by
  by_cases hD : D = C
  · subst hD
    simp
  · rw [Function.update_of_ne hD]
    exact (and_iff_right hD).symm

/-- The players that stay are the ones with another id. -/
theorem Coherent.member_left (h : s.Coherent) (hC : s.playerId C = some id) (D : Sid) (id' : Nat) :
    Function.update s.playerId C none D = some id' ↔
      ∃ player ∈ s.lobby.players.filter (·.id ≠ id), player.id = id' ∧ player.connection = D := by
  rw [playerId_left, h.member D id']
  constructor
  · rintro ⟨hD, player, hplayer, rfl, rfl⟩
    refine ⟨player, List.mem_filter.mpr ⟨hplayer, decide_eq_true fun hid => ?_⟩, rfl, rfl⟩
    subst hid
    exact hD (h.playerId_inj ((h.member _ _).mpr ⟨player, hplayer, rfl, rfl⟩) hC)
  · rintro ⟨player, hplayer, rfl, rfl⟩
    obtain ⟨hplayer, hne⟩ := List.mem_filter.mp hplayer
    refine ⟨?_, player, hplayer, rfl, rfl⟩
    rintro rfl
    rw [(h.member _ _).mpr ⟨player, hplayer, rfl, rfl⟩, Option.some_inj] at hC
    exact of_decide_eq_true hne hC

theorem mem_farewell {lobby : Lobby Sid} {frame : Net.Frame LobbyMessage}
    (h : frame ∈ farewell lobby D) : (∃ player ∈ lobby.players, player.connection = D) ∧
      frame = .updateLobby (Net.listing lobby.players) := by
  obtain ⟨player, hplayer, rfl⟩ := List.mem_map.mp h
  obtain ⟨hplayer, hconnection⟩ := List.mem_filter.mp hplayer
  exact ⟨⟨player, hplayer, of_decide_eq_true hconnection⟩, rfl⟩

theorem Coherent.leave (h : s.Coherent) (hleave : s.leave C = some s') : s'.Coherent := by
  obtain ⟨id, hC, hposts, hvalid, hplayers, hs'⟩ := leave_eq_some h.valid hleave
  have hmember : ∀ D id', s'.playerId D = some id' ↔
      ∃ player ∈ s'.lobby.players, player.id = id' ∧ player.connection = D := by
    rw [hplayers, hs']
    exact h.member_left hC
  refine ⟨hvalid, hmember, ?_, ?_⟩
  · intro D hD
    rw [hs'] at hD
    obtain ⟨hnone, hinbox, hinit⟩ := h.fresh D hD
    have hne : D ≠ C := by
      rintro rfl
      rw [hnone] at hC
      cases hC
    have hout : s'.playerId D = none := by
      rw [hs']
      exact (Function.update_of_ne hne _ _).trans hnone
    refine ⟨hout, ?_, ?_⟩
    · rw [hs']
      apply List.append_eq_nil_iff.mpr ⟨hinbox, ?_⟩
      apply List.eq_nil_iff_forall_not_mem.mpr
      intro frame hframe
      obtain ⟨⟨player, hplayer, hconnection⟩, -⟩ := mem_farewell hframe
      rw [(hmember D player.id).mpr ⟨player, hplayer, rfl, hconnection⟩] at hout
      cases hout
    · rw [hs']
      exact hinit
  · intro D T frame hframe
    rw [hs'] at hframe
    change (T, frame) ∈ s.posts D at hframe
    rw [h.posts_eq_nil hposts D] at hframe
    cases hframe

omit [DecidableEq Sid] in
theorem Coherent.withRoom (h : s.Coherent) {room : Room Sid} (hlobby : room.lobby = s.lobby)
    (hplayerId : room.playerId = s.playerId)
    (hfresh : ∀ D, s.joined D = false → room.inbox D = s.inbox D ∧ room.clients D = s.clients D)
    (hposting : ∀ D T frame, (T, frame) ∈ room.posts D → s.playerId T ≠ none ∧
      ∃ id msg, s.playerId D = some id ∧ frame = .relayMessage id msg) :
    (s.withRoom room).Coherent where
  valid := by
    change room.lobby.Valid
    rw [hlobby]
    exact h.valid
  member D id := by
    change room.playerId D = some id ↔ ∃ player ∈ room.lobby.players, _
    rw [hplayerId, hlobby]
    exact h.member D id
  fresh D hD := by
    obtain ⟨hinbox, hclient⟩ := hfresh D hD
    change room.playerId D = none ∧ room.inbox D = [] ∧ ∃ colors, room.clients D = _
    rw [hplayerId, hinbox, hclient]
    exact h.fresh D hD
  posting D T frame hframe := by
    change room.playerId T ≠ none ∧ ∃ id msg, room.playerId D = some id ∧ _
    rw [hplayerId]
    exact hposting D T frame hframe

theorem Coherent.relay (h : s.Coherent) {room : Room Sid} (hrelay : s.toRoom.relay C = some room) :
    (s.withRoom room).Coherent := by
  obtain ⟨id, msg, sent, hid, -, -, rfl⟩ := Room.relay_eq_some hrelay
  refine h.withRoom rfl rfl ?_ ?_
  · intro D hD
    refine ⟨rfl, Room.clients_setClient_of_ne _ ?_⟩
    rintro rfl
    rw [(h.fresh D hD).1] at hid
    cases hid
  · intro D T frame hframe
    rcases Room.mem_update hframe with ⟨rfl, hnew⟩ | hold
    · obtain ⟨player, hplayer, heq⟩ := List.mem_map.mp hnew
      obtain ⟨rfl, rfl⟩ := Prod.mk.inj heq
      refine ⟨?_, id, msg, hid, rfl⟩
      rw [(h.member _ _).mpr ⟨player, (List.mem_filter.mp hplayer).1, rfl, rfl⟩]
      exact Option.some_ne_none _
    · exact h.posting D T frame hold

theorem Coherent.post (h : s.Coherent) {room : Room Sid} (hpost : s.toRoom.post C = some room) :
    (s.withRoom room).Coherent := by
  obtain ⟨T, frame, posts, hposts, rfl⟩ := Room.post_eq_some hpost
  have hmem : (T, frame) ∈ s.posts C := by simp [hposts]
  refine h.withRoom rfl rfl ?_ ?_
  · intro D hD
    refine ⟨Function.update_of_ne ?_ _ _, rfl⟩
    rintro rfl
    exact (h.posting C D frame hmem).1 (h.fresh D hD).1
  · intro D T' frame' hframe
    rcases Room.mem_update hframe with ⟨rfl, hrest⟩ | hold
    · exact h.posting D T' frame' (hposts ▸ List.mem_cons_of_mem _ hrest)
    · exact h.posting D T' frame' hold

theorem Coherent.update (h : s.Coherent) {games : List Game} {count : Nat} {buttons : Buttons}
    {room : Room Sid} (hupdate : s.toRoom.update games C count buttons = some room) :
    (s.withRoom room).Coherent := by
  obtain ⟨client', -, hroom⟩ := update_eq_some hupdate
  refine h.withRoom ?_ ?_ ?_ ?_
  · rw [hroom]
    rfl
  · rw [hroom]
    rfl
  · intro D hD
    by_cases hDC : D = C
    · subst hDC
      obtain ⟨-, hinbox, colors, hinit⟩ := h.fresh D hD
      rw [Room.update_outsider hinbox hinit hupdate]
      exact ⟨rfl, rfl⟩
    · rw [hroom]
      exact ⟨Function.update_of_ne hDC _ _, Room.clients_setClient_of_ne _ hDC⟩
  · rw [hroom]
    exact h.posting

theorem Coherent.step {games : List Game} {e : OpenRoomEvent Sid} (h : s.Coherent)
    (hstep : s.step games e = some s') : s'.Coherent := by
  cases e with
  | join C playerName => exact h.join hstep
  | leave C => exact h.leave hstep
  | relay C =>
      obtain ⟨room, hroom, rfl⟩ := Option.map_eq_some_iff.mp hstep
      exact h.relay hroom
  | post C =>
      obtain ⟨room, hroom, rfl⟩ := Option.map_eq_some_iff.mp hstep
      exact h.post hroom
  | update C count buttons =>
      obtain ⟨room, hroom, rfl⟩ := Option.map_eq_some_iff.mp hstep
      exact h.update hroom

theorem coherent {games : List Game} {lobbyName : Bytes} {colors : Sid → ShuffledColors}
    (h : (openRoomSystem games lobbyName colors).Reachable s) : s.Coherent :=
  h.invariant Coherent (coherent_init lobbyName colors) fun _ _ _ hs hstep => hs.step hstep

/-! ### Local properties -/

section Local

variable {games : List Game} {count : Nat} {buttons : Buttons} {room : Room Sid}
  (hrules : LocalRules R F) (h : s.Local R F) (hs : s.Coherent)

include hrules h hs

theorem Local.join {playerName : Bytes} (hjoin : s.join C playerName = some s')
    (hinit : ∀ D id' (colors : ShuffledColors), s'.playerId D = some id' →
      R id' (Client.init colors.indices))
    (hlisted : ∀ id', F id' (.updateLobby (Net.listing s'.lobby.players))) : s'.Local R F := by
  obtain ⟨hjoined, id, lobby, -, rfl⟩ := join_eq_some hs.valid hjoin
  obtain ⟨hnew, hempty, colors, hclient⟩ := hs.fresh C hjoined
  have hself : Function.update s.playerId C (some id) C = some id := Function.update_self _ _ _
  have hother {D : Sid} (hD : D ≠ C) :
      Function.update s.playerId C (some id) D = s.playerId D := Function.update_of_ne hD _ _
  refine ⟨?_, ?_, ?_⟩
  · intro D id' hD
    by_cases hDC : D = C
    · subst hDC
      change R id' (s.clients D)
      rw [hclient]
      exact hinit D id' colors hD
    · exact h.client D id' ((hother hDC).symm.trans hD)
  · intro D id' hD frame hframe
    rcases List.mem_append.mp hframe with hold | hwelcome
    · by_cases hDC : D = C
      · subst hDC
        rw [hempty] at hold
        cases hold
      · exact h.inbox D id' ((hother hDC).symm.trans hD) frame hold
    · rcases Room.mem_welcome hwelcome with ⟨rfl, rfl⟩ | ⟨-, rfl⟩
      · obtain rfl := Option.some.inj (hself.symm.trans hD)
        exact hrules.welcomed lobby.name id
      · exact hlisted id'
  · intro D T frame hframe id' hT
    have hne : T ≠ C := by
      rintro rfl
      exact (hs.posting D T frame hframe).1 hnew
    exact h.posts D T frame hframe id' ((hother hne).symm.trans hT)

omit hrules in
theorem Local.leave (hleave : s.leave C = some s')
    (hlisted : ∀ id', F id' (.updateLobby (Net.listing s'.lobby.players))) : s'.Local R F := by
  obtain ⟨id, hC, hposts, -, -, hs'⟩ := leave_eq_some hs.valid hleave
  have hstays {D : Sid} {id' : Nat} (hD : s'.playerId D = some id') : s.playerId D = some id' := by
    rw [hs'] at hD
    exact (playerId_left.mp hD).2
  refine ⟨?_, ?_, ?_⟩
  · intro D id' hD
    have hclient := h.client D id' (hstays hD)
    rw [hs']
    exact hclient
  · intro D id' hD frame hframe
    rw [hs'] at hframe
    rcases List.mem_append.mp hframe with hold | hfarewell
    · exact h.inbox D id' (hstays hD) frame hold
    · rw [(mem_farewell hfarewell).2]
      exact hlisted id'
  · intro D T frame hframe
    rw [hs'] at hframe
    change (T, frame) ∈ s.posts D at hframe
    rw [hs.posts_eq_nil hposts D] at hframe
    cases hframe

omit hs in
theorem Local.relay (hrelay : s.toRoom.relay C = some room) : (s.withRoom room).Local R F := by
  obtain ⟨id, msg, sent, hid, hsent, -, rfl⟩ := Room.relay_eq_some hrelay
  obtain ⟨hclient, hframe⟩ := hrules.relayed id (s.clients C) msg sent (h.client C id hid) hsent
  refine ⟨?_, h.inbox, ?_⟩
  · intro D id' hD
    change R id' ((s.setClient C _).clients D)
    by_cases hDC : D = C
    · subst hDC
      obtain rfl := Option.some.inj (hid.symm.trans hD)
      rwa [Room.clients_setClient_self]
    · rw [Room.clients_setClient_of_ne _ hDC]
      exact h.client D id' hD
  · intro D T frame hpost id' hT
    rcases Room.mem_update hpost with ⟨rfl, hnew⟩ | hold
    · obtain ⟨player, -, heq⟩ := List.mem_map.mp hnew
      obtain ⟨rfl, rfl⟩ := Prod.mk.inj heq
      exact hframe id'
    · exact h.posts D T frame hold id' hT

omit hrules hs in
theorem Local.post (hpost : s.toRoom.post C = some room) : (s.withRoom room).Local R F := by
  obtain ⟨T, frame, posts, hposts, rfl⟩ := Room.post_eq_some hpost
  refine ⟨h.client, ?_, ?_⟩
  · intro D id' hD frame' hframe
    rcases Room.mem_update hframe with ⟨rfl, hmem⟩ | hold
    · rcases List.mem_append.mp hmem with hold | hnew
      · exact h.inbox D id' hD frame' hold
      · obtain rfl := List.mem_singleton.mp hnew
        exact h.posts C D frame' (by simp [hposts]) id' hD
    · exact h.inbox D id' hD frame' hold
  · intro D T' frame' hframe
    rcases Room.mem_update hframe with ⟨rfl, hrest⟩ | hold
    · exact h.posts D T' frame' (hposts ▸ List.mem_cons_of_mem _ hrest)
    · exact h.posts D T' frame' hold

omit hs [DecidableEq Sid] in
theorem Local.arrived (hC : s.playerId C = some id) (count : Nat) : R id (s.arrived C count) :=
  hrules.received id _ _ (h.client C id hC) fun frame hframe =>
    h.inbox C id hC frame (List.mem_of_mem_take hframe)

omit hs in
theorem Local.update (hupdate : s.toRoom.update games C count buttons = some room)
    (hupdated : ∀ id client', s.playerId C = some id → R id (s.arrived C count) →
      Client.Updated games buttons (s.arrived C count) client' → room.clients C = client' →
        R id client') : (s.withRoom room).Local R F := by
  obtain ⟨client', hclient', rfl⟩ := update_eq_some hupdate
  refine ⟨?_, ?_, h.posts⟩
  · intro D id' hD
    by_cases hDC : D = C
    · subst hDC
      have hself : (s.setClient D client').clients D = client' := Room.clients_setClient_self _
      change R id' ((s.setClient D client').clients D)
      rw [hself]
      exact hupdated id' client' hD (h.arrived hrules hD count) hclient' hself
    · change R id' ((s.setClient C client').clients D)
      rw [Room.clients_setClient_of_ne _ hDC]
      exact h.client D id' hD
  · intro D id' hD frame hframe
    rcases Room.mem_update hframe with ⟨rfl, hrest⟩ | hold
    · exact h.inbox D id' hD frame (List.mem_of_mem_drop hrest)
    · exact h.inbox D id' hD frame hold

/-- A step keeps a local property, if the scenes do. -/
theorem Local.step {e : OpenRoomEvent Sid} (hstep : s.step games e = some s')
    (hinit : ∀ D id' (colors : ShuffledColors), s'.playerId D = some id' →
      R id' (Client.init colors.indices))
    (hlisted : ∀ id', F id' (.updateLobby (Net.listing s'.lobby.players)))
    (hupdated : ∀ C count buttons, e = .update C count buttons → ∀ id client',
      s.playerId C = some id → R id (s.arrived C count) →
        Client.Updated games buttons (s.arrived C count) client' → s'.clients C = client' →
          R id client') : s'.Local R F := by
  cases e with
  | join C playerName => exact h.join hrules hs hstep hinit hlisted
  | leave C => exact h.leave hs hstep hlisted
  | relay C =>
      obtain ⟨room, hroom, rfl⟩ := Option.map_eq_some_iff.mp hstep
      exact h.relay hrules hroom
  | post C =>
      obtain ⟨room, hroom, rfl⟩ := Option.map_eq_some_iff.mp hstep
      exact h.post hroom
  | update C count buttons =>
      obtain ⟨room, hroom, rfl⟩ := Option.map_eq_some_iff.mp hstep
      exact h.update hrules hroom (hupdated C count buttons rfl)

end Local

end OpenRoom

end ChatGames
