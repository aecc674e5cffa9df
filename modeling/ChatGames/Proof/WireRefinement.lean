import ChatGames.Proof.WireClients

/-!
# The wire carries the room

Under every event the room on the wire does what the open room does, or neither can do anything.
So what holds of the clients, the lobby and the messages in every run of the one holds in every run
of the other.
-/

namespace ChatGames

/-! ### What a session reads -/

/-- A message of a client is taken off its stream as it was written. -/
theorem LobbyMessage.WrittenAs.nextMessage {msg : LobbyMessage} {bytes : Bytes}
    (h : msg.WrittenAs bytes) (rest : Bytes) :
    ∃ packed, packed.length < 65536 ∧ LobbyMessage.unpack packed = .ok msg ∧
      WireRoom.nextMessage (bytes ++ rest) = some (packed, rest) := by
  obtain ⟨packed, hlength, hunpack, hbytes⟩ := h
  have hfits : (Net.Request.sendMessage packed).message.Fits := hlength
  have hshort := Net.fields_length_lt hfits
  refine ⟨packed, hlength, hunpack, ?_⟩
  have hread : readMessage (bytes ++ rest) = .ok (some (UInt8.ofNat MessageType.sendMessage.val ::
      Net.fields (.sendMessage packed)), rest) := by
    rw [hbytes ⟨[]⟩, Net.encodeFrame_eq]
    refine Net.readMessage_frame ?_ rest
    rw [List.length_cons]
    omega
  have hprocess : processMessage (UInt8.ofNat MessageType.sendMessage.val ::
      Net.fields (.sendMessage packed)) = .ok (some (.sendMessage packed)) :=
    Net.processMessage_fields hfits
  simp only [WireRoom.nextMessage, hread, hprocess]

namespace WireRoom

variable {Sid : Type}

/-- The room on the wire is in the state of the open room. -/
structure Represents (wire : WireRoom Sid) (s : OpenRoom Sid) : Prop where
  lobby : wire.lobby = s.lobby
  playerId : wire.playerId = s.playerId
  joined : wire.joined = s.joined
  posts : ∀ C, List.Forall₂ (fun post data => post.1 = data.1 ∧
    Net.SentAs LobbyMessage.unpack post.2 data.2) (s.posts C) (wire.posts C)
  inbox : ∀ C, Net.Delivered (s.inbox C) (wire.inbox C)
  clients : ∀ C, (wire.clients C).Represents (s.clients C)

theorem represents_init (lobbyName : Bytes) (colors : Sid → ShuffledColors) :
    (init lobbyName colors).Represents (OpenRoom.init lobbyName colors) :=
  ⟨rfl, rfl, rfl, fun _ => .nil, fun _ => Net.delivered_nil, fun _ =>
    WireClient.represents_init _⟩

variable [DecidableEq Sid] {wire : WireRoom Sid} {s : OpenRoom Sid} {C : Sid}

/-- The two steps lead to rooms in the same state, or both lead nowhere. -/
abbrev Agree (s' : Option (OpenRoom Sid)) (wire' : Option (WireRoom Sid)) : Prop :=
  Option.Rel (fun s wire => wire.Represents s) s' wire'

omit [DecidableEq Sid] in
theorem Represents.posts_nil_iff (h : wire.Represents s) (C : Sid) :
    wire.posts C = [] ↔ s.posts C = [] := by
  have hlength := (h.posts C).length_eq
  rw [← List.length_eq_zero_iff, ← List.length_eq_zero_iff, hlength]

theorem delivered_farewell {lobby : Lobby Sid} (hvalid : lobby.Valid) (hfits : lobby.Fits)
    (T : Sid) :
    Net.Delivered (OpenRoom.farewell lobby T) (farewell lobby T) := by
  refine ⟨(lobby.players.filter (·.connection = T)).map fun _ => encodeLobbyUpdate lobby, ?_, ?_⟩
  · rw [OpenRoom.farewell, List.forall₂_map_left_iff, List.forall₂_map_right_iff, List.forall₂_same]
    exact fun _ _ => Net.sentAs_lobbyUpdate hvalid hfits
  · rw [farewell, List.map_map]
    rfl

theorem delivered_welcome {lobby : Lobby Sid} {id : Nat} (hvalid : lobby.Valid) (hfits : lobby.Fits)
    (hid : id < 256) (T : Sid) :
    Net.Delivered (Room.welcome C id lobby T) (welcome C id lobby T) := by
  refine Net.Delivered.append ?_ (delivered_farewell hvalid hfits T)
  split
  · exact ⟨[encodeLobbyJoined lobby.name id],
      .cons (Net.sentAs_lobbyJoined hid hfits.name_lt) .nil, rfl⟩
  · exact Net.delivered_nil

omit [DecidableEq Sid] in
theorem Represents.quiet_iff (h : wire.Represents s) :
    (∀ player ∈ wire.lobby.players, wire.posts player.connection = []) ↔
      ∀ player ∈ s.lobby.players, s.posts player.connection = [] := by
  rw [h.lobby]
  exact forall₂_congr fun player _ => h.posts_nil_iff player.connection

theorem Represents.join (h : wire.Represents s) (hs : s.Coherent) (hfits : s.Fits)
    {playerName : Bytes} (hname : playerName.length < 256) :
    Agree (s.join C playerName) (wire.join C playerName) := by
  have hcond_iff : (wire.joined C = false ∧ wire.playerId C = none ∧ wire.lobby.canJoin ∧
      ∀ player ∈ wire.lobby.players, wire.posts player.connection = []) ↔
      s.joined C = false ∧ s.playerId C = none ∧ s.lobby.canJoin ∧
        ∀ player ∈ s.lobby.players, s.posts player.connection = [] := by
    rw [h.quiet_iff, h.joined, h.playerId, h.lobby]
  rw [OpenRoom.join, WireRoom.join, Room.join]
  by_cases hcond : s.joined C = false ∧ s.playerId C = none ∧ s.lobby.canJoin ∧
      ∀ player ∈ s.lobby.players, s.posts player.connection = []
  · rw [if_pos (hcond_iff.mpr hcond), if_neg (by simp [hcond.1]), if_pos hcond.2, h.lobby]
    cases hadd : s.lobby.addPlayer playerName C with
    | error fault => exact .none
    | ok added =>
        obtain ⟨id, lobby⟩ := added
        have hadded := hs.valid.added hadd
        have hnew : ⟨id, C, playerName⟩ ∈ lobby.players :=
          hadded.perm.mem_iff.mpr List.mem_cons_self
        have hid : id < 256 := (hadded.valid.id_lt _ hnew).trans (by decide)
        refine .some ⟨rfl, ?_, ?_, h.posts, fun T => ?_, h.clients⟩
        · exact congrArg (Function.update · C (some id)) h.playerId
        · exact congrArg (Function.update · C true) h.joined
        · exact (h.inbox T).append
            (delivered_welcome hadded.valid (hfits.lobby.added hname hadded) hid T)
  · rw [if_neg fun hwire => hcond (hcond_iff.mp hwire)]
    split
    · exact .none
    · rename_i hjoined
      rw [if_neg fun hboth => hcond ⟨Bool.not_eq_true _ ▸ hjoined, hboth⟩]
      exact .none

theorem Represents.leave (h : wire.Represents s) (hs : s.Coherent) (hfits : s.Fits) :
    Agree (s.leave C) (wire.leave C) := by
  rw [OpenRoom.leave, WireRoom.leave, h.playerId]
  cases hid : s.playerId C with
  | none => exact .none
  | some id =>
      dsimp only
      by_cases hquiet : ∀ player ∈ s.lobby.players, s.posts player.connection = []
      · rw [if_pos (h.quiet_iff.mpr hquiet), if_pos hquiet, h.lobby]
        cases hremove : s.lobby.removePlayer id with
        | error fault => exact .none
        | ok lobby =>
            have hvalid := (Lobby.removePlayer_eq_ok hs.valid hremove).2
            have hfarewell := delivered_farewell hvalid (hfits.lobby.removed hs.valid hremove)
            exact .some ⟨rfl, rfl, h.joined, h.posts, fun T => (h.inbox T).append (hfarewell T),
              h.clients⟩
      · rw [if_neg fun hwire => hquiet (h.quiet_iff.mp hwire), if_neg hquiet]
        exact .none

/-- Lists of two rooms that agree go on to agree when the same one is replaced in both. -/
theorem forall_update {α β : Type} {R : α → β → Prop} {f : Sid → α} {g : Sid → β} {a : α} {b : β}
    (h : ∀ D, R (f D) (g D)) (hab : R a b) (D : Sid) :
    R (Function.update f C a D) (Function.update g C b D) := by
  by_cases hD : D = C
  · subst hD
    rwa [Function.update_self, Function.update_self]
  · rw [Function.update_of_ne hD, Function.update_of_ne hD]
    exact h D

omit [DecidableEq Sid] in
theorem Represents.nextMessage_nil (h : wire.Represents s) (hsent : (s.clients C).sent = []) :
    nextMessage (wire.clients C).sent = none := by
  obtain ⟨chunks, hchunks, hwire⟩ := (h.clients C).sent
  rw [hsent, List.forall₂_nil_left_iff] at hchunks
  rw [hwire, hchunks]
  rfl

omit [DecidableEq Sid] in
theorem Represents.nextMessage_cons (h : wire.Represents s) {msg : LobbyMessage}
    {sent : List LobbyMessage} (hsent : (s.clients C).sent = msg :: sent) :
    ∃ packed rest, packed.length < 65536 ∧ LobbyMessage.unpack packed = .ok msg ∧
      nextMessage (wire.clients C).sent = some (packed, rest) ∧
      { wire.clients C with sent := rest }.Represents { s.clients C with sent := sent } := by
  have hclient := h.clients C
  obtain ⟨chunks, hchunks, hwire⟩ := hclient.sent
  rw [hsent, List.forall₂_cons_left_iff] at hchunks
  obtain ⟨bytes, chunks, hwritten, hrest, rfl⟩ := hchunks
  obtain ⟨packed, hlength, hunpack, hnext⟩ := hwritten.nextMessage chunks.flatten
  refine ⟨packed, chunks.flatten, hlength, hunpack, ?_, hclient.client_eq, hclient.recvQueue,
    hclient.sendQueue, chunks, hrest, rfl⟩
  rw [hwire, List.flatten_cons, hnext]

theorem Represents.relay (h : wire.Represents s) (hs : s.Coherent) :
    Agree ((s.toRoom.relay C).map s.withRoom) (wire.relay C) := by
  rw [Room.relay, WireRoom.relay, h.playerId]
  cases hid : s.playerId C with
  | none => exact .none
  | some id =>
      cases hsent : (s.clients C).sent with
      | nil =>
          rw [h.nextMessage_nil hsent]
          exact .none
      | cons msg sent =>
          obtain ⟨packed, rest, hlength, hunpack, hnext, hclient⟩ := h.nextMessage_cons hsent
          rw [hnext]
          dsimp only
          by_cases hposts : s.posts C = []
          · rw [if_pos hposts, if_pos ((h.posts_nil_iff C).mpr hposts)]
            refine .some ⟨h.lobby, rfl, h.joined, forall_update h.posts ?_, h.inbox,
              forall_update h.clients hclient⟩
            rw [h.lobby, List.forall₂_map_left_iff, List.forall₂_map_right_iff, List.forall₂_same]
            have hsentAs := Net.sentAs_relayMessage (hs.playerId_lt hid) hlength hunpack
            exact fun player _ => ⟨rfl, hsentAs⟩
          · rw [if_neg hposts, if_neg fun hwire => hposts ((h.posts_nil_iff C).mp hwire)]
            exact .none

theorem Represents.update (h : wire.Represents s) (hfits : s.Fits) {games : List Game}
    (hgames : games.length < maxField) (tonumber : Bytes → Option Rat) (count : Nat)
    (buttons : Buttons) :
    Agree ((s.toRoom.update games C count buttons).map s.withRoom)
      (wire.update tonumber games C count buttons) := by
  have harrived : (s.arrived C count).Fits := (hfits.client C).receive fun frame hframe =>
    hfits.inbox C frame (List.mem_of_mem_take hframe)
  have hfitting (client' : Client)
      (hupdate : (s.clients C).update games ((s.inbox C).take count) buttons = .ok client') :
      ∀ msg ∈ client'.sendQueue, msg.Fits := fun msg hmsg =>
    ((Client.updated_of_eq hupdate).fits harrived hgames).out msg (List.mem_append_right _ hmsg)
  have hclient := (h.clients C).update tonumber ((h.inbox C).take count) hfitting
  rw [Room.update, WireRoom.update]
  generalize (s.clients C).update games _ buttons = typed,
    (wire.clients C).update tonumber games _ buttons = bytes at hclient
  cases typed with
  | error err =>
      cases bytes with
      | error err' => exact .none
      | ok wire' => cases hclient
  | ok client' =>
      cases bytes with
      | error err' => cases hclient
      | ok wire' =>
          exact .some ⟨h.lobby, h.playerId, h.joined, h.posts,
            forall_update h.inbox ((h.inbox C).drop count), forall_update h.clients hclient⟩

theorem Represents.post (h : wire.Represents s) :
    Agree ((s.toRoom.post C).map s.withRoom) (wire.post C) := by
  have hposts := h.posts C
  rw [Room.post, WireRoom.post]
  generalize hs : s.posts C = posts, hwire : wire.posts C = datas at hposts
  cases hposts with
  | nil => exact .none
  | @cons post data posts datas hfirst hrest =>
      obtain ⟨T, frame⟩ := post
      obtain ⟨T', data⟩ := data
      obtain ⟨rfl, hsent⟩ := hfirst
      refine .some ⟨h.lobby, h.playerId, h.joined, forall_update h.posts hrest, ?_, h.clients⟩
      refine forall_update h.inbox ((h.inbox T).append ?_)
      exact ⟨[data], .cons hsent .nil, rfl⟩

theorem Represents.step (h : wire.Represents s) (hs : s.Coherent) (hfits : s.Fits)
    {games : List Game} (hgames : games.length < maxField) (tonumber : Bytes → Option Rat)
    {e : OpenRoomEvent Sid}
    (hname : ∀ C playerName, e = .join C playerName → playerName.length < 256) :
    Agree (s.step games e) (wire.step tonumber games e) := by
  cases e with
  | join C playerName => exact h.join hs hfits (hname C playerName rfl)
  | leave C => exact h.leave hs hfits
  | relay C => exact h.relay hs
  | post C => exact h.post
  | update C count buttons => exact h.update hfits hgames tonumber count buttons

/-- **The wire.** Whatever happens in a room, with names that one byte can count and not too many
games, happens in the same way when messages and frames are bytes. -/
theorem represents_run {games : List Game} (hgames : games.length < maxField) {lobbyName : Bytes}
    (hlobby : lobbyName.length < 256) (colors : Sid → ShuffledColors)
    (tonumber : Bytes → Option Rat) {events : List (OpenRoomEvent Sid)}
    (hnames : ∀ C playerName, .join C playerName ∈ events → playerName.length < 256) :
    Option.Rel (fun s wire => wire.Represents s)
      ((openRoomSystem games lobbyName colors).run events)
      ((wireRoomSystem tonumber games lobbyName colors).run events) := by
  have hshort {e : OpenRoomEvent Sid} (he : e ∈ events) (C : Sid) (playerName : Bytes)
      (heq : e = .join C playerName) : playerName.length < 256 := hnames C playerName (heq ▸ he)
  refine TransitionSystem.rel_runFrom (I := fun s : OpenRoom Sid => s.Coherent ∧ s.Fits)
    ⟨OpenRoom.coherent_init lobbyName colors, OpenRoom.fits_init hlobby colors⟩
    (represents_init lobbyName colors) ?_ ?_
  · intro e he s s' hs hstep
    exact ⟨hs.1.step hstep, hs.2.step hs.1 hgames (hshort he) hstep⟩
  · intro e he s wire hs hwire
    exact hwire.step hs.1 hs.2 hgames tonumber (hshort he)

/-- The second of two players votes to watch, and its vote comes to the first one in bytes. -/
theorem represents_run_watch : ∃ (colors : Fin 2 → ShuffledColors) (wire : WireRoom (Fin 2))
    (events : List (OpenRoomEvent (Fin 2))),
    (wireRoomSystem (fun _ => none) [⟨1, 4⟩, ⟨1, 4⟩] [120] colors).run events = some wire ∧
      (wire.clients 0).client.history.voted = [1] := by
  let colors : Fin 2 → ShuffledColors := fun _ => ⟨List.range' 1 numPlayerColors, .refl _⟩
  let idle : Buttons := ⟨[], false, false⟩
  let events : List (OpenRoomEvent (Fin 2)) :=
    [.join 0 [97], .update 0 2 idle, .update 0 0 idle, .update 0 0 idle, .update 0 0 idle,
      .relay 0, .join 1 [98], .update 1 2 idle, .update 1 0 idle, .update 0 1 idle,
      .update 0 0 idle, .update 0 0 idle, .relay 0, .post 0, .update 1 1 idle,
      .update 1 0 ⟨[], true, false⟩, .update 1 0 idle, .relay 1, .post 1, .update 0 1 idle]
  have hrun : ((openRoomSystem [⟨1, 4⟩, ⟨1, 4⟩] [120] colors).run events).any (fun s =>
      decide ((s.clients 0).history.voted = [1])) = true := by
    decide +kernel
  obtain ⟨s, hs, hvoted⟩ := (Option.any_eq_true _ _).mp hrun
  have hnames : ∀ C playerName, .join C playerName ∈ events → playerName.length < 256 := by
    intro C playerName hmem
    simp only [events, List.mem_cons, List.not_mem_nil, or_false, OpenRoomEvent.join.injEq,
      reduceCtorEq, false_or] at hmem
    rcases hmem with ⟨-, rfl⟩ | ⟨-, rfl⟩ <;> decide
  have hgames : [(⟨1, 4⟩ : Game), ⟨1, 4⟩].length < maxField := by decide
  have hlobby : [(120 : UInt8)].length < 256 := by decide
  have hrel := represents_run hgames hlobby colors (fun _ => none) hnames
  rw [hs] at hrel
  cases hwire : (wireRoomSystem (fun _ => none) [⟨1, 4⟩, ⟨1, 4⟩] [120] colors).run events with
  | none =>
      rw [hwire] at hrel
      cases hrel
  | some wire =>
      rw [hwire] at hrel
      cases hrel with
      | some hwire' =>
          refine ⟨colors, wire, events, hwire, ?_⟩
          rw [(hwire'.clients 0).client_eq]
          exact of_decide_eq_true hvoted

end WireRoom

end ChatGames
