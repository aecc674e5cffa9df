import ChatGames.Proof.Refinement

/-!
# The clients converge

A table of the master that was sent before a vote arrived may undo the vote at a peer. The master
hears every vote and sends its table again, so that the peers agree with it once nothing is under
way.
-/

namespace ChatGames

open LeaderTable (valueAt)

variable {games : List Game} {buttons : Buttons}

namespace Client

variable {client client' : Client}

/-! ### What a client says -/

theorem forall_out_sendMessage {P : LobbyMessage → Prop} {msg : LobbyMessage}
    (h : ∀ msg ∈ client.out, P msg) (hmsg : P msg) : ∀ msg' ∈ (client.sendMessage msg).out,
      P msg' := by
  intro msg' hmem
  have hout : (client.sendMessage msg).out = client.out ++ [msg] := (List.append_assoc _ _ _).symm
  rw [hout, List.mem_append, List.mem_singleton] at hmem
  rcases hmem with hold | rfl
  · exact h msg' hold
  · exact hmsg

theorem forall_out_send {P : LobbyMessage → Prop} (h : ∀ msg ∈ client.out, P msg) :
    ∀ msg ∈ client.send.out, P msg := by
  have hout : client.send.out = client.out := List.append_nil _
  rwa [hout]

def Plain (client : Client) : Prop := ∀ msg ∈ client.out, msg ≠ .other

theorem Processed.plain {playerId : Nat} {msg : LobbyMessage}
    (hprocessed : Processed client playerId msg client') (h : client.Plain) : client'.Plain := by
  cases hprocessed with
  | voteAtMaster => exact forall_out_sendMessage h (by simp)
  | vote | table | tableAtMaster | other => exact h

theorem plain_of_finishTick (h : client.Plain)
    (hfinish : client.finishTick games buttons = .ok client') : client'.Plain := by
  refine finishTick_invariant hfinish h ?_ ?_ ?_ ?_
  · intro client client' h hcomplete
    rcases completePlayerData_eq_ok hcomplete with ⟨-, rfl⟩ | ⟨-, _, _, -, rfl | ⟨-, rfl⟩⟩
    · exact h
    · exact forall_out_sendMessage h (by simp)
    · exact h
  · exact fun _ _ _ h => h
  · intro client client' h hpress
    obtain ⟨_, _, _, -, -, ⟨-, rfl⟩ | ⟨-, rfl⟩⟩ := pressVote_eq_ok hpress <;>
      exact forall_out_sendMessage h (by simp)
  · exact fun _ h => h

theorem Updated.plain (h : client.Plain) (hupdated : Updated games buttons client client') :
    client'.Plain := by
  cases hupdated with
  | wait => exact forall_out_send h
  | enter | skip => exact h
  | message _ _ hprocessed => exact hprocessed.plain h
  | finish _ _ hfinish => exact plain_of_finishTick (forall_out_send h) hfinish

/-! ### The master's table -/

/-- Every listed player has an entry, or will have one at the end of the tick. -/
def Covered (client : Client) : Prop :=
  client.ticking = true ∨ (∃ players, .lobbyUpdated players ∈ client.net.events) ∨
    ∀ player ∈ client.net.players, (client.playerData.lookup player.id).isSome

theorem Covered.receive (h : client.Covered) (frames : List (Net.Frame LobbyMessage)) :
    (client.receive frames).Covered := by
  have hevents : (client.receive frames).net.events =
      client.net.events ++ frames.map Net.Frame.event := Net.Table.events_receive _ _
  rcases h with hticking | ⟨players, hupdated⟩ | hentries
  · exact Or.inl hticking
  · refine Or.inr (Or.inl ⟨players, ?_⟩)
    rw [hevents]
    exact List.mem_append_left _ hupdated
  · rcases Net.Table.players_receive client.net frames with hsame | hmem
    · refine Or.inr (Or.inr fun player hplayer => hentries player ?_)
      rwa [← hsame]
    · refine Or.inr (Or.inl ⟨(client.net.receive frames).players, ?_⟩)
      rw [hevents]
      exact List.mem_append_right _ (List.mem_map.mpr ⟨_, hmem, rfl⟩)

theorem isSome_lookup_insert {playerData : PlayerData} {id id' : Nat} (entry : PlayerEntry)
    (h : (playerData.lookup id').isSome) :
    ((playerData.insert id entry : PlayerData).lookup id').isSome := by
  by_cases hid : id' = id
  · subst hid
    rw [AList.lookup_insert]
    rfl
  · rwa [AList.lookup_insert_ne hid]

theorem covered_of_finishTick (hfinish : client.finishTick games buttons = .ok client')
    (hmaster : ∀ master, client.isMaster = .ok master → master = true) : client'.Covered := by
  obtain ⟨completed, startHidden, selectedGame, pressed, selectedGame', hcompleted, hpressed,
    rfl⟩ := finishTick_eq_ok hfinish
  have hentries : completed.net.players = client.net.players ∧
      ∀ player ∈ client.net.players, (completed.playerData.lookup player.id).isSome := by
    rcases completePlayerData_eq_ok hcompleted with
      ⟨hno, -⟩ | ⟨-, playerData, indices, hcovers, rfl | ⟨-, rfl⟩⟩
    · cases hmaster false hno
    · exact ⟨rfl, hcovers.covers⟩
    · exact ⟨rfl, hcovers.covers⟩
  refine Or.inr (Or.inr ?_)
  change ∀ player ∈ pressed.net.players, (pressed.playerData.lookup player.id).isSome
  rcases hpressed with rfl | hpressed
  · exact fun player hplayer => hentries.2 player (hentries.1 ▸ hplayer)
  · obtain ⟨_, _, _, -, -, ⟨-, rfl⟩ | ⟨-, rfl⟩⟩ := pressVote_eq_ok hpressed <;>
      exact fun player hplayer =>
        isSome_lookup_insert _ (hentries.2 player (hentries.1 ▸ hplayer))

theorem Updated.covered (h : client.Covered)
    (hmaster : ∀ master, client.isMaster = .ok master → master = true)
    (hupdated : Updated games buttons client client') : client'.Covered := by
  cases hupdated with
  | wait => exact h
  | enter _ hevents =>
      refine h.imp_right (Or.imp_left ?_)
      rintro ⟨players, hmem⟩
      rw [hevents] at hmem
      exact ⟨players, (List.mem_cons.mp hmem).resolve_left (by simp)⟩
  | skip => exact Or.inl rfl
  | message _ _ hprocessed =>
      left
      cases hprocessed <;> rfl
  | finish _ _ hfinish => exact covered_of_finishTick hfinish hmaster

end Client

namespace Room

variable {Sid : Type} [DecidableEq Sid] {s s' : Room Sid} {C : Sid}

/-! ### Runs -/

/-- The invariant of a run, with what is needed to refine the next step. -/
structure Replicated (s : Room Sid) : Prop where
  consistent : s.Consistent
  plain : s.Carries (· ≠ .other)
  inv : LeaderTable.Inv 0 s.replicas
  covered : ∀ C, s.playerId C = some 0 → (s.clients C).Covered

theorem replicated_init (lobbyName : Bytes) (colors : Sid → ShuffledColors) :
    (init lobbyName colors).Replicated where
  consistent := consistent_init lobbyName colors
  plain := carries_init lobbyName colors
  inv := LeaderTable.inv_init 0
  covered C h := by cases h

theorem Carries.updated (h : s.Carries (· ≠ .other)) {client' : Client}
    (hupdated : Client.Updated games buttons (s.clients C) client') :
    (s.setClient C client').Carries (· ≠ .other) := by
  obtain ⟨events, hevents, hnet⟩ := hupdated.net_eq
  have hsuffix : client'.net.events <:+ (s.clients C).net.events := by
    rw [hnet]
    exact hevents
  exact h.setClient hsuffix (hupdated.plain (h.out C))

theorem Carries.step {e : RoomEvent Sid} (h : s.Carries (· ≠ .other)) (hs : s.Consistent)
    (hstep : s.step games e = some s') : s'.Carries (· ≠ .other) := by
  cases e with
  | join C playerName => exact h.join hs hstep
  | relay C => exact h.relay hstep
  | post C => exact h.post hstep
  | update C count buttons =>
      obtain ⟨client', hupdated, rfl⟩ := update_eq_some hstep
      exact (h.deliver C count).updated hupdated

theorem Replicated.covered_step {e : RoomEvent Sid} (h : s.Replicated)
    (hstep : s.step games e = some s') (D : Sid) (hD : s'.playerId D = some 0) :
    (s'.clients D).Covered := by
  cases e with
  | join C playerName =>
      obtain ⟨hnew, id, lobby, -, rfl⟩ := join_eq_some h.consistent.valid hstep
      by_cases hDC : D = C
      · subst hDC
        obtain ⟨-, -, indices, hinit⟩ := h.consistent.outsider D hnew
        refine Or.inr (Or.inr ?_)
        change ∀ player ∈ (s.clients D).net.players, _
        rw [hinit]
        intro player hplayer
        cases hplayer
      · apply h.covered D
        exact (Function.update_of_ne hDC _ _).symm.trans hD
  | relay C =>
      obtain ⟨id, msg, sent, -, -, -, rfl⟩ := relay_eq_some hstep
      have hcovered := h.covered D hD
      by_cases hDC : D = C
      · subst hDC
        change ((s.setClient D _).clients D).Covered
        rw [clients_setClient_self]
        exact hcovered
      · change ((s.setClient C _).clients D).Covered
        rwa [clients_setClient_of_ne _ hDC]
  | post C =>
      obtain ⟨T, frame, posts, -, rfl⟩ := post_eq_some hstep
      exact h.covered D hD
  | update C count buttons =>
      cases hC : s.playerId C with
      | none =>
          obtain rfl := h.consistent.update_outsider hC hstep
          exact h.covered D hD
      | some id =>
          obtain ⟨client', hupdated, rfl⟩ := update_eq_some hstep
          have hconsistent := h.consistent.deliver (C := C) (by simp [hC]) count
          by_cases hDC : D = C
          · subst hDC
            rw [clients_setClient_self]
            refine hupdated.covered ?_ ?_
            · have hcovered := (h.covered D hD).receive ((s.inbox D).take count)
              rwa [deliver, clients_setClient_self]
            · intro master hmaster
              obtain ⟨id', hid', -, hiff, -⟩ := hconsistent.isMaster_eq hmaster
              exact hiff.mpr (Option.some.inj (hid'.symm.trans hD))
          · rw [clients_setClient_of_ne _ hDC]
            change ((s.setClient C _).clients D).Covered
            rw [clients_setClient_of_ne _ hDC]
            exact h.covered D hD

theorem Replicated.step {e : RoomEvent Sid} (h : s.Replicated)
    (hstep : s.step games e = some s') : s'.Replicated where
  consistent := h.consistent.step hstep
  plain := h.plain.step h.consistent hstep
  inv := h.inv.steps (refines h.consistent h.plain h.inv hstep)
  covered := h.covered_step hstep

theorem replicated {lobbyName : Bytes} {colors : Sid → ShuffledColors}
    (h : (roomSystem games lobbyName colors).Reachable s) : s.Replicated :=
  h.invariant Replicated (replicated_init lobbyName colors) fun _ _ _ hs hstep => hs.step hstep

/-! ### Quiet rooms -/

theorem Quiet.path_eq_nil (h : s.Quiet) (C D : Sid) : s.replicas.path C D = [] := by
  cases hC : s.playerId C with
  | none => exact replicas_path_of_none hC D
  | some id =>
      rw [replicas_path hC, path, coming, stream, h.events, h.inbox, h.posts, Client.out, h.sent,
        h.sendQueue]
      rfl

theorem Replicated.players_eq (h : s.Replicated) (hquiet : s.Quiet) (hC : s.playerId C ≠ none) :
    (s.clients C).net.players = Net.listing s.lobby.players := by
  have hlatest := h.consistent.latest C hC
  rwa [hquiet.inbox] at hlatest

/-- The master has an entry for everybody. -/
theorem Replicated.entry_of_quiet (h : s.Replicated) (hquiet : s.Quiet) {m : Sid} {k : Nat}
    (hlead : s.playerId m = some 0) (hC : s.playerId C = some k) :
    s.replicas.view m k ≠ none := by
  obtain ⟨player, hplayer, rfl, -⟩ := (h.consistent.member C k).mp hC
  have hlisted : (⟨player.id, player.name⟩ : Net.NetPlayer) ∈ (s.clients m).net.players := by
    rw [h.players_eq hquiet (by simp [hlead])]
    exact List.mem_map.mpr ⟨player, hplayer, rfl⟩
  have hentries : ∀ player ∈ (s.clients m).net.players,
      ((s.clients m).playerData.lookup player.id).isSome := by
    rcases h.covered m hlead with hticking | ⟨players, hupdated⟩ | hentries
    · rw [hquiet.ticking] at hticking
      cases hticking
    · rw [hquiet.events] at hupdated
      cases hupdated
    · exact hentries
  intro hnone
  have hsome := hentries _ hlisted
  rw [view_eq_none_iff.mp hnone] at hsome
  cases hsome

/-- **Convergence.** Once everything that was sent has arrived and been ticked over, all clients
know all players and agree on their entries, and the vote in an entry is the last one its player
clicked. -/
theorem converge {lobbyName : Bytes} {colors : Sid → ShuffledColors}
    (h : (roomSystem games lobbyName colors).Reachable s) (hquiet : s.Quiet) :
    (∀ C, s.playerId C ≠ none → (s.clients C).net.players = Net.listing s.lobby.players) ∧
      ∀ player ∈ s.lobby.players, ∃ color, ∀ C, s.playerId C ≠ none →
        (s.clients C).playerData.lookup player.id =
          some ⟨color, (s.clients player.connection).history.clicked⟩ := by
  have hs := replicated h
  refine ⟨fun C hC => hs.players_eq hquiet hC, fun player hplayer => ?_⟩
  obtain ⟨first, hmaster, hfirst⟩ :=
    List.mem_map.mp (hs.consistent.first (List.ne_nil_of_mem hplayer))
  have hlead : s.playerId first.connection = some 0 :=
    hfirst ▸ hs.consistent.playerId_connection hmaster
  have hentry {k : Nat} {C : Sid} (hC : s.playerId C = some k) :
      s.replicas.view first.connection k ≠ none :=
    hs.entry_of_quiet hquiet hlead hC
  have hsame {k l : Nat} {C D : Sid} (hC : s.playerId C = some k) (hD : s.playerId D = some l) :
      s.replicas.view D k = s.replicas.view first.connection k ∧
        valueAt (s.replicas.view first.connection) k = s.replicas.said C :=
    hs.inv.agree hlead (fun C D _ _ _ => hquiet.path_eq_nil C D) hC hD (hentry hD)
  have hplayerId := hs.consistent.playerId_connection hplayer
  obtain ⟨entry, hentry⟩ := Option.ne_none_iff_exists'.mp (hentry hplayerId)
  refine ⟨entry.assigned, fun C hC => ?_⟩
  obtain ⟨id, hid⟩ := Option.ne_none_iff_exists'.mp hC
  obtain ⟨hview, hvalue⟩ := hsame hplayerId hid
  rw [valueAt, hentry] at hvalue
  rw [hentry] at hview
  obtain ⟨copy, hcopy, rfl⟩ := Option.map_eq_some_iff.mp hview
  change copy.vote = (s.clients player.connection).history.clicked at hvalue
  rw [hcopy, ← hvalue]

/-- The second of two players clicks, with nothing selected. -/
theorem converge_watch :
    ∃ (colors : Fin 2 → ShuffledColors) (s : Room (Fin 2)) (color : Option Nat),
    (roomSystem [⟨1, 4⟩, ⟨1, 4⟩] [120] colors).Reachable s ∧ s.Quiet ∧
      ∀ C, s.playerId C ≠ none ∧ (s.clients C).playerData.lookup 1 = some ⟨color, some 0⟩ := by
  let colors : Fin 2 → ShuffledColors := fun _ => ⟨List.range' 1 numPlayerColors, .refl _⟩
  let idle : Buttons := ⟨[], false, false⟩
  have hrun : ((roomSystem [⟨1, 4⟩, ⟨1, 4⟩] [120] colors).run
      [.join 0 [97], .update 0 2 idle, .update 0 0 idle, .update 0 0 idle, .update 0 0 idle,
        .relay 0, .join 1 [98], .update 1 2 idle, .update 1 0 idle, .update 0 1 idle,
        .update 0 0 idle, .update 0 0 idle, .relay 0, .post 0, .update 1 1 idle,
        .update 1 0 ⟨[], true, false⟩, .update 1 0 idle, .relay 1, .post 1, .update 0 1 idle,
        .update 0 0 idle, .relay 0, .post 0, .update 1 1 idle, .update 1 0 idle]).any (fun s =>
      decide ((∀ C, s.inbox C = [] ∧ s.posts C = [] ∧ (s.clients C).net.events = [] ∧
          (s.clients C).sent = [] ∧ (s.clients C).sendQueue = [] ∧
          (s.clients C).ticking = false ∧ s.playerId C ≠ none) ∧
        ⟨1, 1, [98]⟩ ∈ s.lobby.players ∧ (s.clients 1).history.clicked = some 0)) = true := by
    decide +kernel
  obtain ⟨s, hs, hstate⟩ := (Option.any_eq_true _ _).mp hrun
  obtain ⟨hclients, hplayer, hclicked⟩ := of_decide_eq_true hstate
  have hquiet : s.Quiet := ⟨fun C => (hclients C).1, fun C => (hclients C).2.1,
    fun C => (hclients C).2.2.1, fun C => (hclients C).2.2.2.1, fun C => (hclients C).2.2.2.2.1,
    fun C => (hclients C).2.2.2.2.2.1⟩
  have hmember (C : Fin 2) : s.playerId C ≠ none := (hclients C).2.2.2.2.2.2
  have hreachable := TransitionSystem.reachable_of_run hs
  obtain ⟨color, hcolor⟩ := (converge hreachable hquiet).2 _ hplayer
  refine ⟨colors, s, color, hreachable, hquiet, fun C => ⟨hmember C, ?_⟩⟩
  rw [hcolor C (hmember C), hclicked]

end Room

end ChatGames
