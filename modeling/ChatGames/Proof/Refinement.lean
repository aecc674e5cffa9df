import ChatGames.Proof.Replicas

/-!
# A room refines its replicas

Every step of a room is some steps of the replicated table, or none. The master's `addPlayerData`
extends the leader's copy, a vote is a value that is heard, an `updatePlayerData` a table that is
taken over.
-/

namespace ChatGames.Room

open LeaderTable (setValue valueAt)
open Relation (ReflTransGen)

variable {Sid : Type} [DecidableEq Sid] {s s' : Room Sid} {C : Sid}

/-! ### What the messages say -/

/-- Every message that is anywhere on its way has the property. -/
structure Carries (P : LobbyMessage → Prop) (s : Room Sid) : Prop where
  out : ∀ C, ∀ msg ∈ (s.clients C).out, P msg
  posts : ∀ C T id msg, (T, .relayMessage id msg) ∈ s.posts C → P msg
  stream : ∀ D id msg, .message id msg ∈ s.stream D → P msg

section Carries

variable {P : LobbyMessage → Prop}

omit [DecidableEq Sid] in
theorem carries_init (lobbyName : Bytes) (colors : Sid → ShuffledColors) :
    (init lobbyName colors).Carries P where
  out C msg h := by cases h
  posts C T id msg h := by cases h
  stream D id msg h := by cases h

theorem Carries.join {playerName : Bytes} (h : s.Carries P) (hs : s.Consistent)
    (hjoin : s.join C playerName = some s') : s'.Carries P := by
  obtain ⟨-, id, lobby, -, rfl⟩ := join_eq_some hs.valid hjoin
  refine ⟨h.out, h.posts, fun D id' msg hmsg => ?_⟩
  apply h.stream D id' msg
  rw [Room.stream, List.map_append, ← List.append_assoc, List.mem_append] at hmsg
  refine hmsg.resolve_right fun hwelcome => ?_
  obtain ⟨frame, hframe, hevent⟩ := List.mem_map.mp hwelcome
  rcases mem_welcome hframe with ⟨-, rfl⟩ | ⟨-, rfl⟩ <;> cases hevent

theorem Carries.setClient (h : s.Carries P) {client : Client}
    (hevents : client.net.events <:+ (s.clients C).net.events) (hout : ∀ msg ∈ client.out, P msg) :
    (s.setClient C client).Carries P := by
  refine ⟨?_, h.posts, ?_⟩
  · intro D msg hmsg
    rw [out_setClient] at hmsg
    split at hmsg
    · exact hout msg hmsg
    · exact h.out D msg hmsg
  · intro D id msg hmsg
    apply h.stream D id msg
    rw [stream_setClient] at hmsg
    split at hmsg
    · subst D
      exact List.mem_append.mpr ((List.mem_append.mp hmsg).imp_left fun hmem =>
        hevents.subset hmem)
    · exact hmsg

theorem Carries.deliver (h : s.Carries P) (C : Sid) (count : Nat) :
    (s.deliver C count).Carries P := by
  refine ⟨?_, h.posts, ?_⟩
  · intro D msg hmsg
    have hout := out_setClient (s := s) (C := C) ((s.clients C).receive ((s.inbox C).take count)) D
    change msg ∈ ((s.setClient C _).clients D).out at hmsg
    rw [hout] at hmsg
    split at hmsg
    · exact h.out C msg hmsg
    · exact h.out D msg hmsg
  · intro D id msg hmsg
    rw [stream_deliver] at hmsg
    exact h.stream D id msg hmsg

theorem Carries.relay (h : s.Carries P) (hrelay : s.relay C = some s') : s'.Carries P := by
  obtain ⟨id, msg, sent, -, hsent, -, rfl⟩ := relay_eq_some hrelay
  have hclient : (s.setClient C { s.clients C with sent := sent }).Carries P := by
    have hevents : ({ s.clients C with sent := sent } : Client).net.events <:+
        (s.clients C).net.events := List.suffix_rfl
    apply h.setClient hevents
    intro msg' hmsg'
    apply h.out C msg'
    rw [Client.out_of_sent hsent]
    exact List.mem_cons_of_mem _ hmsg'
  refine ⟨hclient.out, ?_, hclient.stream⟩
  intro D T id' msg' hframe
  rcases mem_update hframe with ⟨rfl, hnew⟩ | hold
  · obtain ⟨player, -, heq⟩ := List.mem_map.mp hnew
    cases heq
    apply h.out D msg
    rw [Client.out_of_sent hsent]
    exact List.mem_cons_self
  · exact h.posts D T id' msg' hold

theorem Carries.post (h : s.Carries P) (hpost : s.post C = some s') : s'.Carries P := by
  obtain ⟨T, frame, posts, hposts, rfl⟩ := post_eq_some hpost
  refine ⟨h.out, ?_, ?_⟩
  · intro D T' id msg hframe
    rcases mem_update hframe with ⟨rfl, hrest⟩ | hold
    · exact h.posts D T' id msg (hposts ▸ List.mem_cons_of_mem _ hrest)
    · exact h.posts D T' id msg hold
  · intro D id msg hmsg
    rcases List.mem_append.mp hmsg with hevent | hframe
    · exact h.stream D id msg (List.mem_append_left _ hevent)
    · have hinbox (other : Net.Frame LobbyMessage) (hother : other ∈ s.inbox D)
          (hevent : other.event = .message id msg) : P msg :=
        h.stream D id msg (List.mem_append_right _ (List.mem_map.mpr ⟨other, hother, hevent⟩))
      obtain ⟨other, hother, hevent⟩ := List.mem_map.mp hframe
      rcases mem_update hother with ⟨rfl, hmem⟩ | hold
      · rcases List.mem_append.mp hmem with hold | hnew
        · exact hinbox other hold hevent
        · obtain rfl := List.mem_singleton.mp hnew
          cases other with
          | lobbyJoined | updateLobby => cases hevent
          | relayMessage id' msg' =>
              cases hevent
              exact h.posts C D id msg (by simp [hposts])
      · exact hinbox other hold hevent

end Carries

/-! ### Refinement -/

section Refinement

variable {client client' : Client} {games : List Game} {buttons : Buttons}

theorem replicas_sendPlayerData (hC : s.playerId C ≠ none) (client : Client) :
    (s.setClient C client.sendPlayerData).replicas =
      (s.setClient C client).replicas.announce C := by
  have hmsg : (LobbyMessage.updatePlayerData client.playerData.rows).toMsg =
      some (.table client.playerData.view) := by
    rw [LobbyMessage.toMsg, view_ofRows_rows]
  rw [Client.sendPlayerData, replicas_send hC hmsg, LeaderTable.State.announce,
    view_replicas_setClient]

/-- Nobody but the master sends tables. -/
theorem not_table_at_master (h : s.Consistent) (hinv : LeaderTable.Inv 0 s.replicas) {D : Sid}
    (hne : D ≠ C) (hlead : s.playerId C = some 0) {table : LeaderTable.Table Nat Nat Nat}
    {rest : List (LeaderTable.Msg Nat Nat Nat)} : s.replicas.path D C ≠ .table table :: rest := by
  intro hpath
  have hmute := hinv.table_lead D C fun hzero => hne (h.playerId_inj hzero hlead)
  rw [hpath] at hmute
  cases hmute

theorem refines_message (h : s.Consistent) (hinv : LeaderTable.Inv 0 s.replicas)
    {playerId : Nat} {msg : LobbyMessage} (hplain : msg ≠ .other)
    (hpopped : (s.clients C).Popped (.message playerId msg) client)
    (hclient : (s.setClient C client).Consistent)
    (hprocessed : Client.Processed client playerId msg client') :
    LeaderTable.Step 0 s.replicas (s.setClient C client').replicas := by
  obtain ⟨D, m, rest, hne, hD, hm, hpath, hadvance⟩ := exists_replicas_popped h hplain hpopped
  have hview : s.replicas.view C = client.playerData.view :=
    congrArg PlayerData.view hpopped.playerData.symm
  have hmaster {master : Bool} (hmaster : client.isMaster = .ok master) :
      ∃ id, s.playerId C = some id ∧ (master = true ↔ id = 0) := by
    rw [← clients_setClient_self (s := s) (C := C) client] at hmaster
    obtain ⟨id, hid, -, hiff, -⟩ := hclient.isMaster_eq hmaster
    exact ⟨id, hid, hiff⟩
  have hvoted (vote : Option Nat) :
      (s.setClient C ((client.setVote playerId vote).addVoted playerId)).replicas =
        (s.replicas.advance D C rest).setView C (setValue (s.replicas.view C) playerId vote) := by
    have hwrite : (s.setClient C ((client.setVote playerId vote).addVoted playerId)).replicas =
        (s.setClient C client).replicas.setView C (client.setVote playerId vote).playerData.view :=
      replicas_setView rfl rfl rfl
    rw [hwrite, hadvance, hview, view_setVote]
  cases hprocessed with
  | @vote vote hno =>
      obtain ⟨id, hid, hiff⟩ := hmaster hno
      cases hm
      rw [hvoted]
      exact .hear hD hid hne (fun hzero => by cases hiff.mpr hzero) hpath
  | @voteAtMaster vote hyes =>
      obtain ⟨id, hid, hiff⟩ := hmaster hyes
      cases hm
      rw [replicas_sendPlayerData (by simp [hid]), hvoted]
      exact .hearAtLeader hD (hiff.mp rfl ▸ hid) hne hpath
  | @table data hno =>
      obtain ⟨id, hid, hiff⟩ := hmaster hno
      cases hm
      have hwrite : (s.setClient C (client.replacePlayerData data)).replicas =
          (s.setClient C client).replicas.setView C (PlayerData.ofRows data).view :=
        replicas_setView rfl rfl rfl
      rw [hwrite, hadvance]
      exact .take hid (fun hzero => by cases hiff.mpr hzero) hpath
  | @tableAtMaster data hyes =>
      obtain ⟨id, hid, hiff⟩ := hmaster hyes
      cases hm
      exact absurd hpath (not_table_at_master h hinv hne (hiff.mp rfl ▸ hid))
  | other => exact absurd rfl hplain

/-- What a client hands to its socket is still to be read by the server. -/
theorem replicas_flush (s : Room Sid) (C : Sid) :
    (s.setClient C (s.clients C).send).replicas = s.replicas := by
  have hout : (s.clients C).send.out = (s.clients C).out := List.append_nil _
  have hsame : (s.setClient C (s.clients C).send).replicas =
      (s.setClient C (s.clients C)).replicas := replicas_same rfl hout rfl rfl
  rw [hsame, setClient_eq_self]

/-- The master that completes its table extends the leader's copy. -/
theorem refines_completePlayerData (h : (s.setClient C client).Consistent)
    (hcomplete : client.completePlayerData = .ok client') :
    ReflTransGen (LeaderTable.Step 0) (s.setClient C client).replicas
      (s.setClient C client').replicas := by
  rcases Client.completePlayerData_eq_ok hcomplete with
    ⟨-, rfl⟩ | ⟨hmaster, playerData, indices, hcompleted, hclient'⟩
  · exact .refl
  · rw [← clients_setClient_self (s := s) (C := C) client] at hmaster
    obtain ⟨id, hid, -, hiff, hlists⟩ := h.isMaster_eq hmaster
    obtain rfl := hiff.mp rfl
    rw [clients_setClient_self] at hlists
    have hwrite : (s.setClient C (client.withPlayerData playerData indices)).replicas =
        (s.setClient C client).replicas.setView C playerData.view := replicas_setView rfl rfl rfl
    rcases hclient' with rfl | ⟨hsame, rfl⟩
    · have hmember : s.playerId C ≠ none := by
        change s.playerId C = some 0 at hid
        simp [hid]
      rw [replicas_sendPlayerData hmember, hwrite]
      apply ReflTransGen.single
      apply LeaderTable.Step.extend hid
      · intro k hk
        rw [view_replicas_setClient] at hk ⊢
        obtain ⟨entry, hentry⟩ := Option.ne_none_iff_exists'.mp fun hnone =>
          hk (view_eq_none_iff.mpr hnone)
        rw [PlayerData.view, hcompleted.kept k entry hentry, PlayerData.view, hentry]
      · intro k hk hnone
        rw [view_replicas_setClient, view_eq_none_iff] at hnone
        obtain ⟨entry, hentry⟩ := Option.ne_none_iff_exists'.mp fun hnone =>
          hk (view_eq_none_iff.mpr hnone)
        obtain ⟨⟨player, hplayer, rfl⟩, color, -, rfl⟩ := hcompleted.fresh k entry hentry hnone
        refine ⟨?_, hlists.members player hplayer⟩
        rw [valueAt, PlayerData.view, hentry]
        rfl
    · have hnone : (s.setClient C (client.withPlayerData playerData indices)).replicas =
          (s.setClient C client).replicas := replicas_same rfl rfl rfl hsame
      rw [hnone]

theorem refines_pressVote (h : (s.setClient C client).Consistent)
    (hpress : client.pressVote = .ok client') :
    LeaderTable.Step 0 (s.setClient C client).replicas (s.setClient C client').replicas := by
  obtain ⟨playerId, entry, vote, hplayer, hentry, hclient'⟩ := Client.pressVote_eq_ok hpress
  have hmaster {master : Bool} (hmaster : client.isMaster = .ok master) :
      s.playerId C = some playerId ∧ (master = true ↔ playerId = 0) := by
    rw [← clients_setClient_self (s := s) (C := C) client] at hmaster
    obtain ⟨id, hid, hown, hiff, -⟩ := h.isMaster_eq hmaster
    rw [clients_setClient_self, hplayer] at hown
    obtain rfl := Option.some.inj hown
    exact ⟨hid, hiff⟩
  have hclick : (s.setClient C (client.click playerId vote)).replicas =
      ((s.setClient C client).replicas.setView C
        (setValue ((s.setClient C client).replicas.view C) playerId (some vote))).setSaid C
          (some vote) := by
    have hwrite : (s.setClient C (client.click playerId vote)).replicas =
        ((s.setClient C client).replicas.setView C
          (client.setVote playerId (some vote)).playerData.view).setSaid C (some vote) :=
      replicas_write rfl rfl
    rw [hwrite, view_setVote, view_replicas_setClient]
  have hown : (s.setClient C client).replicas.view C playerId ≠ none := by
    rw [view_replicas_setClient, ne_eq, view_eq_none_iff, hentry]
    exact Option.some_ne_none _
  rcases hclient' with ⟨hyes, rfl⟩ | ⟨hno, rfl⟩
  · obtain ⟨hid, hiff⟩ := hmaster hyes
    obtain rfl := hiff.mp rfl
    rw [replicas_sendPlayerData (by simp [hid]), hclick]
    exact .sayAtLeader hid hown
  · obtain ⟨hid, hiff⟩ := hmaster hno
    rw [Client.sendVote, replicas_send (by simp [hid]) rfl, hclick]
    exact .say hid (fun hzero => by cases hiff.mpr hzero) hown

theorem refines_finishTick (h : s.Consistent) (hmember : s.playerId C ≠ none)
    (hfinish : (s.clients C).send.finishTick games buttons = .ok client') :
    ReflTransGen (LeaderTable.Step 0) s.replicas (s.setClient C client').replicas := by
  have hconsistent {client : Client} (hnet : client.net = (s.clients C).net) :
      (s.setClient C client).Consistent := h.setClient hmember List.suffix_rfl hnet
  refine (Client.finishTick_invariant (P := fun client => client.net = (s.clients C).net ∧
    ReflTransGen (LeaderTable.Step 0) s.replicas (s.setClient C client).replicas) hfinish
    ?_ ?_ ?_ ?_ ?_).2
  · rw [replicas_flush]
    exact ⟨rfl, .refl⟩
  · rintro client client' ⟨hnet, hsteps⟩ hcomplete
    exact ⟨(Client.net_of_completePlayerData hcomplete).trans hnet,
      hsteps.trans (refines_completePlayerData (hconsistent hnet) hcomplete)⟩
  · rintro client startHidden selectedGame ⟨hnet, hsteps⟩
    have hsame : (s.setClient C (client.withButtons startHidden selectedGame)).replicas =
        (s.setClient C client).replicas := replicas_same rfl rfl rfl rfl
    exact ⟨hnet, hsame ▸ hsteps⟩
  · rintro client client' ⟨hnet, hsteps⟩ hpress
    exact ⟨(Client.net_of_pressVote hpress).trans hnet,
      hsteps.tail (refines_pressVote (hconsistent hnet) hpress)⟩
  · rintro client ⟨hnet, hsteps⟩
    have hsame : (s.setClient C { client with ticking := false }).replicas =
        (s.setClient C client).replicas := replicas_same rfl rfl rfl rfl
    exact ⟨hnet, hsame ▸ hsteps⟩

theorem refines_updated (h : s.Consistent) (hplain : s.Carries (· ≠ .other))
    (hinv : LeaderTable.Inv 0 s.replicas) (hmember : s.playerId C ≠ none)
    (hupdated : Client.Updated games buttons (s.clients C) client') :
    ReflTransGen (LeaderTable.Step 0) s.replicas (s.setClient C client').replicas := by
  cases hupdated with
  | wait => rw [replicas_flush]
  | @enter lobbyId playerId events _ hevents =>
      have hpopped : (s.clients C).Popped (.lobbyJoined lobbyId playerId)
          { (s.clients C).popEvent events with
            scene := .lobby
            selectedGame := none } := ⟨hevents, rfl, rfl, rfl⟩
      rw [replicas_skip hpopped fun _ _ heq => by cases heq]
  | @skip event events _ hevents hother =>
      have hpopped : (s.clients C).Popped event ((s.clients C).popEvent events).goOn :=
        ⟨hevents, rfl, rfl, rfl⟩
      rw [replicas_skip hpopped hother]
  | @message playerId msg events _ _ hevents hprocessed =>
      have hplain' : msg ≠ .other := by
        apply hplain.stream C playerId msg
        rw [stream, hevents]
        exact List.mem_cons_self
      have hpopped : (s.clients C).Popped (.message playerId msg)
          ((s.clients C).popEvent events).goOn := ⟨hevents, rfl, rfl, rfl⟩
      have hclient : (s.setClient C ((s.clients C).popEvent events).goOn).Consistent := by
        have hsuffix : events <:+ (s.clients C).net.events := hevents ▸ List.suffix_cons _ _
        refine h.setClient hmember hsuffix ?_
        rfl
      exact .single (refines_message h hinv hplain' hpopped hclient hprocessed)
  | finish _ _ hfinish => exact refines_finishTick h hmember hfinish

theorem refines {e : RoomEvent Sid} (h : s.Consistent) (hplain : s.Carries (· ≠ .other))
    (hinv : LeaderTable.Inv 0 s.replicas) (hstep : s.step games e = some s') :
    ReflTransGen (LeaderTable.Step 0) s.replicas s'.replicas := by
  cases e with
  | join C playerName =>
      obtain ⟨id, hnew, hfree, hfirst, hs'⟩ := replicas_join h hstep
      rw [hs']
      exact .single (.join hnew hfree hfirst)
  | relay C =>
      rw [replicas_relay h (hplain.out C) hstep]
      exact .single .relay
  | post C => rw [replicas_post h hstep]
  | update C count buttons =>
      cases hC : s.playerId C with
      | none => rw [h.update_outsider hC hstep]
      | some id =>
          have hmember : s.playerId C ≠ none := by simp [hC]
          obtain ⟨client', hupdated, rfl⟩ := update_eq_some hstep
          rw [← replicas_deliver s C count] at hinv ⊢
          exact refines_updated (h.deliver hmember count) (hplain.deliver C count) hinv hmember
            hupdated

end Refinement

end ChatGames.Room
