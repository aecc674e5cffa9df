import ChatGames.Proof.Convergence

/-!
# Whether player records are complete when they are used

Every color is assigned by the master and comes to the other clients in its tables. Until the first
table lists a player, a vote of that player makes an entry without a color, and its own client has
no entry for it at all.
-/

namespace ChatGames

/-- An index of `playerColors`. -/
def IsPlayerColor (color : Option Nat) : Prop :=
  ∃ index ∈ List.range' 1 numPlayerColors, color = some index

/-- What the clients send: votes are for something, and a table has a color for everybody. -/
def LobbyMessage.Complete : LobbyMessage → Prop
  | .vote value => value ≠ none
  | .updatePlayerData data => ∀ row ∈ data, IsPlayerColor row.color
  | .other => False

def PlayerData.Colored (playerData : PlayerData) : Prop :=
  ∀ id entry, playerData.lookup id = some entry → IsPlayerColor entry.color

namespace Client

/-- The entries of the listed players and those with a vote have a color to draw. -/
def Drawable (client : Client) : Prop :=
  ∀ id entry, client.playerData.lookup id = some entry →
    ((∃ player ∈ client.net.players, player.id = id) ∨ entry.vote ≠ none) →
      IsPlayerColor entry.color

/-- The entry that the vote button writes to is there. -/
def HasOwnEntry (client : Client) : Prop :=
  ∃ id entry, client.net.playerId = some id ∧ client.playerData.lookup id = some entry

theorem Drawable.drawnColors {client : Client} (h : client.Drawable) (games : List Game) :
    ∀ color ∈ client.drawnColors games, IsPlayerColor color := by
  intro color hcolor
  rcases List.mem_append.mp hcolor with hlisted | hvoted
  · obtain ⟨player, hplayer, hcolor⟩ := List.mem_filterMap.mp hlisted
    obtain ⟨entry, hentry, rfl⟩ := Option.map_eq_some_iff.mp hcolor
    exact h player.id entry hentry (Or.inl ⟨player, hplayer, rfl⟩)
  · obtain ⟨gameIndex, -, hvotes⟩ := List.mem_flatMap.mp hvoted
    obtain ⟨playerId, hvoter, rfl⟩ := List.mem_map.mp hvotes
    obtain ⟨entry, hentry, rfl⟩ := List.mem_map.mp hvoter
    obtain ⟨hmem, hvote⟩ := List.mem_filter.mp hentry
    have hlookup : client.playerData.lookup entry.1 = some entry.2 := AList.mem_lookup_iff.mpr hmem
    rw [PlayerData.entry, hlookup]
    apply h entry.1 entry.2 hlookup
    right
    rw [of_decide_eq_true hvote]
    exact Option.some_ne_none gameIndex

/-- A follower's table: the players on the last table it took over have a color, and those that
have voted since have a vote. -/
structure Tracks (own : Nat) (playerData : PlayerData) (history : History) : Prop where
  listed : ∀ id ∈ history.listed, ∃ entry, playerData.lookup id = some entry ∧
    IsPlayerColor entry.color
  voted : ∀ id ∈ history.voted, id ∉ history.listed →
    ∃ vote, playerData.lookup id = some ⟨none, some vote⟩
  others : ∀ id, id ∉ history.listed → id ∉ history.voted → playerData.lookup id = none
  own : own ∉ history.voted

structure Recorded (own : Nat) (client : Client) : Prop where
  out : ∀ msg ∈ client.out, msg.Complete
  indices : client.playerColorIndices ⊆ List.range' 1 numPlayerColors
  master : own = 0 → client.playerData.Colored
  follower : own ≠ 0 → Tracks own client.playerData client.history

variable {client client' : Client} {own : Nat} {games : List Game} {buttons : Buttons}

section Tracks

variable (h : Tracks own client.playerData client.history)

include h

theorem Tracks.own_iff : (∃ entry, client.playerData.lookup own = some entry) ↔
    own ∈ client.history.listed := by
  constructor
  · rintro ⟨entry, hentry⟩
    by_contra hunlisted
    rw [h.others own hunlisted h.own] at hentry
    cases hentry
  · intro hlisted
    obtain ⟨entry, hentry, -⟩ := h.listed own hlisted
    exact ⟨entry, hentry⟩

theorem Tracks.drawable_iff :
    client.Drawable ↔ ∀ id ∈ client.history.voted, id ∈ client.history.listed := by
  constructor
  · intro hdrawable id hvoted
    by_contra hunlisted
    obtain ⟨vote, hentry⟩ := h.voted id hvoted hunlisted
    obtain ⟨index, -, hcolor⟩ := hdrawable id _ hentry (Or.inr (by simp))
    cases hcolor
  · intro hvoted id entry hentry _
    by_cases hlisted : id ∈ client.history.listed
    · obtain ⟨entry', hentry', hcolor⟩ := h.listed id hlisted
      rw [hentry] at hentry'
      exact Option.some.inj hentry' ▸ hcolor
    · rw [h.others id hlisted fun hmem => hlisted (hvoted id hmem)] at hentry
      cases hentry

end Tracks

/-! ### Votes and tables -/

theorem colored_setVote {playerId : Nat} {vote : Option Nat} (h : client.playerData.Colored)
    (hknown : client.playerData.lookup playerId ≠ none) :
    (client.setVote playerId vote).playerData.Colored := by
  intro id entry hentry
  rw [lookup_setVote] at hentry
  split at hentry
  · obtain ⟨old, hold⟩ := Option.ne_none_iff_exists'.mp hknown
    rw [PlayerData.entry, hold] at hentry
    rw [← Option.some.inj hentry]
    exact h playerId old hold
  · exact h id entry hentry

theorem complete_rows {playerData : PlayerData} (h : playerData.Colored) :
    (LobbyMessage.updatePlayerData playerData.rows).Complete := by
  intro row hrow
  exact h row.id _ ((PlayerData.mem_rows playerData).mp hrow)

/-- A vote changes no color, and where there is no entry it makes one without a color. -/
theorem Tracks.setVote (h : Tracks own client.playerData client.history) {playerId vote : Nat}
    {history : History} (hlisted : history.listed = client.history.listed)
    (hvoted : ∀ id, id ∉ client.history.listed →
      (id ∈ history.voted ↔ id ∈ client.history.voted ∨ id = playerId))
    (hown : own ∉ history.voted) :
    Tracks own (client.setVote playerId (some vote)).playerData history := by
  refine ⟨?_, ?_, ?_, hown⟩
  · intro id hmem
    rw [hlisted] at hmem
    obtain ⟨entry, hentry, hcolor⟩ := h.listed id hmem
    rw [lookup_setVote]
    split
    · subst id
      refine ⟨_, rfl, ?_⟩
      rwa [PlayerData.entry, hentry]
    · exact ⟨entry, hentry, hcolor⟩
  · intro id hmem hunlisted
    rw [hlisted] at hunlisted
    rw [lookup_setVote]
    split
    · subst id
      refine ⟨vote, ?_⟩
      by_cases hold : playerId ∈ client.history.voted
      · obtain ⟨old, hentry⟩ := h.voted playerId hold hunlisted
        rw [PlayerData.entry, hentry]
        rfl
      · rw [PlayerData.entry, h.others playerId hunlisted hold]
        rfl
    · exact h.voted id (((hvoted id hunlisted).mp hmem).resolve_right ‹_›) hunlisted
  · intro id hunlisted hunvoted
    rw [hlisted] at hunlisted
    rw [hvoted id hunlisted, not_or] at hunvoted
    rw [lookup_setVote, if_neg hunvoted.2]
    exact h.others id hunlisted hunvoted.1

theorem tracks_replacePlayerData {data : List PlayerRow}
    (hdata : ∀ row ∈ data, IsPlayerColor row.color) :
    Tracks own (client.replacePlayerData data).playerData
      (client.replacePlayerData data).history where
  listed id hlisted := by
    obtain ⟨row, hrow⟩ := Option.isSome_iff_exists.mp (PlayerData.lastRow_isSome_iff.mpr hlisted)
    refine ⟨⟨row.color, row.vote⟩, ?_, hdata row (PlayerData.id_of_lastRow hrow).1⟩
    change (PlayerData.ofRows data).lookup id = _
    rw [PlayerData.lookup_ofRows, hrow]
    rfl
  voted id hvoted := by cases hvoted
  others id hunlisted _ := by
    change (PlayerData.ofRows data).lookup id = _
    rw [PlayerData.lookup_ofRows, Option.map_eq_none_iff]
    by_contra hrow
    exact hunlisted (PlayerData.lastRow_isSome_iff.mp (Option.isSome_iff_ne_none.mpr hrow))
  own hvoted := by cases hvoted

/-! ### A client's step -/

/-- What `net.isMaster` answers in the client of that player. -/
def Knows (own : Nat) (client : Client) : Prop :=
  ∀ master, client.isMaster = .ok master →
    client.net.playerId = some own ∧ (master = true ↔ own = 0)

theorem Recorded.sendPlayerData (h : client.Recorded own) (hown : own = 0) :
    client.sendPlayerData.Recorded own where
  out := forall_out_sendMessage h.out (complete_rows (h.master hown))
  indices := h.indices
  master := h.master
  follower hne := absurd hown hne

theorem Recorded.processed {playerId : Nat} {msg : LobbyMessage} (h : client.Recorded own)
    (hknows : client.Knows own) (hmsg : msg.Complete) (hne : playerId ≠ own)
    (hvote : own = 0 → ∀ vote, msg = .vote vote → client.playerData.lookup playerId ≠ none)
    (htable : own = 0 → ∀ data, msg ≠ .updatePlayerData data)
    (hprocessed : Processed client playerId msg client') : client'.Recorded own := by
  cases hprocessed with
  | @vote vote hno =>
      have hown : own ≠ 0 := fun hzero => by cases (hknows false hno).2.mpr hzero
      obtain ⟨value, rfl⟩ := Option.ne_none_iff_exists'.mp hmsg
      refine ⟨h.out, h.indices, fun hzero => absurd hzero hown,
        fun hne' => (h.follower hne').setVote rfl ?_ ?_⟩
      · intro id _
        change id ∈ client.history.voted ++ [playerId] ↔ _
        rw [List.mem_append, List.mem_singleton]
      · intro hmem
        rcases List.mem_append.mp hmem with hold | hnew
        · exact (h.follower hown).own hold
        · exact hne (List.mem_singleton.mp hnew).symm
  | @voteAtMaster vote hyes =>
      have hown := (hknows true hyes).2.mp rfl
      have hvoted : ((client.setVote playerId vote).addVoted playerId).Recorded own :=
        ⟨h.out, h.indices, fun _ => colored_setVote (h.master hown) (hvote hown vote rfl),
          fun hne' => absurd hown hne'⟩
      exact hvoted.sendPlayerData hown
  | @table data hno =>
      have hown : own ≠ 0 := fun hzero => by cases (hknows false hno).2.mpr hzero
      exact ⟨h.out, h.indices, fun hzero => absurd hzero hown,
        fun _ => tracks_replacePlayerData hmsg⟩
  | tableAtMaster hyes => exact absurd rfl (htable ((hknows true hyes).2.mp rfl) _)
  | other => exact hmsg.elim

theorem Recorded.completePlayerData (h : client.Recorded own) (hknows : client.Knows own)
    (hcomplete : client.completePlayerData = .ok client') : client'.Recorded own := by
  rcases completePlayerData_eq_ok hcomplete with
    ⟨-, rfl⟩ | ⟨hyes, playerData, indices, hcompleted, hclient'⟩
  · exact h
  · have hown := (hknows true hyes).2.mp rfl
    have hfilled : (client.withPlayerData playerData indices).Recorded own := by
      refine ⟨h.out, List.Subset.trans hcompleted.indices_subset h.indices, ?_,
        fun hne => absurd hown hne⟩
      intro _ id entry hentry
      cases hold : client.playerData.lookup id with
      | none =>
          obtain ⟨-, color, hcolor, rfl⟩ := hcompleted.fresh id entry hentry hold
          exact ⟨color, h.indices hcolor, rfl⟩
      | some old =>
          have hkept := hcompleted.kept id old hold
          change playerData.lookup id = some entry at hentry
          rw [hentry] at hkept
          exact Option.some.inj hkept ▸ h.master hown id old hold
    rcases hclient' with rfl | ⟨-, rfl⟩
    · exact hfilled.sendPlayerData hown
    · exact hfilled

theorem Recorded.pressVote (h : client.Recorded own) (hknows : client.Knows own)
    (hpress : client.pressVote = .ok client') : client'.Recorded own := by
  obtain ⟨playerId, entry, vote, hplayer, hentry, hclient'⟩ := pressVote_eq_ok hpress
  have hid {master : Bool} (hmaster : client.isMaster = .ok master) : playerId = own := by
    have hown := (hknows master hmaster).1
    rw [hplayer] at hown
    exact Option.some.inj hown
  have hclicked (heq : playerId = own) : (client.click own vote).Recorded own := by
    subst heq
    refine ⟨h.out, h.indices, fun hzero => colored_setVote (h.master hzero) (by simp [hentry]),
      fun hne => (h.follower hne).setVote rfl ?_ (h.follower hne).own⟩
    intro id hunlisted
    have hlisted := (h.follower hne).own_iff.mp ⟨entry, hentry⟩
    refine ⟨Or.inl, fun hmem => hmem.resolve_right ?_⟩
    rintro rfl
    exact hunlisted hlisted
  rcases hclient' with ⟨hyes, rfl⟩ | ⟨hno, rfl⟩
  · obtain rfl := hid hyes
    exact (hclicked rfl).sendPlayerData ((hknows true hyes).2.mp rfl)
  · obtain rfl := hid hno
    have hrecorded := hclicked rfl
    exact ⟨forall_out_sendMessage hrecorded.out (Option.some_ne_none vote), hrecorded.indices,
      hrecorded.master, hrecorded.follower⟩

theorem Recorded.finishTick (h : client.Recorded own) (hknows : client.Knows own)
    (hfinish : client.finishTick games buttons = .ok client') : client'.Recorded own := by
  have hknows' {other : Client} (hnet : other.net = client.net) : other.Knows own := by
    intro master hmaster
    rw [isMaster, hnet] at hmaster
    rw [hnet]
    exact hknows master hmaster
  refine (finishTick_invariant (P := fun other => other.net = client.net ∧ other.Recorded own)
    hfinish ⟨rfl, h⟩ ?_ ?_ ?_ ?_).2
  · rintro other other' ⟨hnet, hother⟩ hcomplete
    exact ⟨(net_of_completePlayerData hcomplete).trans hnet,
      hother.completePlayerData (hknows' hnet) hcomplete⟩
  · rintro other startHidden selectedGame ⟨hnet, hother⟩
    exact ⟨hnet, hother.out, hother.indices, hother.master, hother.follower⟩
  · rintro other other' ⟨hnet, hother⟩ hpress
    exact ⟨(net_of_pressVote hpress).trans hnet, hother.pressVote (hknows' hnet) hpress⟩
  · rintro other ⟨hnet, hother⟩
    exact ⟨hnet, hother.out, hother.indices, hother.master, hother.follower⟩

theorem Recorded.receive (h : client.Recorded own) (frames : List (Net.Frame LobbyMessage)) :
    (client.receive frames).Recorded own := ⟨h.out, h.indices, h.master, h.follower⟩

theorem Recorded.send (h : client.Recorded own) : client.send.Recorded own :=
  ⟨forall_out_send h.out, h.indices, h.master, h.follower⟩

theorem recorded_init {indices : List Nat} (h : indices ⊆ List.range' 1 numPlayerColors) :
    (init indices).Recorded own where
  out msg hmsg := by cases hmsg
  indices := h
  master _ id entry hentry := by cases hentry
  follower _ := ⟨fun _ hid => absurd hid List.not_mem_nil,
    fun _ hid => absurd hid List.not_mem_nil, fun _ _ _ => rfl, List.not_mem_nil⟩

end Client

namespace Room

variable {Sid : Type} [DecidableEq Sid] {s s' : Room Sid} {C : Sid} {client' : Client}
  {games : List Game} {buttons : Buttons}

structure Recorded (s : Room Sid) : Prop where
  carries : s.Carries LobbyMessage.Complete
  outsider : ∀ C, s.playerId C = none →
    (s.clients C).playerColorIndices ⊆ List.range' 1 numPlayerColors
  member : ∀ C id, s.playerId C = some id → (s.clients C).Recorded id

omit [DecidableEq Sid] in
theorem recorded_init (lobbyName : Bytes) (colors : Sid → ShuffledColors) :
    (init lobbyName colors).Recorded where
  carries := carries_init lobbyName colors
  outsider C _ := (colors C).perm.subset
  member C id h := by cases h

omit [DecidableEq Sid] in
theorem Consistent.knows (h : s.Consistent) {id : Nat} (hC : s.playerId C = some id) :
    (s.clients C).Knows id := by
  intro master hmaster
  obtain ⟨id', hid', hown, hiff, -⟩ := h.isMaster_eq hmaster
  obtain rfl := Option.some.inj (hid'.symm.trans hC)
  exact ⟨hown, hiff⟩

/-- A vote that reaches the master is from a player it has an entry for. -/
theorem recorded_of_message (h : s.Consistent) (hinv : LeaderTable.Inv 0 s.replicas) {own : Nat}
    (hC : s.playerId C = some own) {client : Client} (hclient : client.Recorded own)
    (hknows : client.Knows own) {playerId : Nat} {msg : LobbyMessage} (hmsg : msg.Complete)
    (hpopped : (s.clients C).Popped (.message playerId msg) client)
    (hprocessed : Client.Processed client playerId msg client') : client'.Recorded own := by
  have hplain : msg ≠ .other := by
    rintro rfl
    exact hmsg
  obtain ⟨D, m, rest, hne, hD, hm, hpath, -⟩ := exists_replicas_popped h hplain hpopped
  refine hclient.processed hknows hmsg ?_ ?_ ?_ hprocessed
  · rintro rfl
    exact hne (h.playerId_inj hD hC)
  · rintro rfl vote rfl
    cases hm
    have hknown : s.replicas.view C playerId ≠ none := by
      apply hinv.known_said C D playerId hC hD
      exact Or.inr ⟨C, by simp [hpath]⟩
    intro hnone
    rw [hpopped.playerData] at hnone
    exact hknown (view_eq_none_iff.mpr hnone)
  · rintro rfl data rfl
    cases hm
    exact not_table_at_master h hinv hne hC hpath

theorem recorded_of_updated (h : s.Consistent) (hinv : LeaderTable.Inv 0 s.replicas)
    (hs : s.Recorded) {own : Nat} (hC : s.playerId C = some own)
    (hupdated : Client.Updated games buttons (s.clients C) client') : client'.Recorded own := by
  have hclient := hs.member C own hC
  have hknows := h.knows hC
  cases hupdated with
  | wait => exact hclient.send
  | enter | skip => exact ⟨hclient.out, hclient.indices, hclient.master, hclient.follower⟩
  | @message playerId msg events _ _ hevents hprocessed =>
      have hmsg : msg.Complete := by
        apply hs.carries.stream C playerId msg
        rw [stream, hevents]
        exact List.mem_cons_self
      have hpopped : ((s.clients C).popEvent events).goOn.Recorded own :=
        ⟨hclient.out, hclient.indices, hclient.master, hclient.follower⟩
      exact recorded_of_message h hinv hC hpopped hknows hmsg ⟨hevents, rfl, rfl, rfl⟩ hprocessed
  | finish _ _ hfinish => exact hclient.send.finishTick hknows hfinish

theorem Recorded.setClient (h : s.Recorded) {own : Nat} (hC : s.playerId C = some own)
    (hevents : client'.net.events <:+ (s.clients C).net.events) (hclient : client'.Recorded own) :
    (s.setClient C client').Recorded := by
  refine ⟨h.carries.setClient hevents hclient.out, ?_, ?_⟩
  · intro D hD
    have hne : D ≠ C := by
      rintro rfl
      exact absurd (hC.symm.trans hD) (Option.some_ne_none own)
    rw [clients_setClient_of_ne _ hne]
    exact h.outsider D hD
  · intro D id hD
    by_cases hDC : D = C
    · subst hDC
      obtain rfl := Option.some.inj (hC.symm.trans hD)
      rwa [clients_setClient_self]
    · rw [clients_setClient_of_ne _ hDC]
      exact h.member D id hD

theorem Recorded.deliver (h : s.Recorded) {own : Nat} (hC : s.playerId C = some own)
    (count : Nat) : (s.deliver C count).Recorded := by
  have hclient (D : Sid) : (s.deliver C count).clients D = s.clients D ∨
      D = C ∧ ∃ frames, (s.deliver C count).clients D = (s.clients D).receive frames := by
    by_cases hD : D = C
    · subst hD
      exact Or.inr ⟨rfl, _, clients_setClient_self _⟩
    · exact Or.inl (clients_setClient_of_ne _ hD)
  refine ⟨h.carries.deliver C count, ?_, ?_⟩
  · intro D hD
    rcases hclient D with hsame | ⟨rfl, -⟩
    · rw [hsame]
      exact h.outsider D hD
    · exact absurd (hC.symm.trans hD) (Option.some_ne_none own)
  · intro D id hD
    rcases hclient D with hsame | ⟨-, frames, hreceived⟩
    · rw [hsame]
      exact h.member D id hD
    · rw [hreceived]
      exact (h.member D id hD).receive frames

theorem Recorded.join {playerName : Bytes} (h : s.Recorded) (hs : s.Consistent)
    (hstep : s.join C playerName = some s') : s'.Recorded := by
  have hcarries := h.carries.join hs hstep
  obtain ⟨hnew, id, lobby, -, rfl⟩ := join_eq_some hs.valid hstep
  have hother {D : Sid} (hD : D ≠ C) :
      Function.update s.playerId C (some id) D = s.playerId D := Function.update_of_ne hD _ _
  refine ⟨hcarries, ?_, ?_⟩
  · intro D hD
    change Function.update s.playerId C (some id) D = none at hD
    have hne : D ≠ C := by
      rintro rfl
      rw [Function.update_self] at hD
      cases hD
    exact h.outsider D ((hother hne).symm.trans hD)
  · intro D id' hD
    by_cases hDC : D = C
    · subst hDC
      obtain ⟨-, -, indices, hinit⟩ := hs.outsider D hnew
      have hindices := h.outsider D hnew
      change (s.clients D).Recorded id'
      rw [hinit] at hindices ⊢
      exact Client.recorded_init hindices
    · exact h.member D id' ((hother hDC).symm.trans hD)

theorem Recorded.relay (h : s.Recorded) (hstep : s.relay C = some s') : s'.Recorded := by
  have hcarries := h.carries.relay hstep
  obtain ⟨id, msg, sent, hC, hsent, -, rfl⟩ := relay_eq_some hstep
  have hclient := h.member C id hC
  have hrest : Client.Recorded id { s.clients C with sent := sent } := by
    refine ⟨fun msg' hmsg' => hclient.out msg' ?_, hclient.indices, hclient.master,
      hclient.follower⟩
    rw [Client.out_of_sent hsent]
    exact List.mem_cons_of_mem _ hmsg'
  have hset : (s.setClient C { s.clients C with sent := sent }).Recorded :=
    h.setClient hC List.suffix_rfl hrest
  exact ⟨hcarries, hset.outsider, hset.member⟩

theorem Recorded.step {e : RoomEvent Sid} (h : s.Recorded) (hs : s.Replicated)
    (hstep : s.step games e = some s') : s'.Recorded := by
  cases e with
  | join C playerName => exact h.join hs.consistent hstep
  | relay C => exact h.relay hstep
  | post C =>
      have hcarries := h.carries.post hstep
      obtain ⟨T, frame, posts, -, rfl⟩ := post_eq_some hstep
      exact ⟨hcarries, h.outsider, h.member⟩
  | update C count buttons =>
      cases hC : s.playerId C with
      | none => exact hs.consistent.update_outsider hC hstep ▸ h
      | some id =>
          obtain ⟨client', hupdated, rfl⟩ := update_eq_some hstep
          have hinv := hs.inv
          rw [← replicas_deliver s C count] at hinv
          obtain ⟨events, hevents, hnet⟩ := hupdated.net_eq
          refine (h.deliver hC count).setClient hC ?_ ?_
          · rw [hnet]
            exact hevents
          · exact recorded_of_updated (hs.consistent.deliver (by simp [hC]) count) hinv
              (h.deliver hC count) hC hupdated

theorem recorded {lobbyName : Bytes} {colors : Sid → ShuffledColors}
    (h : (roomSystem games lobbyName colors).Reachable s) : s.Recorded := by
  have hboth : s.Replicated ∧ s.Recorded := by
    refine h.invariant (fun s => s.Replicated ∧ s.Recorded)
      ⟨replicated_init lobbyName colors, recorded_init lobbyName colors⟩ ?_
    rintro s e s' ⟨hs, hrecorded⟩ hstep
    exact ⟨hs.step hstep, hrecorded.step hs hstep⟩
  exact hboth.2

/-- **Complete records.** At the master records are complete. At any other client all that is drawn
has a color exactly when the last table lists every player that has voted since, and the vote
button finds an entry exactly when the last table lists the client's own player. -/
theorem records_complete_iff {lobbyName : Bytes} {colors : Sid → ShuffledColors}
    (h : (roomSystem games lobbyName colors).Reachable s) (C : Sid) :
    ((s.clients C).Drawable ↔ s.playerId C = some 0 ∨
      ∀ id ∈ (s.clients C).history.voted, id ∈ (s.clients C).history.listed) ∧
    ∀ completed, (s.clients C).completePlayerData = .ok completed →
      (completed.HasOwnEntry ↔ s.playerId C = some 0 ∨
        ∃ id ∈ (s.clients C).history.listed, s.playerId C = some id) := by
  have hs := replicated h
  have hrecorded := recorded h
  constructor
  · cases hC : s.playerId C with
    | none =>
        obtain ⟨-, -, indices, hinit⟩ := hs.consistent.outsider C hC
        rw [hinit]
        refine iff_of_true (fun id entry hentry => by cases hentry) (Or.inr fun id hid => ?_)
        cases hid
    | some own =>
        have hclient := hrecorded.member C own hC
        by_cases hown : own = 0
        · subst hown
          refine iff_of_true ?_ (Or.inl rfl)
          exact fun id entry hentry _ => hclient.master rfl id entry hentry
        · rw [or_iff_right fun hzero => hown (Option.some.inj hzero)]
          exact (hclient.follower hown).drawable_iff
  · intro completed hcomplete
    rcases Client.completePlayerData_eq_ok hcomplete with
      ⟨hno, rfl⟩ | ⟨hyes, playerData, indices, hcompleted, hclient'⟩
    · obtain ⟨own, hC, hplayer, hiff, -⟩ := hs.consistent.isMaster_eq hno
      have hown : own ≠ 0 := fun hzero => by cases hiff.mpr hzero
      have htracks := (hrecorded.member C own hC).follower hown
      rw [or_iff_right fun hzero => hown (Option.some.inj (hC.symm.trans hzero))]
      constructor
      · rintro ⟨id, entry, hid, hentry⟩
        obtain rfl := Option.some.inj (hplayer.symm.trans hid)
        exact ⟨own, htracks.own_iff.mp ⟨entry, hentry⟩, hC⟩
      · rintro ⟨id, hlisted, hid⟩
        obtain rfl := Option.some.inj (hC.symm.trans hid)
        obtain ⟨entry, hentry⟩ := htracks.own_iff.mpr hlisted
        exact ⟨own, entry, hplayer, hentry⟩
    · obtain ⟨own, hC, hplayer, hiff, hlists⟩ := hs.consistent.isMaster_eq hyes
      obtain rfl := hiff.mp rfl
      refine iff_of_true ?_ (Or.inl hC)
      obtain ⟨first, others, hplayers, hfirst⟩ := hlists.master
      have hcovered := hcompleted.covers first (by simp [hplayers])
      rw [hfirst] at hcovered
      obtain ⟨entry, hentry⟩ := Option.isSome_iff_exists.mp hcovered
      rcases hclient' with rfl | ⟨-, rfl⟩ <;> exact ⟨0, entry, hplayer, hentry⟩

/-- The second player votes, and a third one joins and hears of it before the master's table. -/
def lateJoin : List (RoomEvent (Fin 3)) :=
  let idle : Buttons := ⟨[], false, false⟩
  [.join 0 [97], .update 0 2 idle, .update 0 0 idle, .join 1 [98], .update 1 2 idle,
    .update 1 0 idle, .update 0 1 idle, .update 0 0 idle, .update 0 0 idle, .relay 0, .post 0,
    .update 1 1 idle, .update 1 0 ⟨[], true, false⟩, .update 1 0 idle, .join 2 [99],
    .update 2 2 idle, .update 2 0 idle, .update 1 1 idle, .relay 1, .post 1, .post 1,
    .update 2 1 idle]

theorem records_complete_iff_third : ∃ (colors : Fin 3 → ShuffledColors) (s : Room (Fin 3)),
    (roomSystem [⟨1, 4⟩, ⟨1, 4⟩] [120] colors).run lateJoin = some s ∧
      (s.clients 1).Drawable ∧ ¬(s.clients 2).Drawable := by
  let colors : Fin 3 → ShuffledColors := fun _ => ⟨List.range' 1 numPlayerColors, .refl _⟩
  have hrun : ((roomSystem [⟨1, 4⟩, ⟨1, 4⟩] [120] colors).run lateJoin).any (fun s =>
      decide ((s.clients 1).history.voted = [] ∧ (s.clients 2).history.voted = [1] ∧
        (s.clients 2).history.listed = [] ∧ s.playerId 2 = some 2)) = true := by
    decide +kernel
  obtain ⟨s, hs, hstate⟩ := (Option.any_eq_true _ _).mp hrun
  obtain ⟨hvoted, hvoted', hlisted', hC⟩ := of_decide_eq_true hstate
  have hreachable := TransitionSystem.reachable_of_run hs
  have hsecond := (records_complete_iff hreachable 1).1
  have hthird := (records_complete_iff hreachable 2).1
  rw [hvoted] at hsecond
  rw [hvoted', hlisted', hC] at hthird
  exact ⟨colors, s, hs, hsecond.mpr (Or.inr (by simp)), fun h => by simpa using hthird.mp h⟩

/-- The third client draws with no color, and its vote button finds no entry. -/
theorem not_records_complete : ∃ (colors : Fin 3 → ShuffledColors) (s : Room (Fin 3)),
    (roomSystem [⟨1, 4⟩, ⟨1, 4⟩] [120] colors).run lateJoin = some s ∧
      (∀ C, (s.clients C).net.players ≠ [] ∧ (s.clients C).scene = .lobby) ∧
      none ∈ (s.clients 2).drawnColors [⟨1, 4⟩, ⟨1, 4⟩] ∧ ¬(s.clients 2).Drawable ∧
      ∃ completed, (s.clients 2).completePlayerData = .ok completed ∧ ¬completed.HasOwnEntry := by
  let colors : Fin 3 → ShuffledColors := fun _ => ⟨List.range' 1 numPlayerColors, .refl _⟩
  have hrun : ((roomSystem [⟨1, 4⟩, ⟨1, 4⟩] [120] colors).run lateJoin).any (fun s =>
      decide ((∀ C, (s.clients C).net.players ≠ [] ∧ (s.clients C).scene = .lobby) ∧
        none ∈ (s.clients 2).drawnColors [⟨1, 4⟩, ⟨1, 4⟩] ∧
        (s.clients 2).isMaster.toOption = some false ∧
        (s.clients 2).net.playerId = some 2 ∧
        (s.clients 2).playerData.lookup 2 = none)) = true := by
    decide +kernel
  obtain ⟨s, hs, hstate⟩ := (Option.any_eq_true _ _).mp hrun
  obtain ⟨hclients, hdrawn, hmaster, hplayerId, hlookup⟩ := of_decide_eq_true hstate
  refine ⟨colors, s, hs, hclients, hdrawn, ?_, s.clients 2, ?_, ?_⟩
  · intro hdrawable
    obtain ⟨index, -, hcolor⟩ := hdrawable.drawnColors _ none hdrawn
    cases hcolor
  · cases hresult : (s.clients 2).isMaster with
    | error error =>
        rw [hresult] at hmaster
        cases hmaster
    | ok master =>
        rw [hresult] at hmaster
        rw [Client.completePlayerData, hresult, Option.some.inj hmaster]
        rfl
  · rintro ⟨id, entry, hid, hentry⟩
    obtain rfl := Option.some.inj (hplayerId.symm.trans hid)
    rw [hlookup] at hentry
    cases hentry

end Room

end ChatGames
