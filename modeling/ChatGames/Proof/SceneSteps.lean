import ChatGames.LobbyScene
import ChatGames.Library.Outcome

/-!
# What a scene's step does

The inversions of `processMessage`, of the rest of a tick and of `update`: one constructor or one
disjunct for every way they end without an error.
-/

namespace ChatGames

open Outcome

namespace PlayerData

/-- The row that counts for an id is the last one. -/
def lastRow (data : List PlayerRow) (id : Nat) : Option PlayerRow :=
  data.reverse.find? fun row => row.id = id

@[simp]
theorem lastRow_nil (id : Nat) : lastRow [] id = none := rfl

theorem lastRow_concat (data : List PlayerRow) (row : PlayerRow) (id : Nat) :
    lastRow (data ++ [row]) id = if row.id = id then some row else lastRow data id := by
  rw [lastRow, List.reverse_append, List.reverse_singleton, List.singleton_append, List.find?_cons]
  by_cases hid : row.id = id <;> simp [hid, lastRow]

theorem id_of_lastRow {data : List PlayerRow} {id : Nat} {row : PlayerRow}
    (h : lastRow data id = some row) : row ∈ data ∧ row.id = id :=
  ⟨List.mem_reverse.mp (List.mem_of_find?_eq_some h), by simpa using List.find?_some h⟩

theorem lastRow_isSome_iff {data : List PlayerRow} {id : Nat} :
    (lastRow data id).isSome ↔ id ∈ data.map PlayerRow.id := by
  rw [lastRow, List.find?_isSome, List.mem_map]
  simp

theorem lookup_ofRows (data : List PlayerRow) (id : Nat) :
    (ofRows data).lookup id = (lastRow data id).map fun row => ⟨row.color, row.vote⟩ := by
  induction data using List.reverseRecOn with
  | nil => rfl
  | append_singleton data row ih =>
      rw [ofRows, List.foldl_append, ← ofRows, lastRow_concat]
      change ((ofRows data).insert row.id ⟨row.color, row.vote⟩).lookup id = _
      by_cases hid : row.id = id
      · rw [if_pos hid, ← hid, AList.lookup_insert]
        rfl
      · rw [if_neg hid, AList.lookup_insert_ne (Ne.symm hid), ih]

variable (playerData : PlayerData)

theorem mem_rows {row : PlayerRow} :
    row ∈ playerData.rows ↔ playerData.lookup row.id = some ⟨row.color, row.vote⟩ := by
  rw [rows, List.mem_map]
  constructor
  · intro h
    obtain ⟨entry, hentry, rfl⟩ := h
    exact AList.mem_lookup_iff.mpr hentry
  · intro h
    exact ⟨⟨row.id, row.color, row.vote⟩, AList.mem_lookup_iff.mp h, rfl⟩

/-- What a table is sent as stands for the table. -/
theorem lookup_ofRows_rows (id : Nat) : (ofRows playerData.rows).lookup id =
    playerData.lookup id := by
  rw [lookup_ofRows]
  cases hrow : lastRow playerData.rows id with
  | some row =>
      obtain ⟨hmem, rfl⟩ := id_of_lastRow hrow
      rw [(mem_rows playerData).mp hmem]
      rfl
  | none =>
      cases hentry : playerData.lookup id with
      | none => rfl
      | some entry =>
          have hmem : PlayerRow.mk id entry.color entry.vote ∈ playerData.rows :=
            (mem_rows playerData).mpr hentry
          have hsome := lastRow_isSome_iff.mpr (List.mem_map_of_mem (f := PlayerRow.id) hmem)
          rw [hrow] at hsome
          cases hsome

theorem mem_keys_iff {playerData : PlayerData} {id : Nat} :
    id ∈ playerData.keys ↔ ∃ entry, playerData.lookup id = some entry := by
  rw [← AList.mem_keys, ← AList.lookup_isSome, Option.isSome_iff_exists]

end PlayerData

namespace Client

variable {client client' : Client} {playerId : Nat}

/-! ### The master -/

theorem isMaster_of_eq {first : Net.NetPlayer} {players : List Net.NetPlayer}
    (h : client.net.players = first :: players) :
    client.isMaster = .ok (decide (some first.id = client.net.playerId)) := by
  rw [isMaster, Net.Table.isMaster, h]
  rfl

theorem exists_isMaster (h : client.net.players ≠ []) : ∃ master, client.isMaster = .ok master := by
  obtain ⟨first, players, hplayers⟩ := List.exists_cons_of_ne_nil h
  exact ⟨_, isMaster_of_eq hplayers⟩

/-! ### A message -/

theorem setVote_addEntry (vote : Option Nat) :
    (client.addEntry playerId).setVote playerId vote = client.setVote playerId vote := by
  simp [addEntry, setVote, PlayerData.entry]

theorem lookup_setVote (client : Client) (playerId : Nat) (vote : Option Nat) (id : Nat) :
    (client.setVote playerId vote).playerData.lookup id =
      if id = playerId then some { client.playerData.entry playerId with vote := vote }
      else client.playerData.lookup id := by
  by_cases hid : id = playerId
  · subst hid
    rw [if_pos rfl]
    exact AList.lookup_insert _
  · rw [if_neg hid]
    exact AList.lookup_insert_ne hid

def addVoted (client : Client) (playerId : Nat) : Client :=
  { client with history.voted := client.history.voted ++ [playerId] }

def replacePlayerData (client : Client) (data : List PlayerRow) : Client :=
  { client with
    playerData := .ofRows data
    history := { client.history with
      listed := data.map PlayerRow.id
      voted := [] } }

/-- How a message is processed without an error. -/
inductive Processed (client : Client) (playerId : Nat) : LobbyMessage → Client → Prop
  | vote {vote : Option Nat} : client.isMaster = .ok false →
      Processed client playerId (.vote vote) ((client.setVote playerId vote).addVoted playerId)
  | voteAtMaster {vote : Option Nat} : client.isMaster = .ok true →
      Processed client playerId (.vote vote)
        ((client.setVote playerId vote).addVoted playerId).sendPlayerData
  | table {data : List PlayerRow} : client.isMaster = .ok false →
      Processed client playerId (.updatePlayerData data) (client.replacePlayerData data)
  | tableAtMaster {data : List PlayerRow} : client.isMaster = .ok true →
      Processed client playerId (.updatePlayerData data) (client.addEntry playerId)
  | other : Processed client playerId .other (client.addEntry playerId)

theorem processMessage_vote (vote : Option Nat) :
    client.processMessage playerId (.vote vote) = client.isMaster.map fun master =>
      let client := (client.setVote playerId vote).addVoted playerId
      if master then client.sendPlayerData else client := by
  change (do
    let client := ((client.addEntry playerId).setVote playerId vote).addVoted playerId
    if ← client.isMaster then .ok client.sendPlayerData else .ok client) = _
  rw [setVote_addEntry]
  change (client.isMaster.bind fun master => _) = _
  cases client.isMaster with
  | error error => rfl
  | ok master => cases master <;> rfl

theorem processMessage_table (data : List PlayerRow) :
    client.processMessage playerId (.updatePlayerData data) = client.isMaster.map fun master =>
      if master then client.addEntry playerId else client.replacePlayerData data := by
  change (client.isMaster.bind fun master => _) = _
  cases client.isMaster with
  | error error => rfl
  | ok master => cases master <;> rfl

theorem processed_of_eq {msg : LobbyMessage}
    (h : client.processMessage playerId msg = .ok client') :
    Processed client playerId msg client' := by
  cases msg with
  | vote vote =>
      rw [processMessage_vote] at h
      cases hmaster : client.isMaster with
      | error error => rw [hmaster] at h; cases h
      | ok master =>
          rw [hmaster] at h
          cases master with
          | true => exact Except.ok.inj h ▸ .voteAtMaster hmaster
          | false => exact Except.ok.inj h ▸ .vote hmaster
  | updatePlayerData data =>
      rw [processMessage_table] at h
      cases hmaster : client.isMaster with
      | error error => rw [hmaster] at h; cases h
      | ok master =>
          rw [hmaster] at h
          cases master with
          | true => exact Except.ok.inj h ▸ .tableAtMaster hmaster
          | false => exact Except.ok.inj h ▸ .table hmaster
  | other => exact Except.ok.inj h ▸ .other

theorem exists_processMessage (hplayers : client.net.players ≠ []) (playerId : Nat)
    (msg : LobbyMessage) : ∃ client', client.processMessage playerId msg = .ok client' := by
  obtain ⟨master, hmaster⟩ := exists_isMaster hplayers
  cases msg with
  | vote vote => rw [processMessage_vote, hmaster]; exact ⟨_, rfl⟩
  | updatePlayerData data => rw [processMessage_table, hmaster]; exact ⟨_, rfl⟩
  | other => exact ⟨_, rfl⟩

theorem Processed.net_eq {msg : LobbyMessage} (h : Processed client playerId msg client') :
    client'.net = client.net := by
  cases h <;> rfl

/-! ### The rest of a tick -/

/-- What `addPlayerData` does without an error. -/
structure Completed (players : List Net.NetPlayer) (playerData : PlayerData) (indices : List Nat)
    (playerData' : PlayerData) (indices' : List Nat) : Prop where
  kept : ∀ id entry, playerData.lookup id = some entry → playerData'.lookup id = some entry
  covers : ∀ player ∈ players, (playerData'.lookup player.id).isSome
  fresh : ∀ id entry, playerData'.lookup id = some entry → playerData.lookup id = none →
    (∃ player ∈ players, player.id = id) ∧ ∃ color ∈ indices, entry = ⟨some color, none⟩
  indices_subset : indices' ⊆ indices

section Completed

variable {players : List Net.NetPlayer} {playerData playerData' : PlayerData}
  {indices indices' : List Nat} {player : Net.NetPlayer}

theorem completed_nil : Completed [] playerData indices playerData indices where
  kept _ _ hentry := hentry
  covers _ hplayer := absurd hplayer List.not_mem_nil
  fresh id entry hsome hnone := by
    rw [hnone] at hsome
    cases hsome
  indices_subset := List.Subset.refl _

theorem Completed.cons_known (h : Completed players playerData indices playerData' indices')
    {entry : PlayerEntry} (hentry : playerData.lookup player.id = some entry) :
    Completed (player :: players) playerData indices playerData' indices' where
  kept := h.kept
  covers other hother := by
    rcases List.mem_cons.mp hother with rfl | hother
    · rw [h.kept _ _ hentry]
      rfl
    · exact h.covers other hother
  fresh id entry' hsome hnone := by
    obtain ⟨⟨other, hother, hid⟩, hcolor⟩ := h.fresh id entry' hsome hnone
    exact ⟨⟨other, List.mem_cons_of_mem _ hother, hid⟩, hcolor⟩
  indices_subset := h.indices_subset

theorem Completed.cons_new {color : Nat}
    (h : Completed players (playerData.insert player.id ⟨some color, none⟩) indices.dropLast
      playerData' indices')
    (hentry : playerData.lookup player.id = none) (hcolor : color ∈ indices) :
    Completed (player :: players) playerData indices playerData' indices' := by
  have hinserted := h.kept player.id ⟨some color, none⟩ (AList.lookup_insert playerData)
  refine ⟨?_, ?_, ?_, List.Subset.trans h.indices_subset (List.dropLast_subset _)⟩
  · intro id entry hsome
    apply h.kept
    rw [AList.lookup_insert_ne, hsome]
    rintro rfl
    rw [hentry] at hsome
    cases hsome
  · intro other hother
    rcases List.mem_cons.mp hother with rfl | hother
    · rw [hinserted]
      rfl
    · exact h.covers other hother
  · intro id entry hsome hnone
    by_cases hid : id = player.id
    · subst hid
      rw [hsome] at hinserted
      exact ⟨⟨player, List.mem_cons_self, rfl⟩, color, hcolor, Option.some.inj hinserted⟩
    · obtain ⟨⟨other, hother, hotherid⟩, color', hcolor', heq⟩ :=
        h.fresh id entry hsome ((AList.lookup_insert_ne hid).trans hnone)
      exact ⟨⟨other, List.mem_cons_of_mem _ hother, hotherid⟩, color',
        List.mem_of_mem_dropLast hcolor', heq⟩

theorem addPlayerData_eq_ok {added added' : Bool}
    (h : addPlayerData players playerData indices added = .ok (playerData', indices', added')) :
    Completed players playerData indices playerData' indices' ∧
      (added' = false → playerData' = playerData ∧ added = false) := by
  induction players generalizing playerData indices added with
  | nil =>
      obtain ⟨rfl, hrest⟩ := Prod.mk.inj (Except.ok.inj h)
      obtain ⟨rfl, rfl⟩ := Prod.mk.inj hrest
      exact ⟨completed_nil, fun hadded => ⟨rfl, hadded⟩⟩
  | cons player players ih =>
      rw [addPlayerData] at h
      cases hentry : playerData.lookup player.id with
      | some entry =>
          rw [hentry] at h
          obtain ⟨hrest, hadded⟩ := ih h
          exact ⟨hrest.cons_known hentry, hadded⟩
      | none =>
          rw [hentry] at h
          cases hlast : indices.getLast? with
          | none => rw [hlast] at h; cases h
          | some color =>
              rw [hlast] at h
              obtain ⟨hrest, hadded⟩ := ih h
              refine ⟨hrest.cons_new hentry (List.mem_of_getLast? hlast), fun hfalse => ?_⟩
              exact absurd (hadded hfalse).2 (by simp)

end Completed

/-- The fields that only buttons read. -/
def withButtons (client : Client) (startHidden : Bool) (selectedGame : Option Nat) : Client :=
  { client with
    startHidden := startHidden
    selectedGame := selectedGame }

def withPlayerData (client : Client) (playerData : PlayerData) (indices : List Nat) : Client :=
  { client with
    playerData := playerData
    playerColorIndices := indices }

theorem completePlayerData_cases (h : client.completePlayerData = .ok client') :
    (client.isMaster = .ok false ∧ client' = client) ∨
      client.isMaster = .ok true ∧ ∃ playerData indices added,
        addPlayerData client.net.players client.playerData client.playerColorIndices false =
            .ok (playerData, indices, added) ∧
          client' = if added then (client.withPlayerData playerData indices).sendPlayerData
            else client.withPlayerData playerData indices := by
  obtain ⟨master, hmaster, h⟩ := bind_eq_ok.mp h
  cases master with
  | false => exact Or.inl ⟨hmaster, (Except.ok.inj h).symm⟩
  | true =>
      rw [if_pos rfl] at h
      obtain ⟨⟨playerData, indices, added⟩, hadd, h⟩ := bind_eq_ok.mp h
      refine Or.inr ⟨hmaster, playerData, indices, added, hadd, ?_⟩
      cases added with
      | true => exact (Except.ok.inj h).symm
      | false => exact (Except.ok.inj h).symm

theorem completePlayerData_eq_ok (h : client.completePlayerData = .ok client') :
    (client.isMaster = .ok false ∧ client' = client) ∨
      client.isMaster = .ok true ∧ ∃ playerData indices,
        Completed client.net.players client.playerData client.playerColorIndices playerData
            indices ∧
          (client' = (client.withPlayerData playerData indices).sendPlayerData ∨
            playerData = client.playerData ∧
              client' = client.withPlayerData playerData indices) := by
  refine (completePlayerData_cases h).imp_right ?_
  rintro ⟨hmaster, playerData, indices, added, hadd, rfl⟩
  obtain ⟨hcompleted, hsame⟩ := addPlayerData_eq_ok hadd
  refine ⟨hmaster, playerData, indices, hcompleted, ?_⟩
  cases added with
  | true => exact Or.inl rfl
  | false => exact Or.inr ⟨(hsame rfl).1, rfl⟩

def click (client : Client) (playerId vote : Nat) : Client :=
  { client.setVote playerId (some vote) with history.clicked := some vote }

theorem pressVote_eq_ok (h : client.pressVote = .ok client') :
    ∃ playerId entry vote, client.net.playerId = some playerId ∧
      client.playerData.lookup playerId = some entry ∧
        ((client.isMaster = .ok true ∧ client' = (client.click playerId vote).sendPlayerData) ∨
          client.isMaster = .ok false ∧ client' = (client.click playerId vote).sendVote vote) := by
  rw [pressVote] at h
  cases hplayer : client.net.playerId with
  | none => rw [hplayer] at h; cases h
  | some playerId =>
      rw [hplayer, Option.bind_some] at h
      cases hentry : client.playerData.lookup playerId with
      | none => rw [hentry] at h; cases h
      | some entry =>
          rw [hentry] at h
          obtain ⟨master, hmaster, h⟩ := bind_eq_ok.mp h
          refine ⟨playerId, entry, client.selectedGame.getD 0, rfl, hentry, ?_⟩
          cases master with
          | true => exact Or.inl ⟨hmaster, (Except.ok.inj h).symm⟩
          | false => exact Or.inr ⟨hmaster, (Except.ok.inj h).symm⟩

/-- The sum in `voteFinished` and what it looks up by the sum are its only errors. -/
theorem ends_totalVotes {E : SceneError → Prop} (hE : ∀ text, E (.voteFinished text))
    (votes : List (List Nat)) : Ends (totalVotes votes) (fun _ => True) E := by
  have hlength (players : Accumulator) : Ends players.length (fun _ => True) E := by
    cases players with
    | table players => exact ends_ok trivial
    | number n => exact ends_error (hE _)
  have hreduce : Ends (reduce (fun players _ => players.length) (votes.map Accumulator.table))
      (fun _ => True) E := by
    cases votes with
    | nil => exact ends_ok trivial
    | cons players votes =>
        rw [List.map_cons, reduce]
        have hfold := ends_foldlM (R := fun _ => True) (fun players (_ : Accumulator) _ =>
          hlength players) (votes.map Accumulator.table) (b := Accumulator.table players) trivial
        cases hacc : (votes.map Accumulator.table).foldlM (fun players _ => players.length)
            (Accumulator.table players) with
        | ok acc => exact ends_ok trivial
        | error error =>
            rw [hacc] at hfold
            exact ends_error hfold
  refine hreduce.bind fun acc _ _ => ?_
  match acc with
  | some (.number _) => exact ends_ok trivial
  | some (.table _) => exact ends_error (hE _)
  | none => exact ends_error (hE _)

theorem ends_voteFinished {games : List Game} {E : SceneError → Prop}
    (hE : ∀ text, E (.voteFinished text)) :
    Ends (client.voteFinished games) (fun _ => True) E := by
  refine (ends_totalVotes hE _).bind fun totalVotes _ _ => ?_
  split
  · exact ends_ok trivial
  · dsimp only
    split
    · exact ends_ok trivial
    · split
      · exact ends_error (hE _)
      · split
        · exact ends_error (hE _)
        · exact ends_ok trivial

theorem ends_masterVoteFinished {games : List Game} {E : SceneError → Prop}
    (hmaster : Ends client.isMaster (fun _ => True) E) (hE : ∀ text, E (.voteFinished text)) :
    Ends (client.masterVoteFinished games) (fun _ => True) E := by
  refine hmaster.bind fun master _ _ => ?_
  split
  · exact ends_voteFinished hE
  · exact ends_ok trivial

theorem showStart_eq_ok {games : List Game} (h : client.showStart games = .ok client') :
    ∃ startHidden, client' = client.withButtons startHidden client.selectedGame := by
  obtain ⟨showStart, -, h⟩ := bind_eq_ok.mp h
  exact ⟨_, (Except.ok.inj h).symm⟩

/-- The master completes its table, and then the vote button may be pressed. -/
theorem finishTick_eq_ok {games : List Game} {buttons : Buttons}
    (h : client.finishTick games buttons = .ok client') :
    ∃ completed startHidden selectedGame pressed selectedGame',
      client.completePlayerData = .ok completed ∧
        (pressed = completed.withButtons startHidden selectedGame ∨
          (completed.withButtons startHidden selectedGame).pressVote = .ok pressed) ∧
        client' = { pressed.withButtons pressed.startHidden selectedGame' with
          ticking := false } := by
  obtain ⟨completed, hcompleted, hlayout⟩ := bind_eq_ok.mp h
  obtain ⟨laidOut, hlaidOut, hshow⟩ := bind_eq_ok.mp hlayout
  obtain ⟨shown, hshown, hpress⟩ := bind_eq_ok.mp hshow
  obtain ⟨pressed, hpressed, hwatch⟩ := bind_eq_ok.mp hpress
  have hsame : laidOut = completed := by
    rw [layout] at hlaidOut
    split at hlaidOut
    · cases hlaidOut
    · exact (Except.ok.inj hlaidOut).symm
  obtain ⟨startHidden, hshown⟩ := showStart_eq_ok hshown
  rw [hsame] at hshown
  rw [hshown] at hpressed
  refine ⟨completed, startHidden, (completed.selectGame games buttons).selectedGame, pressed,
    if buttons.watch then none else pressed.selectedGame, hcompleted, ?_, ?_⟩
  · split at hpressed
    · exact Or.inr hpressed
    · exact Or.inl (Except.ok.inj hpressed).symm
  · rw [← Except.ok.inj hwatch]
    cases buttons.watch <;> rfl

/-- What every part of the rest of a tick keeps, the whole keeps. -/
theorem finishTick_invariant {games : List Game} {buttons : Buttons} {P : Client → Prop}
    (h : client.finishTick games buttons = .ok client') (hstart : P client)
    (hcomplete : ∀ client client', P client → client.completePlayerData = .ok client' → P client')
    (hbuttons : ∀ client startHidden selectedGame, P client →
      P (client.withButtons startHidden selectedGame))
    (hpress : ∀ client client', P client → client.pressVote = .ok client' → P client')
    (hend : ∀ client, P client → P { client with ticking := false }) : P client' := by
  obtain ⟨completed, startHidden, selectedGame, pressed, selectedGame', hcompleted, hpressed,
    rfl⟩ := finishTick_eq_ok h
  have hshown := hbuttons completed startHidden selectedGame (hcomplete client _ hstart hcompleted)
  apply hend
  apply hbuttons
  rcases hpressed with rfl | hpressed
  · exact hshown
  · exact hpress _ _ hshown hpressed

/-! ### A call of `net.update` -/

theorem net_of_completePlayerData (h : client.completePlayerData = .ok client') :
    client'.net = client.net := by
  rcases completePlayerData_eq_ok h with ⟨-, rfl⟩ | ⟨-, _, _, -, rfl | ⟨-, rfl⟩⟩ <;> rfl

theorem net_of_pressVote (h : client.pressVote = .ok client') : client'.net = client.net := by
  obtain ⟨_, _, _, -, -, ⟨-, rfl⟩ | ⟨-, rfl⟩⟩ := pressVote_eq_ok h <;> rfl

/-- How a call of `net.update` ends without an error, once the frames have arrived. -/
inductive Updated (games : List Game) (buttons : Buttons) (client : Client) : Client → Prop
  | wait (hscene : client.scene = .waitForJoin) (hevents : client.net.events = []) :
      Updated games buttons client client.send
  | enter {lobbyId : Bytes} {playerId : Nat} {events : List (Net.NetEvent LobbyMessage)}
      (hscene : client.scene = .waitForJoin)
      (hevents : client.net.events = .lobbyJoined lobbyId playerId :: events) :
      Updated games buttons client { client.popEvent events with
        scene := .lobby
        selectedGame := none }
  | skip {event : Net.NetEvent LobbyMessage} {events : List (Net.NetEvent LobbyMessage)}
      (hscene : client.scene = .lobby) (hevents : client.net.events = event :: events)
      (hother : ∀ playerId msg, event ≠ .message playerId msg) :
      Updated games buttons client (client.popEvent events).goOn
  | message {playerId : Nat} {msg : LobbyMessage} {events : List (Net.NetEvent LobbyMessage)}
      {client' : Client} (hscene : client.scene = .lobby)
      (hevents : client.net.events = .message playerId msg :: events)
      (hprocessed : Processed (client.popEvent events).goOn playerId msg client') :
      Updated games buttons client client'
  | finish {client' : Client} (hscene : client.scene = .lobby) (hevents : client.net.events = [])
      (hfinish : client.send.finishTick games buttons = .ok client') :
      Updated games buttons client client'

section Update

variable {games : List Game} {buttons : Buttons}

theorem sceneUpdate_waitForJoin (h : client.scene = .waitForJoin)
    (event : Option (Net.NetEvent LobbyMessage)) : client.sceneUpdate games buttons event =
      match event with
      | some event => client.enterOn event
      | none => .ok client := by
  cases event <;> simp only [sceneUpdate, h]

theorem sceneUpdate_lobby (h : client.scene = .lobby)
    (event : Option (Net.NetEvent LobbyMessage)) : client.sceneUpdate games buttons event =
      match event with
      | some event => client.goOn.processEvent event
      | none => client.finishTick games buttons := by
  cases event <;> simp only [sceneUpdate, h]

theorem update_of_nil {frames : List (Net.Frame LobbyMessage)}
    (h : (client.receive frames).net.events = []) : client.update games frames buttons =
      (client.receive frames).send.sceneUpdate games buttons none := by
  unfold update
  dsimp only
  rw [h]

theorem update_of_cons {frames : List (Net.Frame LobbyMessage)} {event : Net.NetEvent LobbyMessage}
    {events : List (Net.NetEvent LobbyMessage)}
    (h : (client.receive frames).net.events = event :: events) :
    client.update games frames buttons =
      ((client.receive frames).popEvent events).sceneUpdate games buttons (some event) := by
  unfold update
  dsimp only
  rw [h]

theorem updated_of_eq {frames : List (Net.Frame LobbyMessage)}
    (h : client.update games frames buttons = .ok client') :
    Updated games buttons (client.receive frames) client' := by
  cases hevents : (client.receive frames).net.events with
  | nil =>
      rw [update_of_nil hevents] at h
      cases hscene : (client.receive frames).scene with
      | waitForJoin =>
          have hsent : (client.receive frames).send.scene = .waitForJoin := hscene
          rw [sceneUpdate_waitForJoin hsent] at h
          exact Except.ok.inj h ▸ .wait hscene hevents
      | lobby =>
          have hsent : (client.receive frames).send.scene = .lobby := hscene
          rw [sceneUpdate_lobby hsent] at h
          exact .finish hscene hevents h
  | cons event events =>
      rw [update_of_cons hevents] at h
      cases hscene : (client.receive frames).scene with
      | waitForJoin =>
          have hpopped : ((client.receive frames).popEvent events).scene = .waitForJoin := hscene
          rw [sceneUpdate_waitForJoin hpopped] at h
          cases event with
          | lobbyJoined lobbyId playerId => exact Except.ok.inj h ▸ .enter hscene hevents
          | lobbyUpdated | message => cases h
      | lobby =>
          have hpopped : ((client.receive frames).popEvent events).scene = .lobby := hscene
          rw [sceneUpdate_lobby hpopped] at h
          cases event with
          | lobbyJoined | lobbyUpdated =>
              exact Except.ok.inj h ▸ .skip hscene hevents fun _ _ heq => by cases heq
          | message playerId msg => exact .message hscene hevents (processed_of_eq h)

theorem net_of_finishTick (h : client.finishTick games buttons = .ok client') :
    client'.net = client.net :=
  finishTick_invariant (P := fun other => other.net = client.net) h rfl
    (fun _ _ hnet hcomplete => (net_of_completePlayerData hcomplete).trans hnet)
    (fun _ _ _ hnet => hnet) (fun _ _ hnet hpress => (net_of_pressVote hpress).trans hnet)
    fun _ hnet => hnet

/-- The table `net` loses an event at most. -/
theorem Updated.net_eq (h : Updated games buttons client client') :
    ∃ events, events <:+ client.net.events ∧
      client'.net = { client.net with events := events } := by
  have hsuffix {event : Net.NetEvent LobbyMessage} {events : List (Net.NetEvent LobbyMessage)}
      (hevents : client.net.events = event :: events) : events <:+ client.net.events := by
    rw [hevents]
    exact List.suffix_cons _ _
  cases h with
  | wait => exact ⟨client.net.events, List.suffix_rfl, rfl⟩
  | enter _ hevents | skip _ hevents => exact ⟨_, hsuffix hevents, rfl⟩
  | message _ hevents hprocessed =>
      exact ⟨_, hsuffix hevents, hprocessed.net_eq⟩
  | finish _ _ hfinish =>
      have hnet : client'.net = client.send.net := net_of_finishTick hfinish
      exact ⟨client.net.events, List.suffix_rfl, hnet⟩

theorem Updated.finishTick (h : Updated games buttons client client')
    (hscene : client.scene = .lobby) (hevents : client.net.events = []) :
    client.send.finishTick games buttons = .ok client' := by
  cases h with
  | wait hwaits =>
      rw [hscene] at hwaits
      cases hwaits
  | finish _ _ hfinish => exact hfinish
  | enter _ hcons | skip _ hcons | message _ hcons =>
      rw [hevents] at hcons
      cases hcons

end Update

end Client

end ChatGames
