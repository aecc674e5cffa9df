import ChatGames.Proof.Convergence
import ChatGames.Proof.Members

/-!
# The colors of the players

Every client has all colors in a pool of its own, and the master takes one from its pool for every
listed player without an entry. As long as it has taken over no other master's table, the pool holds
just the colors that no entry of its table has, so colors stay different; and there are enough of
them, since the ids of twelve members are below twelve. A table that is taken over has colors from
another pool, and a message of a player without an entry makes an entry without a color.
-/

namespace ChatGames

open Outcome

/-! ### Tables -/

namespace PlayerData

/-- `playerData[id].color`, where there is an entry. -/
def color (playerData : PlayerData) (id : Nat) : Option Nat := (playerData.entry id).color

def colors (playerData : PlayerData) : List (Option Nat) :=
  playerData.entries.map fun entry => entry.2.color

/-- Nobody has the color. -/
def Unused (playerData : PlayerData) (color : Nat) : Prop := some color ∉ playerData.colors

instance decidableUnused (playerData : PlayerData) (color : Nat) :
    Decidable (playerData.Unused color) :=
  inferInstanceAs (Decidable (some color ∉ playerData.colors))

/-- No two players have one color. -/
def Distinct (playerData : PlayerData) : Prop :=
  ∀ id id' color, playerData.color id = some color → playerData.color id' = some color → id = id'

variable {playerData : PlayerData} {id : Nat} {color : Nat}

theorem color_of_lookup {entry : PlayerEntry} (h : playerData.lookup id = some entry) :
    playerData.color id = entry.color := by
  rw [PlayerData.color, PlayerData.entry, h]
  rfl

theorem unused_iff : playerData.Unused color ↔ ∀ id, playerData.color id ≠ some color := by
  constructor
  · intro h id hcolor
    cases hentry : playerData.lookup id with
    | none =>
        rw [PlayerData.color, PlayerData.entry, hentry] at hcolor
        cases hcolor
    | some entry =>
        rw [color_of_lookup hentry] at hcolor
        exact h (List.mem_map.mpr ⟨⟨id, entry⟩, AList.mem_lookup_iff.mp hentry, hcolor⟩)
  · intro h hmem
    obtain ⟨entry, hentry, hcolor⟩ := List.mem_map.mp hmem
    apply h entry.1
    rw [color_of_lookup (AList.mem_lookup_iff.mpr hentry), hcolor]

theorem color_insert (id' : Nat) (entry : PlayerEntry) :
    PlayerData.color (playerData.insert id entry) id' =
      if id' = id then entry.color else playerData.color id' := by
  by_cases hid : id' = id
  · subst hid
    rw [if_pos rfl]
    exact color_of_lookup (AList.lookup_insert playerData)
  · rw [if_neg hid, PlayerData.color, PlayerData.entry, AList.lookup_insert_ne hid]
    rfl

theorem distinct_empty : PlayerData.Distinct ∅ := by
  intro id id' color hcolor
  cases hcolor

end PlayerData

/-- Everybody with an entry has a color. -/
def PlayerData.Colorful (playerData : PlayerData) : Prop :=
  ∀ id ∈ playerData.keys, playerData.color id ≠ none

/-- What the tables that a member sends keep to: they are not empty, and have ids that a member may
have and different colors. -/
structure SoundRows (data : List PlayerRow) : Prop where
  nonempty : data ≠ []
  ids : ∀ row ∈ data, row.id < numPlayerColors
  colored : ∀ row ∈ data, row.color ≠ none
  distinct : ∀ row ∈ data, ∀ row' ∈ data, ∀ color, row.color = some color →
    row'.color = some color → row.id = row'.id

def LobbyMessage.Sound : LobbyMessage → Prop
  | .updatePlayerData data => SoundRows data
  | .vote _ | .other => True

/-- What the lists of players keep to. -/
def SoundList (players : List Net.NetPlayer) : Prop :=
  (players.map Net.NetPlayer.id).Nodup ∧ ∀ player ∈ players, player.id < numPlayerColors

def Net.NetEvent.Sound : Net.NetEvent LobbyMessage → Prop
  | .message id msg => id < numPlayerColors ∧ msg.Sound
  | .lobbyUpdated _ | .lobbyJoined _ _ => True

def Net.Frame.Sound : Net.Frame LobbyMessage → Prop
  | .relayMessage id msg => id < numPlayerColors ∧ msg.Sound
  | .updateLobby players => SoundList players
  | .lobbyJoined _ _ => True

/-! ### Drawing -/

/-- The pool has just the colors that the table does not have. -/
structure FreshPool (playerData : PlayerData) (indices : List Nat) : Prop where
  distinct : playerData.Distinct
  nodup : indices.Nodup
  indices_subset : indices ⊆ List.range' 1 numPlayerColors
  pool : ∀ color ∈ List.range' 1 numPlayerColors, color ∈ indices ↔ playerData.Unused color

/-- The players of a list that have no entry. -/
def missing (playerData : PlayerData) (players : List Net.NetPlayer) : List Net.NetPlayer :=
  players.filter fun player => (playerData.lookup player.id).isNone

section Drawing

variable {players : List Net.NetPlayer} {playerData : PlayerData} {indices : List Nat}

theorem FreshPool.insert {id color : Nat} (h : FreshPool playerData indices)
    (hentry : playerData.lookup id = none) (hlast : indices.getLast? = some color) :
    FreshPool (playerData.insert id ⟨some color, none⟩) indices.dropLast := by
  have hmem := List.mem_of_getLast? hlast
  have hcolor := PlayerData.unused_iff.mp ((h.pool color (h.indices_subset hmem)).mp hmem)
  have hnodup := h.nodup
  rw [(List.dropLast_append_getLast? color hlast).symm] at hnodup
  obtain ⟨hdropped, -, hlast'⟩ := List.nodup_append.mp hnodup
  have hindices (color' : Nat) : color' ∈ indices.dropLast ↔ color' ∈ indices ∧ color' ≠ color := by
    constructor
    · exact fun h' => ⟨List.mem_of_mem_dropLast h',
        hlast' color' h' color (List.mem_singleton_self _)⟩
    · rintro ⟨hindex, hne⟩
      rw [(List.dropLast_append_getLast? color hlast).symm] at hindex
      exact (List.mem_append.mp hindex).resolve_right fun h' => hne (List.mem_singleton.mp h')
  -- only the new entry gets a color, and it had none
  have hunused (color' : Nat) : PlayerData.Unused (playerData.insert id ⟨some color, none⟩) color' ↔
      playerData.Unused color' ∧ color' ≠ color := by
    have hnone : playerData.color id = none := by
      rw [PlayerData.color, PlayerData.entry, hentry]
      rfl
    simp only [PlayerData.unused_iff, PlayerData.color_insert]
    constructor
    · refine fun h' => ⟨fun id' heq => h' id' ?_, ?_⟩
      · rw [if_neg, heq]
        rintro rfl
        rw [hnone] at heq
        cases heq
      · rintro rfl
        exact h' id (if_pos rfl)
    · rintro ⟨hold, hne⟩ id' heq
      split at heq
      · exact hne (Option.some.inj heq).symm
      · exact hold id' heq
  refine ⟨?_, hdropped, fun color' h' => h.indices_subset (List.mem_of_mem_dropLast h'), ?_⟩
  · intro id₁ id₂ color' h₁ h₂
    rw [PlayerData.color_insert] at h₁ h₂
    split at h₁ <;> split at h₂
    · exact ‹id₁ = id›.trans ‹id₂ = id›.symm
    · exact absurd (h₂.trans h₁.symm) (hcolor id₂)
    · exact absurd (h₁.trans h₂.symm) (hcolor id₁)
    · exact h.distinct id₁ id₂ color' h₁ h₂
  · intro color' hrange
    rw [hindices, hunused, h.pool color' hrange]

theorem FreshPool.addPlayerData (h : FreshPool playerData indices) {added : Bool}
    {result : PlayerData × List Nat × Bool}
    (hadd : Client.addPlayerData players playerData indices added = .ok result) :
    FreshPool result.1 result.2.1 := by
  induction players generalizing playerData indices added with
  | nil => exact Except.ok.inj hadd ▸ h
  | cons player players ih =>
      rw [Client.addPlayerData] at hadd
      cases hentry : playerData.lookup player.id with
      | some entry =>
          rw [hentry] at hadd
          exact ih h hadd
      | none =>
          rw [hentry] at hadd
          cases hlast : indices.getLast? with
          | none => rw [hlast] at hadd; cases hadd
          | some color =>
              rw [hlast] at hadd
              exact ih (h.insert hentry hlast) hadd

theorem addPlayerData_of_missing_nil (h : missing playerData players = []) (added : Bool) :
    Client.addPlayerData players playerData indices added = .ok (playerData, indices, added) := by
  induction players with
  | nil => rfl
  | cons player players ih =>
      rw [missing, List.filter_cons] at h
      cases hentry : playerData.lookup player.id with
      | none =>
          rw [hentry] at h
          cases h
      | some entry =>
          rw [hentry] at h
          rw [Client.addPlayerData, hentry]
          exact ih h

/-- The loop draws one color for every player that is missing. -/
theorem exists_addPlayerData (hnodup : (players.map Net.NetPlayer.id).Nodup)
    (henough : (missing playerData players).length ≤ indices.length) (added : Bool) :
    ∃ result, Client.addPlayerData players playerData indices added = .ok result := by
  induction players generalizing playerData indices added with
  | nil => exact ⟨_, rfl⟩
  | cons player players ih =>
      obtain ⟨hfresh, hrest⟩ := List.nodup_cons.mp hnodup
      rw [missing, List.filter_cons] at henough
      rw [Client.addPlayerData]
      cases hentry : playerData.lookup player.id with
      | some entry =>
          rw [hentry] at henough
          exact ih hrest henough added
      | none =>
          rw [hentry] at henough
          have hne : indices ≠ [] := by
            rintro rfl
            cases henough
          rw [List.getLast?_eq_getLast_of_ne_nil hne]
          apply ih hrest
          have hsame : missing (playerData.insert player.id ⟨some (indices.getLast hne), none⟩)
              players = missing playerData players := by
            apply List.filter_congr
            intro other hother
            rw [AList.lookup_insert_ne]
            intro heq
            exact hfresh (heq ▸ List.mem_map_of_mem hother)
          rw [hsame, List.length_dropLast]
          exact Nat.le_sub_one_of_lt henough

/-- The ids of the entries and of the missing players are different ones below twelve, and the pool
lacks at most the colors of the entries. -/
theorem length_missing_le (hplayers : SoundList players)
    (hids : ∀ id ∈ playerData.keys, id < numPlayerColors)
    (hpool : ∀ color ∈ List.range' 1 numPlayerColors, playerData.Unused color → color ∈ indices) :
    (missing playerData players).length ≤ indices.length := by
  have hkeys : playerData.keys.length = playerData.entries.length := List.length_map _
  have hmissing : ((missing playerData players).map Net.NetPlayer.id ++ playerData.keys).length ≤
      (List.range numPlayerColors).length := by
    refine (List.subperm_of_subset (List.nodup_append.mpr ⟨?_, playerData.keys_nodup, ?_⟩)
      ?_).length_le
    · exact hplayers.1.sublist (List.filter_sublist.map _)
    · rintro id hid id' hid' rfl
      obtain ⟨player, hplayer, rfl⟩ := List.mem_map.mp hid
      obtain ⟨entry, hentry⟩ := PlayerData.mem_keys_iff.mp hid'
      have hnone := (List.mem_filter.mp hplayer).2
      rw [hentry] at hnone
      cases hnone
    · intro id hid
      rw [List.mem_range]
      rcases List.mem_append.mp hid with hid | hid
      · obtain ⟨player, hplayer, rfl⟩ := List.mem_map.mp hid
        exact hplayers.2 player (List.mem_filter.mp hplayer).1
      · exact hids id hid
  have hcolors : (List.range' 1 numPlayerColors).length ≤
      (indices ++ playerData.colors.filterMap id).length := by
    refine (List.subperm_of_subset List.nodup_range' fun color hcolor => ?_).length_le
    by_cases hunused : playerData.Unused color
    · exact List.mem_append_left _ (hpool color hcolor hunused)
    · apply List.mem_append_right
      exact List.mem_filterMap.mpr ⟨some color, not_not.mp hunused, rfl⟩
  have hsome : (playerData.colors.filterMap id).length ≤ playerData.entries.length :=
    (List.length_filterMap_le _ _).trans (List.length_map _).le
  rw [List.length_append, List.length_map, List.length_range] at hmissing
  rw [List.length_append, List.length_range'] at hcolors
  omega

end Drawing

/-! ### A client -/

def SceneError.OutOfColors : SceneError → Prop
  | outOfColors _ => True
  | unexpectedEvent _ | noPlayers _ | noGames _ | voteFinished _ | noEntry _ => False

namespace Client

/-- The message takes the place of the client's table. -/
def Replaces (client : Client) : LobbyMessage → Prop
  | .updatePlayerData _ => client.isMaster = .ok false
  | .vote _ | .other => False

instance decidableReplaces (client : Client) : ∀ msg, Decidable (client.Replaces msg)
  | .updatePlayerData _ => inferInstanceAs (Decidable (client.isMaster = .ok false))
  | .vote _ | .other => inferInstanceAs (Decidable False)

/-- If the event is a message, its sender has an entry, or the message is a table that is taken
over. -/
def KnowsSender (client : Client) : Net.NetEvent LobbyMessage → Prop
  | .message playerId msg => playerId ∈ client.playerData.keys ∨ client.Replaces msg
  | .lobbyJoined _ _ | .lobbyUpdated _ => True

instance decidableKnowsSender (client : Client) : ∀ event, Decidable (client.KnowsSender event)
  | .message _ _ => inferInstanceAs (Decidable (_ ∨ _))
  | .lobbyJoined _ _ | .lobbyUpdated _ => inferInstanceAs (Decidable True)

/-- If the master has a color to draw, it has not taken over another master's table. -/
def DrawsFirst (client : Client) : Prop :=
  missing client.playerData client.net.players ≠ [] → client.history.listed = []

instance decidableDrawsFirst (client : Client) : Decidable client.DrawsFirst :=
  inferInstanceAs (Decidable (_ → _))

/-- What the client of the player `own` keeps to. -/
structure Painted (own : Nat) (client : Client) : Prop where
  own_lt : own < numPlayerColors
  ids : ∀ id ∈ client.playerData.keys, id < numPlayerColors
  colored : client.playerData.Colorful
  distinct : client.playerData.Distinct
  nodup : client.playerColorIndices.Nodup
  indices : client.playerColorIndices ⊆ List.range' 1 numPlayerColors
  /-- Until it takes over a table, the client has drawn all colors that are in its own. -/
  pool : client.history.listed = [] → ∀ color ∈ List.range' 1 numPlayerColors,
    color ∈ client.playerColorIndices ↔ client.playerData.Unused color
  players : SoundList client.net.players
  events : ∀ event ∈ client.net.events, event.Sound
  out : ∀ msg ∈ client.out, msg.Sound

variable {client client' : Client} {own : Nat} {games : List Game} {buttons : Buttons}

theorem painted_init (colors : ShuffledColors) (hown : own < numPlayerColors) :
    (init colors.indices).Painted own where
  own_lt := hown
  ids id h := by cases h
  colored id h := by cases h
  distinct := PlayerData.distinct_empty
  nodup := colors.perm.symm.nodup List.nodup_range'
  indices := colors.perm.subset
  pool _ color hcolor := iff_of_true (colors.perm.mem_iff.mpr hcolor) (by
    rw [PlayerData.unused_iff]
    intro id heq
    cases heq)
  players := ⟨List.nodup_nil, fun _ h => by cases h⟩
  events event h := by cases h
  out msg h := by cases h

/-- An entry with the color that its player has already. -/
theorem color_insert_known {playerData : PlayerData} {id : Nat} {entry : PlayerEntry}
    (h : entry.color = playerData.color id) :
    PlayerData.color (playerData.insert id entry) = playerData.color := by
  funext id'
  rw [PlayerData.color_insert]
  split
  · subst id'
    exact h
  · rfl

theorem keys_insert_known {playerData : PlayerData} {id : Nat} (h : id ∈ playerData.keys)
    (entry : PlayerEntry) (id' : Nat) :
    id' ∈ AList.keys (playerData.insert id entry) ↔ id' ∈ playerData.keys := by
  rw [← AList.mem_keys, AList.mem_insert, AList.mem_keys]
  exact or_iff_right_of_imp fun heq => heq ▸ h

theorem soundRows_rows {playerData : PlayerData} {id : Nat} (hid : id ∈ playerData.keys)
    (hids : ∀ id ∈ playerData.keys, id < numPlayerColors) (hcolored : playerData.Colorful)
    (hdistinct : playerData.Distinct) : SoundRows playerData.rows := by
  have hlookup {row : PlayerRow} (hrow : row ∈ playerData.rows) :=
    (PlayerData.mem_rows playerData).mp hrow
  have hkey {row : PlayerRow} (hrow : row ∈ playerData.rows) : row.id ∈ playerData.keys :=
    PlayerData.mem_keys_iff.mpr ⟨_, hlookup hrow⟩
  refine ⟨?_, fun row hrow => hids row.id (hkey hrow), fun row hrow => ?_, ?_⟩
  · obtain ⟨entry, hentry⟩ := PlayerData.mem_keys_iff.mp hid
    exact List.ne_nil_of_mem ((@PlayerData.mem_rows playerData ⟨id, _, _⟩).mpr hentry)
  · have hcolor := hcolored row.id (hkey hrow)
    rwa [PlayerData.color_of_lookup (hlookup hrow)] at hcolor
  · intro row hrow row' hrow' color h h'
    apply hdistinct row.id row'.id color
    · rw [PlayerData.color_of_lookup (hlookup hrow), h]
    · rw [PlayerData.color_of_lookup (hlookup hrow'), h']

theorem color_ofRows (data : List PlayerRow) (id : Nat) :
    PlayerData.color (.ofRows data) id = (PlayerData.lastRow data id).bind PlayerRow.color := by
  rw [PlayerData.color, PlayerData.entry, PlayerData.lookup_ofRows]
  cases PlayerData.lastRow data id <;> rfl

theorem exists_row_of_mem_ofRows {data : List PlayerRow} {id : Nat}
    (hid : id ∈ (PlayerData.ofRows data).keys) :
    ∃ row ∈ data, row.id = id ∧ PlayerData.color (.ofRows data) id = row.color := by
  obtain ⟨entry, hentry⟩ := PlayerData.mem_keys_iff.mp hid
  rw [PlayerData.lookup_ofRows, Option.map_eq_some_iff] at hentry
  obtain ⟨row, hrow, -⟩ := hentry
  obtain ⟨hmem, rfl⟩ := PlayerData.id_of_lastRow hrow
  exact ⟨row, hmem, rfl, by rw [color_ofRows, hrow, Option.bind_some]⟩

theorem distinct_ofRows {data : List PlayerRow} (h : SoundRows data) :
    (PlayerData.ofRows data).Distinct := by
  intro id id' color hcolor hcolor'
  rw [color_ofRows, Option.bind_eq_some_iff] at hcolor hcolor'
  obtain ⟨row, hrow, hcolor⟩ := hcolor
  obtain ⟨row', hrow', hcolor'⟩ := hcolor'
  obtain ⟨hmem, rfl⟩ := PlayerData.id_of_lastRow hrow
  obtain ⟨hmem', rfl⟩ := PlayerData.id_of_lastRow hrow'
  exact h.distinct row hmem row' hmem' color hcolor hcolor'

/-- What a table that is not empty is sent as. -/
theorem Painted.sendPlayerData (h : client.Painted own) {id : Nat}
    (hid : id ∈ client.playerData.keys) : client.sendPlayerData.Painted own :=
  { h with out := forall_out_sendMessage h.out (soundRows_rows hid h.ids h.colored h.distinct) }

theorem Painted.send (h : client.Painted own) : client.send.Painted own :=
  { h with out := forall_out_send h.out }

/-- Nothing else about the client counts. -/
theorem Painted.of_same (h : client.Painted own)
    (hplayerData : client'.playerData = client.playerData)
    (hindices : client'.playerColorIndices = client.playerColorIndices)
    (hnet : client'.net = client.net) (hout : client'.out = client.out)
    (hlisted : client'.history.listed = client.history.listed) : client'.Painted own where
  own_lt := h.own_lt
  ids := hplayerData ▸ h.ids
  colored := hplayerData ▸ h.colored
  distinct := hplayerData ▸ h.distinct
  nodup := hindices ▸ h.nodup
  indices := hindices ▸ h.indices
  pool := by
    rw [hlisted, hindices, hplayerData]
    exact h.pool
  players := hnet ▸ h.players
  events := hnet ▸ h.events
  out := hout ▸ h.out

/-- A player that has an entry keeps its color. -/
theorem Painted.insert_known (h : client.Painted own) {id : Nat} {entry : PlayerEntry}
    (hid : id ∈ client.playerData.keys) (hentry : entry.color = client.playerData.color id) :
    ({ client with playerData := client.playerData.insert id entry } : Client).Painted own := by
  have hcolor := color_insert_known hentry
  have hkeys := keys_insert_known hid entry
  refine ⟨h.own_lt, fun id' hid' => h.ids id' ((hkeys id').mp hid'), fun id' hid' => ?_, ?_,
    h.nodup, h.indices, fun hlisted color hrange => ?_, h.players, h.events, h.out⟩
  · rw [hcolor]
    exact h.colored id' ((hkeys id').mp hid')
  · rw [PlayerData.Distinct, hcolor]
    exact h.distinct
  · rw [PlayerData.unused_iff, hcolor, ← PlayerData.unused_iff]
    exact h.pool hlisted color hrange

theorem Painted.setVote (h : client.Painted own) {id : Nat} (hid : id ∈ client.playerData.keys)
    (vote : Option Nat) : (client.setVote id vote).Painted own := h.insert_known hid rfl

theorem Painted.addEntry (h : client.Painted own) {id : Nat} (hid : id ∈ client.playerData.keys) :
    (client.addEntry id).Painted own := h.insert_known hid rfl

theorem mem_keys_setVote (client : Client) (id : Nat) (vote : Option Nat) :
    id ∈ (client.setVote id vote).playerData.keys :=
  PlayerData.mem_keys_iff.mpr ⟨_, (lookup_setVote client id vote id).trans (if_pos rfl)⟩

theorem Painted.processed {id : Nat} {msg : LobbyMessage} (h : client.Painted own)
    (hknows : client.KnowsSender (.message id msg)) (hmsg : msg.Sound)
    (hprocessed : Processed client id msg client') : client'.Painted own := by
  cases hprocessed with
  | @vote vote =>
      have hid := hknows.resolve_right not_false
      exact (h.setVote hid vote).of_same rfl rfl rfl rfl rfl
  | @voteAtMaster vote =>
      have hid := hknows.resolve_right not_false
      have hvoted : ((client.setVote id vote).addVoted id).Painted own :=
        (h.setVote hid vote).of_same rfl rfl rfl rfl rfl
      exact hvoted.sendPlayerData (mem_keys_setVote client _ vote)
  | @table data =>
      have hrows : SoundRows data := hmsg
      refine ⟨h.own_lt, fun id hid => ?_, fun id hid => ?_, distinct_ofRows hrows, h.nodup,
        h.indices, fun hlisted => ?_, h.players, h.events, h.out⟩
      · obtain ⟨row, hrow, rfl, -⟩ := exists_row_of_mem_ofRows hid
        exact hrows.ids row hrow
      · obtain ⟨row, hrow, -, hcolor⟩ := exists_row_of_mem_ofRows hid
        exact hcolor ▸ hrows.colored row hrow
      -- it has taken over a table now
      · exact absurd (List.map_eq_nil_iff.mp hlisted) hrows.nonempty
  | tableAtMaster hmaster =>
      refine h.addEntry (hknows.resolve_right fun hreplaces => ?_)
      have hno : client.isMaster = .ok false := hreplaces
      rw [hmaster] at hno
      cases hno
  | other => exact h.addEntry (hknows.resolve_right not_false)

/-- A master that draws has the pool for it. -/
theorem Painted.freshPool (h : client.Painted own) (hlisted : client.history.listed = []) :
    FreshPool client.playerData client.playerColorIndices :=
  ⟨h.distinct, h.nodup, h.indices, h.pool hlisted⟩

theorem Painted.addPlayerData (h : client.Painted own) (hdraws : client.DrawsFirst)
    {playerData : PlayerData} {indices : List Nat} {added : Bool}
    (hadd : addPlayerData client.net.players client.playerData client.playerColorIndices false =
      .ok (playerData, indices, added)) :
    (client.withPlayerData playerData indices).Painted own := by
  by_cases hmissing : missing client.playerData client.net.players = []
  · rw [addPlayerData_of_missing_nil hmissing] at hadd
    obtain ⟨rfl, hrest⟩ := Prod.mk.inj (Except.ok.inj hadd)
    obtain ⟨rfl, -⟩ := Prod.mk.inj hrest
    exact h.of_same rfl rfl rfl rfl rfl
  · have hpool := (h.freshPool (hdraws hmissing)).addPlayerData hadd
    have hcompleted := (addPlayerData_eq_ok hadd).1
    refine ⟨h.own_lt, fun id hid => ?_, fun id hid => ?_, hpool.distinct, hpool.nodup,
      hpool.indices_subset, fun _ => hpool.pool, h.players, h.events, h.out⟩
    · obtain ⟨entry, hentry⟩ := PlayerData.mem_keys_iff.mp hid
      cases hold : client.playerData.lookup id with
      | some old => exact h.ids id (PlayerData.mem_keys_iff.mpr ⟨old, hold⟩)
      | none =>
          obtain ⟨⟨player, hplayer, rfl⟩, -⟩ := hcompleted.fresh id entry hentry hold
          exact h.players.2 player hplayer
    · obtain ⟨entry, hentry⟩ := PlayerData.mem_keys_iff.mp hid
      change playerData.lookup id = some entry at hentry
      change playerData.color id ≠ none
      rw [PlayerData.color_of_lookup hentry]
      cases hold : client.playerData.lookup id with
      | some old =>
          have hcolor := h.colored id (PlayerData.mem_keys_iff.mpr ⟨old, hold⟩)
          rw [PlayerData.color_of_lookup hold] at hcolor
          have hkept := hcompleted.kept id old hold
          rw [hentry] at hkept
          exact Option.some.inj hkept ▸ hcolor
      | none =>
          obtain ⟨-, color, -, rfl⟩ := hcompleted.fresh id entry hentry hold
          exact Option.some_ne_none color

theorem exists_player_of_isMaster (h : client.isMaster = .ok true) :
    ∃ player, player ∈ client.net.players := by
  cases hplayers : client.net.players with
  | nil =>
      rw [isMaster, Net.Table.isMaster, hplayers] at h
      cases h
  | cons first players => exact ⟨first, List.mem_cons_self⟩

/-- A master that has just completed its table. -/
theorem Painted.completePlayerData (h : client.Painted own)
    (hdraws : client.isMaster = .ok true → client.DrawsFirst)
    (hcomplete : client.completePlayerData = .ok client') : client'.Painted own ∧
      (client.isMaster = .ok true → ∀ player ∈ client.net.players,
        player.id ∈ client'.playerData.keys) := by
  rcases completePlayerData_cases hcomplete with
    ⟨hno, rfl⟩ | ⟨hmaster, playerData, indices, added, hadd, rfl⟩
  · refine ⟨h, fun hmaster => ?_⟩
    rw [hmaster] at hno
    cases hno
  · have hadded := h.addPlayerData (hdraws hmaster) hadd
    have hcovers (player : Net.NetPlayer) (hplayer : player ∈ client.net.players) :
        player.id ∈ playerData.keys := by
      apply PlayerData.mem_keys_iff.mpr
      exact Option.isSome_iff_exists.mp ((addPlayerData_eq_ok hadd).1.covers player hplayer)
    split
    · obtain ⟨first, hfirst⟩ := exists_player_of_isMaster hmaster
      exact ⟨hadded.sendPlayerData (hcovers first hfirst), fun _ => hcovers⟩
    · exact ⟨hadded, fun _ => hcovers⟩

theorem Painted.pressVote (h : client.Painted own) (hpress : client.pressVote = .ok client') :
    client'.Painted own := by
  obtain ⟨playerId, entry, vote, -, hentry, hclient'⟩ := pressVote_eq_ok hpress
  have hset := h.setVote (PlayerData.mem_keys_iff.mpr ⟨entry, hentry⟩) (some vote)
  have hclicked : (client.click playerId vote).Painted own := hset.of_same rfl rfl rfl rfl rfl
  rcases hclient' with ⟨-, rfl⟩ | ⟨-, rfl⟩
  · exact hclicked.sendPlayerData (mem_keys_setVote client playerId (some vote))
  · exact ⟨hclicked.own_lt, hclicked.ids, hclicked.colored, hclicked.distinct, hclicked.nodup,
      hclicked.indices, hclicked.pool, hclicked.players, hclicked.events,
      forall_out_sendMessage hclicked.out trivial⟩

/-- After the rest of a master's tick everybody who is listed has an entry. -/
theorem Painted.finishTick (h : client.Painted own)
    (hdraws : client.isMaster = .ok true → client.DrawsFirst)
    (hfinish : client.finishTick games buttons = .ok client') : client'.Painted own ∧
      (client.isMaster = .ok true → ∀ player ∈ client.net.players,
        player.id ∈ client'.playerData.keys) := by
  obtain ⟨completed, startHidden, selectedGame, pressed, selectedGame', hcompleted, hpressed,
    rfl⟩ := finishTick_eq_ok hfinish
  obtain ⟨hpainted, hcovers⟩ := h.completePlayerData hdraws hcompleted
  have hshown : (completed.withButtons startHidden selectedGame).Painted own :=
    hpainted.of_same rfl rfl rfl rfl rfl
  have hafter : pressed.Painted own ∧
      ∀ id ∈ completed.playerData.keys, id ∈ pressed.playerData.keys := by
    rcases hpressed with rfl | hpressed
    · exact ⟨hshown, fun _ hid => hid⟩
    · refine ⟨hshown.pressVote hpressed, fun id hid => ?_⟩
      obtain ⟨playerId, entry, vote, -, hentry, hclient'⟩ := pressVote_eq_ok hpressed
      have hknown := PlayerData.mem_keys_iff.mpr ⟨entry, hentry⟩
      rcases hclient' with ⟨-, rfl⟩ | ⟨-, rfl⟩ <;>
        exact (keys_insert_known hknown _ id).mpr hid
  exact ⟨hafter.1.of_same rfl rfl rfl rfl rfl,
    fun hmaster player hplayer => hafter.2 _ (hcovers hmaster player hplayer)⟩

/-- The client knows the sender of the message it takes next, and if it ends a master's tick it
draws only as a first master. -/
structure KeepsColors (client : Client) : Prop where
  knows : ∀ event ∈ client.net.events.head?, client.KnowsSender event
  draws : client.scene = .lobby → client.net.events = [] → client.isMaster = .ok true →
    client.DrawsFirst

theorem Painted.updated (h : client.Painted own) (hkeeps : client.KeepsColors)
    (hupdated : Updated games buttons client client') : client'.Painted own := by
  have hpopped {event : Net.NetEvent LobbyMessage} {events : List (Net.NetEvent LobbyMessage)}
      (hevents : client.net.events = event :: events) :
      event.Sound ∧ (client.popEvent events).Painted own := by
    have hsound := h.events
    rw [hevents] at hsound
    obtain ⟨hevent, hrest⟩ := List.forall_mem_cons.mp hsound
    exact ⟨hevent, h.own_lt, h.ids, h.colored, h.distinct, h.nodup, h.indices, h.pool, h.players,
      hrest, h.out⟩
  cases hupdated with
  | wait => exact h.send
  | enter _ hevents | skip _ hevents =>
      obtain ⟨-, hpop⟩ := hpopped hevents
      exact hpop.of_same rfl rfl rfl rfl rfl
  | @message playerId msg events _ _ hevents hprocessed =>
      obtain ⟨⟨-, hmsg⟩, hpop⟩ := hpopped hevents
      have hgoOn : (client.popEvent events).goOn.Painted own := hpop.of_same rfl rfl rfl rfl rfl
      have hknows : client.KnowsSender (.message playerId msg) :=
        hkeeps.knows _ (by rw [hevents]; rfl)
      refine hgoOn.processed ?_ hmsg hprocessed
      cases msg <;> exact hknows
  | finish hscene hevents hfinish =>
      exact (h.send.finishTick (fun hmaster => hkeeps.draws hscene hevents hmaster) hfinish).1

/-! ### Running out -/

theorem ends_isMaster_any : Ends client.isMaster (fun _ => True)
    fun error => ¬error.OutOfColors := by
  cases hplayers : client.net.players with
  | nil =>
      rw [isMaster, Net.Table.isMaster, hplayers]
      exact id
  | cons first players =>
      rw [isMaster_of_eq hplayers]
      trivial

/-- A master that draws has a color for everybody. -/
theorem Painted.exists_addPlayerData (h : client.Painted own) (hdraws : client.DrawsFirst) :
    ∃ result, Client.addPlayerData client.net.players client.playerData
      client.playerColorIndices false = .ok result := by
  by_cases hmissing : missing client.playerData client.net.players = []
  · exact ⟨_, addPlayerData_of_missing_nil hmissing false⟩
  · apply ChatGames.exists_addPlayerData h.players.1
    exact length_missing_le h.players h.ids fun color hcolor =>
      (h.pool (hdraws hmissing) color hcolor).mpr

theorem Painted.ends_completePlayerData (h : client.Painted own)
    (hdraws : client.isMaster = .ok true → client.DrawsFirst) :
    Ends client.completePlayerData (fun _ => True) fun error => ¬error.OutOfColors := by
  refine ends_isMaster_any.bind fun master hmaster _ => ?_
  cases master with
  | false => exact ends_ok trivial
  | true =>
      obtain ⟨result, hadd⟩ := h.exists_addPlayerData (hdraws hmaster)
      rw [if_pos rfl, hadd]
      change Ends (if result.2.2 then _ else _) _ _
      split <;> exact ends_ok trivial

theorem ends_pressVote_any : Ends client.pressVote (fun _ => True)
    fun error => ¬error.OutOfColors := by
  rw [pressVote]
  split
  · exact ends_error id
  · refine ends_isMaster_any.bind fun master _ _ => ?_
    split <;> exact ends_ok trivial

theorem Painted.ends_finishTick (h : client.Painted own)
    (hdraws : client.isMaster = .ok true → client.DrawsFirst) :
    Ends (client.finishTick games buttons) (fun _ => True) fun error => ¬error.OutOfColors := by
  refine (h.ends_completePlayerData hdraws).bind fun completed _ _ => ?_
  have hlayout : Ends (completed.layout games) (fun _ => True)
      fun error => ¬error.OutOfColors := by
    rw [layout]
    split
    · exact ends_error id
    · exact ends_ok trivial
  refine hlayout.bind fun laidOut _ _ => ?_
  have hshow : Ends (laidOut.showStart games) (fun _ => True) fun error => ¬error.OutOfColors :=
    (ends_masterVoteFinished ends_isMaster_any fun _ => id).bind fun _ _ _ => ends_ok trivial
  refine hshow.bind fun shown _ _ => ?_
  have hpress : Ends (if buttons.vote then (shown.selectGame games buttons).pressVote
      else .ok (shown.selectGame games buttons)) (fun _ => True)
        fun error => ¬error.OutOfColors := by
    split
    · exact ends_pressVote_any
    · exact ends_ok trivial
  exact hpress.bind fun _ _ _ => ends_ok trivial

theorem ends_processMessage_any (playerId : Nat) (msg : LobbyMessage) :
    Ends (client.processMessage playerId msg) (fun _ => True) fun error => ¬error.OutOfColors := by
  cases msg with
  | vote vote =>
      refine Ends.bind ends_isMaster_any fun master _ _ => ?_
      split <;> exact ends_ok trivial
  | updatePlayerData data =>
      refine Ends.bind ends_isMaster_any fun master _ _ => ?_
      split <;> exact ends_ok trivial
  | other => exact ends_ok trivial

theorem Painted.ends_update {frames : List (Net.Frame LobbyMessage)}
    (h : (client.receive frames).Painted own) (hkeeps : (client.receive frames).KeepsColors) :
    Ends (client.update games frames buttons) (fun _ => True) fun error => ¬error.OutOfColors := by
  cases hevents : (client.receive frames).net.events with
  | nil =>
      rw [update_of_nil hevents]
      have hsent : (client.receive frames).send.Painted own := h.send
      cases hscene : (client.receive frames).scene with
      | waitForJoin =>
          have hwaits : (client.receive frames).send.scene = .waitForJoin := hscene
          rw [sceneUpdate_waitForJoin hwaits]
          exact ends_ok trivial
      | lobby =>
          have hlobby : (client.receive frames).send.scene = .lobby := hscene
          rw [sceneUpdate_lobby hlobby]
          exact hsent.ends_finishTick fun hmaster => hkeeps.draws hscene hevents hmaster
  | cons event events =>
      rw [update_of_cons hevents]
      cases hscene : (client.receive frames).scene with
      | waitForJoin =>
          have hwaits : ((client.receive frames).popEvent events).scene = .waitForJoin := hscene
          rw [sceneUpdate_waitForJoin hwaits]
          cases event with
          | lobbyJoined => exact ends_ok trivial
          | lobbyUpdated | message => exact ends_error id
      | lobby =>
          have hlobby : ((client.receive frames).popEvent events).scene = .lobby := hscene
          rw [sceneUpdate_lobby hlobby]
          cases event with
          | lobbyJoined | lobbyUpdated => exact ends_ok trivial
          | message playerId msg => exact ends_processMessage_any playerId msg

/-! ### After a master's tick -/

/-- The listed players have colors, and different ones. -/
def DrawsDistinct (client : Client) : Prop :=
  (client.net.players.map fun player => client.playerData.color player.id).Nodup ∧
    ∀ player ∈ client.net.players, client.playerData.color player.id ≠ none

theorem Painted.drawsDistinct (h : client.Painted own)
    (hcolored : ∀ player ∈ client.net.players, client.playerData.color player.id ≠ none) :
    client.DrawsDistinct := by
  refine ⟨List.pairwise_map.mpr ?_, hcolored⟩
  refine (List.pairwise_map.mp h.players.1).imp_of_mem fun {player other} hplayer _ hne heq => ?_
  obtain ⟨color, hcolor⟩ := Option.ne_none_iff_exists'.mp (hcolored player hplayer)
  exact hne (h.distinct player.id other.id color hcolor (heq.symm.trans hcolor))

theorem Painted.drawsDistinct_finishTick (h : client.Painted own) (hdraws : client.DrawsFirst)
    (hmaster : client.isMaster = .ok true)
    (hfinish : client.finishTick games buttons = .ok client') : client'.DrawsDistinct := by
  obtain ⟨hpainted, hcovers⟩ := h.finishTick (fun _ => hdraws) hfinish
  apply hpainted.drawsDistinct
  rw [net_of_finishTick hfinish]
  exact fun player hplayer => hpainted.colored player.id (hcovers hmaster player hplayer)

end Client

/-! ### Rooms -/

namespace OpenRoom

variable {Sid : Type} {s s' : OpenRoom Sid} {C : Sid} {games : List Game} {buttons : Buttons}
  {count : Nat}

/-- There are never more than twelve members, nobody processes a message of a player it has no
entry for, unless it is a table that it takes over, and a master that draws a color has taken over
no table. -/
def KeepsColors (s : OpenRoom Sid) : OpenRoomEvent Sid → Prop
  | .join _ _ => s.lobby.players.length < numPlayerColors
  | .update C count _ =>
      (∀ event ∈ (s.arrived C count).net.events.head?, (s.arrived C count).KnowsSender event) ∧
        (s.EndsMasterTick C count → (s.arrived C count).DrawsFirst)
  | _ => True

instance decidableKeepsColors (s : OpenRoom Sid) : ∀ e, Decidable (s.KeepsColors e)
  | .join _ _ => inferInstanceAs (Decidable (_ < _))
  | .update C count _ => inferInstanceAs (Decidable ((∀ event ∈
      (s.arrived C count).net.events.head?, (s.arrived C count).KnowsSender event) ∧ (_ → _)))
  | .leave _ | .relay _ | .post _ => inferInstanceAs (Decidable True)

def Bounded (s : OpenRoom Sid) : Prop := ∀ player ∈ s.lobby.players, player.id < numPlayerColors

theorem localRules_painted :
    LocalRules (fun own client => client.Painted own) fun _ frame => frame.Sound where
  welcomed lobbyId id := trivial
  relayed id client msg sent h hsent := by
    have hout := h.out
    rw [Client.out_of_sent hsent] at hout
    obtain ⟨hmsg, hrest⟩ := List.forall_mem_cons.mp hout
    exact ⟨{ h with out := hrest }, fun _ => ⟨h.own_lt, hmsg⟩⟩
  received id client frames h hframes := by
    refine { h with players := ?_, events := ?_ }
    · change SoundList (client.net.receive frames).players
      rcases Net.Table.players_receive client.net frames with hsame | hmem
      · rw [hsame]
        exact h.players
      · exact hframes _ hmem
    · refine Net.Table.forall_events_receive h.events fun frame hframe => ?_
      have hsound := hframes frame hframe
      cases frame with
      | relayMessage id msg => exact hsound
      | lobbyJoined | updateLobby => trivial

theorem soundList_listing (hvalid : s.lobby.Valid) (hbounded : s.Bounded) :
    SoundList (Net.listing s.lobby.players) := by
  constructor
  · rw [Net.listing, List.map_map]
    exact hvalid.ids_sorted.imp fun hlt => Nat.ne_of_lt hlt
  · intro player hplayer
    obtain ⟨player', hplayer', rfl⟩ := List.mem_map.mp hplayer
    exact hbounded player' hplayer'

variable [DecidableEq Sid]

/-- The lowest free id is at most the number of members. -/
theorem Bounded.step {e : OpenRoomEvent Sid} (h : s.Bounded) (hs : s.Coherent)
    (hcond : s.KeepsColors e) (hstep : s.step games e = some s') : s'.Bounded := by
  cases e with
  | join C playerName =>
      obtain ⟨-, id, lobby, hadded, rfl⟩ := join_eq_some hs.valid hstep
      have hroom : s.lobby.players.length < numPlayerColors := hcond
      have hid : id ≤ s.lobby.players.length := by
        have hgap := firstGap_le 0 s.lobby.ids
        rw [hadded.least.unique (isLeast_firstGap hs.valid.ids_sorted)]
        rwa [Nat.zero_add, Lobby.ids, List.length_map] at hgap
      intro player hplayer
      rcases List.mem_cons.mp (hadded.perm.mem_iff.mp hplayer) with rfl | hold
      · exact Nat.lt_of_le_of_lt hid hroom
      · exact h player hold
  | leave C =>
      obtain ⟨id, -, -, -, hplayers, -⟩ := leave_eq_some hs.valid hstep
      intro player hplayer
      rw [hplayers] at hplayer
      exact h player (List.mem_filter.mp hplayer).1
  | relay C =>
      obtain ⟨room, hroom, rfl⟩ := Option.map_eq_some_iff.mp hstep
      obtain ⟨_, _, _, -, -, -, rfl⟩ := Room.relay_eq_some hroom
      exact h
  | post C =>
      obtain ⟨room, hroom, rfl⟩ := Option.map_eq_some_iff.mp hstep
      obtain ⟨_, _, _, -, rfl⟩ := Room.post_eq_some hroom
      exact h
  | update C count buttons =>
      obtain ⟨room, hroom, rfl⟩ := Option.map_eq_some_iff.mp hstep
      obtain ⟨_, -, rfl⟩ := update_eq_some hroom
      exact h

/-- What a run keeps whose steps keep the colors. -/
structure Painted (s : OpenRoom Sid) : Prop where
  coherent : s.Coherent
  bounded : s.Bounded
  clients : s.Local (fun own client => client.Painted own) fun _ frame => frame.Sound

omit [DecidableEq Sid] in
theorem painted_init (lobbyName : Bytes) (colors : Sid → ShuffledColors) :
    (init lobbyName colors).Painted where
  coherent := coherent_init lobbyName colors
  bounded player h := by cases h
  clients := local_init lobbyName colors

omit [DecidableEq Sid] in
theorem keepsColors (hmember : s.playerId C ≠ none)
    (hcond : s.KeepsColors (.update C count buttons)) : (s.arrived C count).KeepsColors :=
  ⟨hcond.1, fun hscene hevents hmaster => hcond.2 ⟨hmember, hscene, hevents, hmaster⟩⟩

theorem Painted.step {e : OpenRoomEvent Sid} (h : s.Painted) (hcond : s.KeepsColors e)
    (hstep : s.step games e = some s') : s'.Painted := by
  have hcoherent := h.coherent.step hstep
  have hbounded := h.bounded.step h.coherent hcond hstep
  refine ⟨hcoherent, hbounded, h.clients.step localRules_painted h.coherent hstep ?_ ?_ ?_⟩
  · intro D id colors hD
    obtain ⟨player, hplayer, rfl, -⟩ := (hcoherent.member D id).mp hD
    exact Client.painted_init colors (hbounded player hplayer)
  · exact fun _ => soundList_listing hcoherent.valid hbounded
  · rintro C count buttons rfl id client' hC harrived hupdated -
    have hmember : s.playerId C ≠ none := by simp [hC]
    exact harrived.updated (keepsColors hmember hcond) hupdated

theorem painted {lobbyName : Bytes} {colors : Sid → ShuffledColors}
    (h : (openRoomSystem games lobbyName colors).ReachableWhile KeepsColors s) : s.Painted :=
  h.invariant Painted (painted_init lobbyName colors) fun _ _ _ hs hcond hstep =>
    hs.step hcond hstep

/-- **Colors.** In a run with never more than twelve members, in which nobody processes a message of
a player it has no entry for and no master draws a color that has taken over a table, no member runs
out of colors, and after every master's tick the listed players have different ones. -/
theorem colors_distinct {lobbyName : Bytes} {colors : Sid → ShuffledColors}
    (h : (openRoomSystem games lobbyName colors).ReachableWhile KeepsColors s)
    (hmember : s.playerId C ≠ none) (hcond : s.KeepsColors (.update C count buttons)) :
    (∀ text, (s.clients C).update games ((s.inbox C).take count) buttons ≠
      .error (.outOfColors text)) ∧
    ∀ s', s.EndsMasterTick C count → s.step games (.update C count buttons) = some s' →
      (s'.clients C).DrawsDistinct := by
  have hs := painted h
  obtain ⟨own, hC⟩ := Option.ne_none_iff_exists'.mp hmember
  have harrived := hs.clients.arrived localRules_painted hC count
  constructor
  · intro text herror
    have hends : Ends ((s.clients C).update games ((s.inbox C).take count) buttons)
        (fun _ => True) fun error => ¬error.OutOfColors :=
      Client.Painted.ends_update harrived (keepsColors hmember hcond)
    rw [herror] at hends
    exact hends trivial
  · intro s' htick hstep
    obtain ⟨hmaster, hfinish⟩ := htick.finishTick hstep
    exact harrived.send.drawsDistinct_finishTick (hcond.2 htick) hmaster hfinish

/-- The second player takes over two tables and votes, and the master processes the vote and leaves.
A third player gets its id, so that it is the master now. -/
def newcomerLeads {Sid : Type} (A B C : Sid) : List (OpenRoomEvent Sid) :=
  let idle : Buttons := ⟨[], false, false⟩
  [.join A [97], .update A 2 idle, .update A 0 idle, .update A 0 idle, .join B [98],
    .update B 2 idle, .update B 0 idle, .update A 1 idle, .update A 0 idle, .update A 0 idle,
    .relay A, .post A, .relay A, .post A, .update B 2 idle, .update B 0 idle,
    .update B 0 ⟨[], true, false⟩, .update B 0 idle, .relay B, .post B, .update A 1 idle,
    .leave A, .join C [99], .update C 2 idle, .update C 0 idle]

theorem colors_distinct_newcomer :
    ∃ (colors : Fin 3 → ShuffledColors) (s s' : OpenRoom (Fin 3)),
      (openRoomSystem [⟨1, 4⟩, ⟨1, 4⟩] [120] colors).runWhile KeepsColors (newcomerLeads 0 1 2) =
        some s ∧
      s.step [⟨1, 4⟩, ⟨1, 4⟩] (.update 2 0 ⟨[], false, false⟩) = some s' ∧
      (s'.clients 2).net.players.length = 2 ∧ (s'.clients 2).DrawsDistinct := by
  let colors : Fin 3 → ShuffledColors := fun _ => ⟨List.range' 1 numPlayerColors, .refl _⟩
  have hrun : ((openRoomSystem [⟨1, 4⟩, ⟨1, 4⟩] [120] colors).runWhile KeepsColors
      (newcomerLeads 0 1 2)).any (fun s =>
        decide (s.KeepsColors (.update 2 0 ⟨[], false, false⟩) ∧ s.EndsMasterTick 2 0) &&
          (s.step [⟨1, 4⟩, ⟨1, 4⟩] (.update 2 0 ⟨[], false, false⟩)).any fun s' =>
            decide ((s'.clients 2).net.players.length = 2)) = true := by
    decide +kernel
  obtain ⟨s, s', hs, ⟨hcond, htick⟩, hstep, hplayers⟩ :=
    TransitionSystem.exists_step_of_any (openRoomSystem [⟨1, 4⟩, ⟨1, 4⟩] [120] colors)
      (.update 2 0 ⟨[], false, false⟩) hrun
  have hreachable := TransitionSystem.reachableWhile_of_runWhile hs
  exact ⟨colors, s, s', hs, hstep, hplayers,
    (colors_distinct hreachable htick.1 hcond).2 s' htick hstep⟩

/-- The second player gets its color from the first one's pool. A third one joins, and the first one
leaves before it knows. -/
def masterLeaves {Sid : Type} (A B C : Sid) : List (OpenRoomEvent Sid) :=
  let idle : Buttons := ⟨[], false, false⟩
  [.join A [97], .update A 2 idle, .update A 0 idle, .update A 0 idle, .join B [98],
    .update B 2 idle, .update B 0 idle, .update A 1 idle, .update A 0 idle, .update A 0 idle,
    .relay A, .post A, .relay A, .post A, .update B 2 idle, .update B 0 idle, .join C [99],
    .leave A, .update B 2 idle, .update B 0 idle]

/-- The second player's own pool still has its color, and gives it to the third one. -/
theorem not_colors_distinct :
    ∃ (colors : Fin 3 → ShuffledColors) (s s' : OpenRoom (Fin 3)),
      (openRoomSystem [⟨1, 4⟩, ⟨1, 4⟩] [120] colors).run (masterLeaves 0 1 2) = some s ∧
      s.EndsMasterTick 1 0 ∧
      s.step [⟨1, 4⟩, ⟨1, 4⟩] (.update 1 0 ⟨[], false, false⟩) = some s' ∧
      ¬(s'.clients 1).DrawsDistinct := by
  let colors : Fin 3 → ShuffledColors := fun C =>
    if C = 0 then ⟨List.range' 1 numPlayerColors, .refl _⟩
    else ⟨[1, 2, 3, 4, 5, 6, 7, 8, 9, 10, 12, 11], by decide⟩
  have hrun : ((openRoomSystem [⟨1, 4⟩, ⟨1, 4⟩] [120] colors).run
      (masterLeaves 0 1 2)).any (fun s => decide (s.EndsMasterTick 1 0) &&
        (s.step [⟨1, 4⟩, ⟨1, 4⟩] (.update 1 0 ⟨[], false, false⟩)).any fun s' =>
          decide (((s'.clients 1).net.players.map fun player =>
            (s'.clients 1).playerData.color player.id) = [some 11, some 11])) = true := by
    decide +kernel
  obtain ⟨s, s', hs, htick, hstep, hcolors⟩ :=
    TransitionSystem.exists_step_of_any (openRoomSystem [⟨1, 4⟩, ⟨1, 4⟩] [120] colors)
      (.update 1 0 ⟨[], false, false⟩) hrun
  refine ⟨colors, s, s', hs, htick, hstep, fun h => ?_⟩
  have hnodup := h.1
  rw [hcolors] at hnodup
  simp at hnodup

end OpenRoom

end ChatGames
