import ChatGames.Proof.SceneSteps
import ChatGames.Library.TransitionSystem

/-!
# Who can overwrite whose entry

A message of a player may change that player's vote at its peers, and nothing else. A vote keeps to
that. For a table `processMessage` asks whether the receiver is the master, not whether the sender
is: at any other peer the table of any member replaces all entries.
-/

namespace ChatGames.Client

variable {client client' : Client} {playerId : Nat}

/-- From `before` to `after` at most the vote of that player changed, or it got an entry. -/
structure Confined (playerId : Nat) (before after : PlayerData) : Prop where
  others : ∀ id, id ≠ playerId → after.lookup id = before.lookup id
  sender : after.lookup playerId = before.lookup playerId ∨
    ∃ vote, after.lookup playerId = some { before.entry playerId with vote := vote }

/-- The rows say what the receiver has, but for the vote of their sender. -/
structure Repeats (playerId : Nat) (data : List PlayerRow) (playerData : PlayerData) : Prop where
  others : ∀ id, id ≠ playerId →
    (PlayerData.lastRow data id).map (fun row => ⟨row.color, row.vote⟩) = playerData.lookup id
  sender : match PlayerData.lastRow data playerId with
    | some row => row.color = (playerData.entry playerId).color
    | none => playerData.lookup playerId = none

/-- The message is no table, or one that is ignored or repeats what the receiver has. -/
def Respects (client : Client) (playerId : Nat) (msg : LobbyMessage) : Prop :=
  ∀ data, msg = .updatePlayerData data →
    client.isMaster = .ok true ∨ Repeats playerId data client.playerData

/-! ### One message -/

theorem confined_insert (playerData : PlayerData) (vote : Option Nat) :
    Confined playerId playerData
      (playerData.insert playerId { playerData.entry playerId with vote := vote }) where
  others _ hid := AList.lookup_insert_ne hid
  sender := Or.inr ⟨vote, AList.lookup_insert playerData⟩

theorem confined_ofRows_iff {data : List PlayerRow} {playerData : PlayerData} :
    Confined playerId playerData (.ofRows data) ↔ Repeats playerId data playerData := by
  constructor
  · intro h
    constructor
    · intro id hid
      rw [← h.others id hid, PlayerData.lookup_ofRows]
    · have hsender := h.sender
      rw [PlayerData.lookup_ofRows] at hsender
      cases hrow : PlayerData.lastRow data playerId with
      | none =>
          rw [hrow] at hsender
          rcases hsender with hsame | ⟨vote, hvote⟩
          · exact hsame.symm
          · cases hvote
      | some row =>
          rw [hrow] at hsender
          rcases hsender with hsame | ⟨vote, hvote⟩
          · rw [PlayerData.entry, ← hsame]
            rfl
          · exact congrArg PlayerEntry.color (Option.some.inj hvote)
  · intro h
    constructor
    · intro id hid
      rw [PlayerData.lookup_ofRows, h.others id hid]
    · have hsender := h.sender
      rw [PlayerData.lookup_ofRows]
      cases hrow : PlayerData.lastRow data playerId with
      | none =>
          rw [hrow] at hsender
          exact Or.inl hsender.symm
      | some row =>
          rw [hrow] at hsender
          have hcolor : row.color = (playerData.entry playerId).color := hsender
          refine Or.inr ⟨row.vote, ?_⟩
          change some (PlayerEntry.mk row.color row.vote) =
            some ⟨(playerData.entry playerId).color, row.vote⟩
          rw [hcolor]

theorem Processed.respects_iff {msg : LobbyMessage} (h : Processed client playerId msg client') :
    Confined playerId client.playerData client'.playerData ↔ client.Respects playerId msg := by
  cases h with
  | vote | voteAtMaster =>
      exact iff_of_true (confined_insert _ _) fun data hdata => by cases hdata
  | other => exact iff_of_true (confined_insert _ _) fun data hdata => by cases hdata
  | tableAtMaster hmaster => exact iff_of_true (confined_insert _ _) fun _ _ => Or.inl hmaster
  | @table data hmaster =>
      change Confined playerId client.playerData (.ofRows data) ↔ _
      rw [confined_ofRows_iff]
      constructor
      · intro hrepeats data' hdata
        cases hdata
        exact Or.inr hrepeats
      · intro hrespects
        rcases hrespects data rfl with hyes | hrepeats
        · rw [hmaster] at hyes
          cases hyes
        · exact hrepeats

/-! ### A sequence of messages -/

/-- A client that processes one relayed message after the other. -/
def relaySystem (client : Client) : TransitionSystem Client (Nat × LobbyMessage) where
  init := client
  step client msg := (client.processMessage msg.1 msg.2).toOption

theorem Confined.color_eq {before after : PlayerData} (h : Confined playerId before after)
    (id : Nat) : (after.entry id).color = (before.entry id).color := by
  by_cases hid : id = playerId
  · subst hid
    rcases h.sender with hsame | ⟨vote, hvote⟩
    · rw [PlayerData.entry, hsame, ← PlayerData.entry]
    · rw [PlayerData.entry, hvote]
      rfl
  · rw [PlayerData.entry, h.others id hid, ← PlayerData.entry]

/-- What a whole sequence of messages leaves alone when every one of them respects the entries. -/
theorem frame_of_throughout {messages : List (Nat × LobbyMessage)} (start : Client)
    (hrun : (relaySystem start).runFrom client messages = some client')
    (hrespects : (relaySystem start).Throughout (fun client msg => client.Respects msg.1 msg.2)
      client messages) (id : Nat) :
    ((∀ msg ∈ messages, msg.1 ≠ id) →
        client'.playerData.lookup id = client.playerData.lookup id) ∧
      (client'.playerData.entry id).color = (client.playerData.entry id).color := by
  induction messages generalizing client with
  | nil =>
      obtain rfl : client = client' := Option.some.inj hrun
      exact ⟨fun _ => rfl, rfl⟩
  | cons msg messages ih =>
      obtain ⟨between, hstep, hrun⟩ := TransitionSystem.runFrom_cons_eq_some.mp hrun
      obtain ⟨hmsg, hrest⟩ := hrespects
      have hprocessed : Processed client msg.1 msg.2 between := by
        change (client.processMessage msg.1 msg.2).toOption = some between at hstep
        cases hprocess : client.processMessage msg.1 msg.2 with
        | error error => rw [hprocess] at hstep; cases hstep
        | ok processed =>
            rw [hprocess] at hstep
            obtain rfl : processed = between := Option.some.inj hstep
            exact processed_of_eq hprocess
      have hconfined := hprocessed.respects_iff.mpr hmsg
      obtain ⟨hlookup, hcolor⟩ := ih hrun (hrest between hstep)
      constructor
      · intro hsenders
        rw [hlookup fun msg' hmsg' => hsenders msg' (List.mem_cons_of_mem _ hmsg'),
          hconfined.others id (hsenders msg List.mem_cons_self).symm]
      · rw [hcolor, hconfined.color_eq]

/-- **Who can overwrite whose entry.** A message of a player that is not the master changes at most
its vote exactly when it respects the other entries, and a sequence of such messages leaves alone
the entries of all others and every color. -/
theorem confined_iff (client : Client) (hplayers : client.net.players ≠ []) :
    (∀ playerId msg, client.net.isMaster (some playerId) = .ok false →
        ∃ client', client.processMessage playerId msg = .ok client' ∧
          (Confined playerId client.playerData client'.playerData ↔
            client.Respects playerId msg)) ∧
      ∀ messages client', (∀ msg ∈ messages, client.net.isMaster (some msg.1) = .ok false) →
        (relaySystem client).run messages = some client' →
          (relaySystem client).Throughout (fun client msg => client.Respects msg.1 msg.2)
              client messages →
            ∀ id, ((∀ msg ∈ messages, msg.1 ≠ id) →
                client'.playerData.lookup id = client.playerData.lookup id) ∧
              (client'.playerData.entry id).color = (client.playerData.entry id).color := by
  constructor
  · intro playerId msg _
    obtain ⟨client', hprocess⟩ := exists_processMessage hplayers playerId msg
    exact ⟨client', hprocess, (processed_of_eq hprocess).respects_iff⟩
  · intro messages client' _ hrun hrespects id
    exact frame_of_throughout client hrun hrespects id

/-- The last of three members, all of which have colors. -/
def lastOfThree : Client :=
  { Client.init [] with
    scene := .lobby
    net := ⟨some 2, some [120], [⟨0, [97]⟩, ⟨1, [98]⟩, ⟨2, [99]⟩], []⟩
    playerData := .ofRows [⟨0, some 3, none⟩, ⟨1, some 5, none⟩, ⟨2, some 7, none⟩] }

theorem confined_iff_vote : ∃ client', lastOfThree.processMessage 1 (.vote (some 2)) = .ok client' ∧
    Confined 1 lastOfThree.playerData client'.playerData := by
  obtain ⟨hmessage, -⟩ := confined_iff lastOfThree (by decide)
  obtain ⟨client', hprocess, hiff⟩ := hmessage 1 (.vote (some 2)) rfl
  exact ⟨client', hprocess, hiff.mpr fun data hdata => by cases hdata⟩

/-- The table of the second member takes the entry of the first. -/
theorem not_confined : ¬∀ (client client' : Client) (playerId : Nat) (msg : LobbyMessage),
    client.net.players ≠ [] → client.net.isMaster (some playerId) = .ok false →
      client.processMessage playerId msg = .ok client' →
        Confined playerId client.playerData client'.playerData := by
  intro h
  have hrespects := h lastOfThree (lastOfThree.replacePlayerData [⟨1, some 5, some 2⟩]) 1
    (.updatePlayerData [⟨1, some 5, some 2⟩]) (by decide) rfl rfl
  have hlookup := hrespects.others 0 (by decide)
  exact absurd hlookup (by decide)

end ChatGames.Client
