import ChatGames.LobbyScene

/-!
# What a scene does with the queues

A scene appends to `sendQueue` and reads neither `sendQueue` nor `sent`, so that it can be run with
both of them empty, and what it sends can be packed when it is done.
-/

namespace ChatGames.Client

/-- The client with messages in front of those it sends. -/
def behind (sendQueue sent : List LobbyMessage) (client : Client) : Client :=
  { client with
    sendQueue := sendQueue ++ client.sendQueue
    sent := sent }

variable {games : List Game} {buttons : Buttons} {sendQueue sent : List LobbyMessage}
  (client : Client)

theorem sendMessage_behind (msg : LobbyMessage) : (client.behind sendQueue sent).sendMessage msg =
    (client.sendMessage msg).behind sendQueue sent := by
  simp [sendMessage, behind]

theorem sendPlayerData_behind : (client.behind sendQueue sent).sendPlayerData =
    client.sendPlayerData.behind sendQueue sent := sendMessage_behind client _

theorem sendVote_behind (vote : Nat) : (client.behind sendQueue sent).sendVote vote =
    (client.sendVote vote).behind sendQueue sent := sendMessage_behind client _

theorem bind_behind {α : Type} {x : Except SceneError α}
    {rest rest' : α → Except SceneError Client}
    (h : ∀ a, rest' a = (rest a).map (behind sendQueue sent)) :
    x >>= rest' = (x >>= rest).map (behind sendQueue sent) := by
  cases x with
  | error err => rfl
  | ok a => exact h a

theorem processMessage_behind (playerId : Nat) (msg : LobbyMessage) :
    (client.behind sendQueue sent).processMessage playerId msg =
      (client.processMessage playerId msg).map (behind sendQueue sent) := by
  cases msg with
  | vote vote =>
      refine bind_behind fun master => ?_
      cases master with
      | true =>
          exact congrArg Except.ok (sendPlayerData_behind
            { (client.addEntry playerId).setVote playerId vote with
              history.voted := client.history.voted ++ [playerId] })
      | false => rfl
  | updatePlayerData data =>
      refine bind_behind fun master => ?_
      cases master <;> rfl
  | other => rfl

theorem completePlayerData_behind : (client.behind sendQueue sent).completePlayerData =
    client.completePlayerData.map (behind sendQueue sent) := by
  refine bind_behind fun master => ?_
  cases master with
  | false => rfl
  | true =>
      refine bind_behind fun completed => ?_
      obtain ⟨playerData, indices, added⟩ := completed
      cases added with
      | true =>
          exact congrArg Except.ok (sendPlayerData_behind
            { client with
              playerData := playerData
              playerColorIndices := indices })
      | false => rfl

theorem pressVote_behind : (client.behind sendQueue sent).pressVote =
    client.pressVote.map (behind sendQueue sent) := by
  unfold pressVote
  dsimp only [behind]
  split
  · rfl
  · rename_i playerId _
    refine bind_behind fun master => ?_
    let clicked := { client.setVote playerId (some (client.selectedGame.getD 0)) with
      history.clicked := some (client.selectedGame.getD 0) }
    cases master with
    | true => exact congrArg Except.ok (sendPlayerData_behind clicked)
    | false => exact congrArg Except.ok (sendVote_behind clicked _)

theorem bind_map_behind {x : Except SceneError Client}
    {rest rest' : Client → Except SceneError Client}
    (h : ∀ client, rest' (client.behind sendQueue sent) =
      (rest client).map (behind sendQueue sent)) :
    x.map (behind sendQueue sent) >>= rest' = (x >>= rest).map (behind sendQueue sent) := by
  cases x with
  | error err => rfl
  | ok client => exact h client

theorem layout_behind : (client.behind sendQueue sent).layout games =
    (client.layout games).map (behind sendQueue sent) := by
  unfold layout
  split <;> rfl

theorem showStart_behind : (client.behind sendQueue sent).showStart games =
    (client.showStart games).map (behind sendQueue sent) := bind_behind fun _ => rfl

theorem finishTick_behind : (client.behind sendQueue sent).finishTick games buttons =
    (client.finishTick games buttons).map (behind sendQueue sent) := by
  unfold finishTick
  rw [completePlayerData_behind]
  refine bind_map_behind fun client => ?_
  rw [layout_behind]
  refine bind_map_behind fun client => ?_
  rw [showStart_behind]
  refine bind_map_behind fun client => ?_
  have hselect : (client.behind sendQueue sent).selectGame games buttons =
      (client.selectGame games buttons).behind sendQueue sent := rfl
  dsimp only
  rw [hselect]
  generalize client.selectGame games buttons = client
  have hpress : (if buttons.vote then (client.behind sendQueue sent).pressVote
      else .ok (client.behind sendQueue sent)) =
      (if buttons.vote then client.pressVote else .ok client).map (behind sendQueue sent) := by
    split
    · exact pressVote_behind client
    · rfl
  rw [hpress]
  refine bind_map_behind fun client => ?_
  split <;> rfl

theorem sceneUpdate_behind (event : Option (Net.NetEvent LobbyMessage)) :
    (client.behind sendQueue sent).sceneUpdate games buttons event =
      (client.sceneUpdate games buttons event).map (behind sendQueue sent) := by
  have hscene : (client.behind sendQueue sent).scene = client.scene := rfl
  unfold sceneUpdate
  rw [hscene]
  cases event with
  | none =>
      cases client.scene with
      | waitForJoin => rfl
      | lobby => exact finishTick_behind client
  | some event =>
      cases client.scene with
      | waitForJoin => cases event <;> rfl
      | lobby =>
          cases event with
          | message playerId msg => exact processMessage_behind client.goOn playerId msg
          | lobbyJoined | lobbyUpdated => rfl

end ChatGames.Client
