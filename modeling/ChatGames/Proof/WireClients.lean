import ChatGames.Proof.Behind
import ChatGames.Proof.Fitting
import ChatGames.Proof.Packets
import ChatGames.WireRoom

/-!
# A client on the wire

A client with bytes does what the client with messages does: its scene is in the same state, and
what it has queued and sent are the frames of the same messages.
-/

namespace ChatGames

open Outcome

/-- The bytes are what `net.sendMessage` makes of the message. -/
def LobbyMessage.WrittenAs (msg : LobbyMessage) (bytes : Bytes) : Prop :=
  ∃ packed, packed.length < 65536 ∧ LobbyMessage.unpack packed = .ok msg ∧
    ∀ writer, bytes = Net.encodeFrame writer (.sendMessage packed)

/-- The packets are what the server sends for the frames. -/
def Net.Delivered (frames : List (Net.Frame LobbyMessage)) (packets : List Bytes) : Prop :=
  ∃ datas, List.Forall₂ (Net.SentAs LobbyMessage.unpack) frames datas ∧
    packets = datas.map packet

namespace Net

variable {frames frames' : List (Frame LobbyMessage)} {packets packets' : List Bytes}

theorem delivered_nil : Delivered [] [] := ⟨[], .nil, rfl⟩

theorem Delivered.append (h : Delivered frames packets) (h' : Delivered frames' packets') :
    Delivered (frames ++ frames') (packets ++ packets') := by
  obtain ⟨datas, hdatas, rfl⟩ := h
  obtain ⟨datas', hdatas', rfl⟩ := h'
  exact ⟨datas ++ datas', List.rel_append hdatas hdatas', (List.map_append).symm⟩

theorem Delivered.take (h : Delivered frames packets) (count : Nat) :
    Delivered (frames.take count) (packets.take count) := by
  obtain ⟨datas, hdatas, rfl⟩ := h
  exact ⟨datas.take count, List.forall₂_take count hdatas, (List.map_take).symm⟩

theorem Delivered.drop (h : Delivered frames packets) (count : Nat) :
    Delivered (frames.drop count) (packets.drop count) := by
  obtain ⟨datas, hdatas, rfl⟩ := h
  exact ⟨datas.drop count, List.forall₂_drop count hdatas, (List.map_drop).symm⟩

end Net

namespace WireClient

/-- The wire client is in the state of the client. -/
structure Represents (wire : WireClient) (client : Client) : Prop where
  client_eq : wire.client = { client with sendQueue := [], sent := [] }
  recvQueue : wire.recvQueue.Holds []
  sendQueue : List.Forall₂ LobbyMessage.WrittenAs client.sendQueue wire.sendQueue
  sent : ∃ chunks, List.Forall₂ LobbyMessage.WrittenAs client.sent chunks ∧
    wire.sent = chunks.flatten

variable {wire : WireClient} {client client' : Client} {games : List Game} {buttons : Buttons}
  {frames : List (Net.Frame LobbyMessage)} {packets : List Bytes}

theorem represents_init (indices : List Nat) : (init indices).Represents (Client.init indices) :=
  ⟨rfl, Queue.holds_new, .nil, [], .nil, rfl⟩

theorem Represents.net_eq (h : wire.Represents client) : wire.client.net = client.net := by
  rw [h.client_eq]

theorem Represents.receive (h : wire.Represents client) (tonumber : Bytes → Option Rat)
    (hframes : Net.Delivered frames packets) :
    ∃ wire', wire.receive tonumber packets = .ok wire' ∧
      wire'.Represents (client.receive frames) := by
  obtain ⟨datas, hdatas, rfl⟩ := hframes
  obtain ⟨queue, reader, hqueue, hreceive⟩ := Net.receive_packets tonumber h.recvQueue hdatas
    ⟨wire.reader, wire.client.net⟩
  refine ⟨_, bind_eq_ok.mpr ⟨_, hreceive, rfl⟩, ?_, hqueue, h.sendQueue, h.sent⟩
  rw [h.client_eq]
  rfl

theorem Represents.send (h : wire.Represents client) : wire.send.Represents client.send := by
  obtain ⟨chunks, hchunks, hsent⟩ := h.sent
  refine ⟨h.client_eq, h.recvQueue, .nil, chunks ++ wire.sendQueue,
    List.rel_append hchunks h.sendQueue, ?_⟩
  rw [List.flatten_append, ← hsent]
  rfl

theorem Represents.popEvent (h : wire.Represents client)
    (events : List (Net.NetEvent LobbyMessage)) :
    { wire with client := wire.client.popEvent events }.Represents (client.popEvent events) := by
  refine ⟨?_, h.recvQueue, h.sendQueue, h.sent⟩
  rw [h.client_eq]
  rfl

/-! ### What a scene sends -/

/-- Messages that fit are packed and queued. -/
theorem foldlM_sendMessage {msgs : List LobbyMessage} (h : ∀ msg ∈ msgs, msg.Fits)
    (wire : WireClient) : ∃ written, List.Forall₂ LobbyMessage.WrittenAs msgs written ∧
      msgs.foldlM sendMessage wire =
        .ok { wire with sendQueue := wire.sendQueue ++ written } := by
  induction msgs generalizing wire with
  | nil => exact ⟨[], .nil, by rw [List.append_nil]; rfl⟩
  | cons msg msgs ih =>
      obtain ⟨hmsg, hmsgs⟩ := List.forall_mem_cons.mp h
      obtain ⟨packed, hpacked, hlength, hunpack⟩ := LobbyMessage.arrives hmsg
      obtain ⟨written, hwritten, hrest⟩ := ih hmsgs { wire with
        sendQueue := wire.sendQueue ++ [Net.encodeFrame wire.writer (.sendMessage packed)] }
      refine ⟨Net.encodeFrame wire.writer (.sendMessage packed) :: written,
        .cons ⟨packed, hlength, hunpack, fun writer => rfl⟩ hwritten, ?_⟩
      have hsend : wire.sendMessage msg = .ok { wire with
          sendQueue := wire.sendQueue ++ [Net.encodeFrame wire.writer (.sendMessage packed)] } := by
        rw [sendMessage, hpacked]
        rfl
      rw [List.foldlM_cons, hsend]
      refine hrest.trans ?_
      rw [List.append_assoc, List.singleton_append]

/-- The client has its messages behind those that the wire client has queued. -/
theorem Represents.behind (h : wire.Represents client) :
    client = wire.client.behind client.sendQueue client.sent := by
  rw [h.client_eq, Client.behind, List.append_nil]

/-- The scene of a client does the same on the wire. -/
theorem Represents.scene (h : wire.Represents client) (event : Option (Net.NetEvent LobbyMessage)) :
    client.sceneUpdate games buttons event = (wire.client.sceneUpdate games buttons event).map
      (Client.behind client.sendQueue client.sent) := by
  conv_lhs => rw [h.behind]
  exact Client.sceneUpdate_behind wire.client event

/-- A scene leaves `sent` alone. -/
theorem sent_of_scene {event : Option (Net.NetEvent LobbyMessage)} (hsent : client.sent = [])
    (h : client.sceneUpdate games buttons event = .ok client') : client'.sent = [] := by
  have hsame : client = client.behind [] [] := by
    rw [Client.behind, List.nil_append, ← hsent]
  have hrun : (client.behind [] []).sceneUpdate games buttons event = _ :=
    Client.sceneUpdate_behind client event
  rw [← hsame, h] at hrun
  rw [Except.ok.inj hrun]
  rfl

theorem Represents.finish (h : wire.Represents client) {own : Client} (hsent : own.sent = [])
    (hfits : ∀ msg ∈ own.sendQueue, msg.Fits) :
    ∃ wire', wire.finish own = .ok wire' ∧
      wire'.Represents (own.behind client.sendQueue client.sent) := by
  obtain ⟨written, hwritten, hsend⟩ := foldlM_sendMessage hfits
    { wire with client := { own with sendQueue := [] } }
  refine ⟨_, hsend, ?_, h.recvQueue, List.rel_append h.sendQueue hwritten, h.sent⟩
  rw [Client.behind, ← hsent]

/-- What the results of a call on the client and of one on the wire client have to do with each
other. -/
def Agree : Except SceneError Client → Except WireError WireClient → Prop
  | .ok client, .ok wire => wire.Represents client
  | .error err, .error (.scene err') => err = err'
  | _, _ => False

theorem Represents.sceneUpdate (h : wire.Represents client)
    (event : Option (Net.NetEvent LobbyMessage))
    (hfits : ∀ client', client.sceneUpdate games buttons event = .ok client' →
      ∀ msg ∈ client'.sendQueue, msg.Fits) :
    Agree (client.sceneUpdate games buttons event) (do
      let own ← (wire.client.sceneUpdate games buttons event).mapError .scene
      (wire.finish own).mapError .net) := by
  have hscene : client.sceneUpdate games buttons event = _ := h.scene event
  cases hown : wire.client.sceneUpdate games buttons event with
  | error err =>
      rw [hown] at hscene
      rw [hscene]
      exact rfl
  | ok own =>
      rw [hown] at hscene
      have hsent : own.sent = [] := sent_of_scene (by rw [h.client_eq]) hown
      obtain ⟨wire', hfinish, hwire'⟩ := h.finish hsent fun msg hmsg =>
        hfits _ hscene msg (List.mem_append_right _ hmsg)
      rw [hscene]
      change Agree (.ok _) ((wire.finish own).mapError .net)
      rw [hfinish]
      exact hwire'

theorem update_of_nil {tonumber : Bytes → Option Rat} {received : WireClient}
    (hreceive : wire.receive tonumber packets = .ok received)
    (hevents : received.client.net.events = []) :
    wire.update tonumber games packets buttons = (do
      let own ← (received.client.sceneUpdate games buttons none).mapError .scene
      (received.send.finish own).mapError .net) := by
  simp only [update, hreceive, Except.mapError, bind, Except.bind, hevents]

theorem update_of_cons {tonumber : Bytes → Option Rat} {received : WireClient}
    {event : Net.NetEvent LobbyMessage} {events : List (Net.NetEvent LobbyMessage)}
    (hreceive : wire.receive tonumber packets = .ok received)
    (hevents : received.client.net.events = event :: events) :
    wire.update tonumber games packets buttons = (do
      let own ← ((received.client.popEvent events).sceneUpdate games buttons
        (some event)).mapError .scene
      (received.finish own).mapError .net) := by
  simp only [update, hreceive, Except.mapError, bind, Except.bind, hevents]

theorem Represents.update (h : wire.Represents client) (tonumber : Bytes → Option Rat)
    (hframes : Net.Delivered frames packets)
    (hfits : ∀ client', client.update games frames buttons = .ok client' →
      ∀ msg ∈ client'.sendQueue, msg.Fits) :
    Agree (client.update games frames buttons) (wire.update tonumber games packets buttons) := by
  obtain ⟨received, hreceive, hreceived⟩ := h.receive tonumber hframes
  have hnet := hreceived.net_eq
  cases hevents : (client.receive frames).net.events with
  | nil =>
      rw [Client.update_of_nil hevents] at hfits ⊢
      rw [update_of_nil hreceive (hnet ▸ hevents)]
      exact hreceived.send.sceneUpdate none hfits
  | cons event events =>
      rw [Client.update_of_cons hevents] at hfits ⊢
      rw [update_of_cons hreceive (hnet ▸ hevents)]
      exact (hreceived.popEvent events).sceneUpdate (some event) hfits

end WireClient

end ChatGames
