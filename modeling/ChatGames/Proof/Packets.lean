import ChatGames.Library.Outcome
import ChatGames.Proof.Codec

/-!
# Many packets at once

`receive` hands all the packets of a chunk to their handlers, one after the other. A frame is sent
as some data if the handler does to the table what the frame says, whatever the table is.
-/

namespace ChatGames.Net

section Loop

variable {σ : Type} {messageHandlers : UInt8 → Option (Bytes → σ → Except LuaError σ)}
  {msgs : List Bytes} {handled handled' : σ} {queue : Queue Bytes}

/-- What the handlers make of one message after the other. -/
def dispatchAll (messageHandlers : UInt8 → Option (Bytes → σ → Except LuaError σ))
    (msgs : List Bytes) (handled : σ) : Except LuaError σ :=
  msgs.foldlM (fun handled msg => dispatch messageHandlers msg handled) handled

theorem receiveLoop_frames (tonumber : Bytes → Option Rat)
    (hmsgs : ∀ msg ∈ msgs, msg.length < 2 ^ 32) {fuel : Nat}
    (hfuel : (msgs.flatMap (LengthPrefix.frame 4)).length < fuel)
    (hqueue : queue.Holds (pending (msgs.flatMap (LengthPrefix.frame 4))))
    (h : dispatchAll messageHandlers msgs handled = .ok handled') :
    ∃ queue' : Queue Bytes, queue'.Holds [] ∧
      receiveLoop tonumber messageHandlers fuel ⟨queue, handled⟩ = .ok ⟨queue', handled'⟩ := by
  induction msgs generalizing fuel queue handled with
  | nil =>
      obtain ⟨fuel, rfl⟩ : ∃ n, fuel = n + 1 := ⟨fuel - 1, by omega⟩
      obtain rfl : handled = handled' := Except.ok.inj h
      refine ⟨queue, hqueue, ?_⟩
      rw [receiveLoop, if_pos (hqueue.empty_iff.mpr rfl)]
  | cons msg msgs ih =>
      obtain ⟨hmsg, hmsgs⟩ := List.forall_mem_cons.mp hmsgs
      rw [List.flatMap_cons] at hfuel hqueue
      set rest := msgs.flatMap (LengthPrefix.frame 4)
      have hlength : (LengthPrefix.frame 4 msg).length = 4 + msg.length := by
        rw [LengthPrefix.frame, List.length_append, toBigEndian_length]
      have hne : LengthPrefix.frame 4 msg ++ rest ≠ [] :=
        List.append_ne_nil_of_left_ne_nil (List.ne_nil_of_length_pos (by omega)) rest
      have hnext : frames.next (LengthPrefix.frame 4 msg ++ rest) = some (msg, rest) :=
        LengthPrefix.next_frame hmsg hmsg rest
      rw [pending, if_neg hne] at hqueue
      obtain ⟨fuel, rfl⟩ : ∃ n, fuel = n + 1 := ⟨fuel - 1, by omega⟩
      obtain ⟨popped, hpopped, hstep⟩ :=
        receiveLoop_frame tonumber messageHandlers hqueue hnext fuel handled
      rw [List.append_nil] at hpopped
      obtain ⟨between, hfirst, hothers⟩ := Outcome.bind_eq_ok.mp h
      change dispatch messageHandlers msg handled = _ at hfirst
      have hrest : rest.length < fuel := by
        rw [List.length_append] at hfuel
        omega
      obtain ⟨queue', hqueue', hloop⟩ := ih hmsgs hrest hpopped hothers
      refine ⟨queue', hqueue', ?_⟩
      rw [hstep, hfirst]
      exact hloop

theorem receive_frames (tonumber : Bytes → Option Rat) (hqueue : queue.Holds [])
    (hmsgs : ∀ msg ∈ msgs, msg.length < 2 ^ 32)
    (h : dispatchAll messageHandlers msgs handled = .ok handled') :
    ∃ queue' : Queue Bytes, queue'.Holds [] ∧
      receive tonumber messageHandlers ⟨queue, handled⟩ (.timeout (msgs.map packet).flatten) =
        .ok ⟨queue', handled'⟩ := by
  have hchunk : (msgs.map packet).flatten = msgs.flatMap (LengthPrefix.frame 4) := rfl
  rw [hchunk]
  set chunk := msgs.flatMap (LengthPrefix.frame 4)
  have hpushed : (if chunk.length > 0 then queue.push chunk else queue).Holds (pending chunk) := by
    rw [pending]
    by_cases hempty : chunk = []
    · rw [if_pos hempty, if_neg (by simp [hempty])]
      exact hqueue
    · rw [if_neg hempty, if_pos (List.length_pos_iff.mpr hempty)]
      exact hqueue.push chunk
  change ∃ queue' : Queue Bytes, queue'.Holds [] ∧ receiveLoop tonumber messageHandlers _ _ = _
  refine receiveLoop_frames tonumber hmsgs ?_ hpushed h
  rw [hpushed.toList_eq, pending_flatten]
  exact Nat.lt_succ_self _

end Loop

/-! ### Frames -/

section SentAs

variable {β : Type} {unpack : Bytes → Except LuaError β} {frame : Frame β} {data : Bytes}

/-- The data is what a frame is sent as. -/
structure SentAs (unpack : Bytes → Except LuaError β) (frame : Frame β) (data : Bytes) : Prop where
  length_lt : data.length < 2 ^ 32
  dispatch_eq : ∀ client : Module β, ∃ reader, dispatch (messageHandlers unpack) data client =
    .ok ⟨reader, client.net.dispatch frame⟩

theorem sentAs_of_decodes (hlength : data.length < 2 ^ 32)
    (h : Decodes unpack data fun net => .ok (net.dispatch frame)) : SentAs unpack frame data := by
  refine ⟨hlength, fun client => ?_⟩
  obtain ⟨queue', reader', -, -, hdecoded⟩ := h (fun _ => none) .new client Queue.holds_new
  obtain ⟨queue, -, hreceive⟩ := receive_frame (fun _ => none) (messageHandlers unpack)
    Queue.holds_new hlength client
  rw [packet_eq, ← LengthPrefix.frame, hreceive] at hdecoded
  cases hdispatch : dispatch (messageHandlers unpack) data client with
  | error err =>
      rw [hdispatch] at hdecoded
      cases hdecoded
  | ok handled =>
      rw [hdispatch] at hdecoded
      cases hdecoded
      exact ⟨reader', rfl⟩

theorem sentAs_lobbyJoined {lobbyId : Bytes} {id : Nat} (hid : id < 256)
    (hname : lobbyId.length < 256) :
    SentAs unpack (.lobbyJoined lobbyId id) (encodeLobbyJoined lobbyId id) := by
  refine sentAs_of_decodes ?_ (decodes_lobbyJoined hid hname)
  simp [encodeLobbyJoined, BufferWriter.empty, BufferWriter.integer, BufferWriter.string,
    BufferWriter.toString]
  omega

theorem sentAs_relayMessage {id : Nat} {packed : Bytes} {msg : β} (hid : id < 256)
    (hlength : packed.length < 65536) (hunpack : unpack packed = .ok msg) :
    SentAs unpack (.relayMessage id msg) (encodeRelayMessage id packed) := by
  refine sentAs_of_decodes ?_ ?_
  · simp [encodeRelayMessage, BufferWriter.empty, BufferWriter.integer, BufferWriter.string,
      BufferWriter.toString]
    omega
  · have hdecodes : Decodes unpack (encodeRelayMessage id packed) _ :=
      decodes_relayMessage hid hlength
    rw [hunpack] at hdecodes
    exact hdecodes

theorem sentAs_lobbyUpdate {Sid : Type} {lobby : Lobby Sid} (hvalid : lobby.Valid)
    (hfits : lobby.Fits) :
    SentAs unpack (.updateLobby (listing lobby.players)) (encodeLobbyUpdate lobby) := by
  refine sentAs_of_decodes ?_ (decodes_lobbyUpdate hvalid hfits)
  have hcount := hvalid.length_le
  have hnames : ∀ player ∈ listing lobby.players, player.name.length < 256 :=
    List.forall_mem_map.mpr hfits.playerName_lt
  have hentries := length_flatMap_entry_le hnames
  rw [listing, List.length_map] at hentries
  rw [encodeLobbyUpdate_eq, listing]
  simp only [List.length_append, toBigEndian_length]
  omega

theorem dispatchAll_frames {frames : List (Frame β)} {datas : List Bytes}
    (h : List.Forall₂ (SentAs unpack) frames datas) (client : Module β) :
    ∃ reader, dispatchAll (messageHandlers unpack) datas client =
      .ok ⟨reader, client.net.receive frames⟩ := by
  induction h generalizing client with
  | nil => exact ⟨client.reader, rfl⟩
  | cons hfirst _ ih =>
      obtain ⟨reader, hreader⟩ := hfirst.dispatch_eq client
      obtain ⟨reader', hrest⟩ := ih ⟨reader, client.net.dispatch _⟩
      refine ⟨reader', ?_⟩
      rw [dispatchAll, List.foldlM_cons, hreader]
      exact hrest

/-- The packets of some frames tell the table what the frames say. -/
theorem receive_packets (tonumber : Bytes → Option Rat) {queue : Queue Bytes}
    (hqueue : queue.Holds []) {frames : List (Frame β)} {datas : List Bytes}
    (h : List.Forall₂ (SentAs unpack) frames datas) (client : Module β) :
    ∃ queue' reader', queue'.Holds [] ∧
      receive tonumber (messageHandlers unpack) ⟨queue, client⟩
          (.timeout (datas.map packet).flatten) =
        .ok ⟨queue', ⟨reader', client.net.receive frames⟩⟩ := by
  have hlengths : ∀ data ∈ datas, data.length < 2 ^ 32 :=
    Pointwise.forall_right h fun frame data hsent => hsent.length_lt
  obtain ⟨reader', hdispatch⟩ := dispatchAll_frames h client
  obtain ⟨queue', hqueue', hreceive⟩ := receive_frames tonumber hqueue hlengths hdispatch
  exact ⟨queue', reader', hqueue', hreceive⟩

end SentAs

end ChatGames.Net
