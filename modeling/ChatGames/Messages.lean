import ChatGames.Serialization

/-!
# Client messages

`processMessage` reads the type byte and hands the reader to the handler of that type, which reads
its fields before it does anything else. What a handler read is a `ClientMessage`; the rest of its
work is in `ChatGames.Server`.

None of the reads is checked against the size of the message. `processMessage_inBounds_iff` says
which messages can be read without leaving them.
-/

namespace ChatGames

inductive MessageType where
  | createLobby
  | joinLobby
  | lobbyJoined
  | leaveLobby
  | lockLobby
  | unlockLobby
  | sendMessage
  | relayMessage
  | requestLobbyUpdate
  | updateLobby
  | heartbeat
deriving DecidableEq, Repr

namespace MessageType

def val : MessageType → Nat
  | createLobby => 0
  | joinLobby => 2
  | lobbyJoined => 3
  | leaveLobby => 4
  | lockLobby => 5
  | unlockLobby => 6
  | sendMessage => 7
  | relayMessage => 8
  | requestLobbyUpdate => 9
  | updateLobby => 10
  | heartbeat => 11

def lastMessageType : Nat := 12

/-- The enumerator a value stands for. -/
def ofVal? : Nat → Option MessageType
  | 0 => some createLobby
  | 2 => some joinLobby
  | 3 => some lobbyJoined
  | 4 => some leaveLobby
  | 5 => some lockLobby
  | 6 => some unlockLobby
  | 7 => some sendMessage
  | 8 => some relayMessage
  | 9 => some requestLobbyUpdate
  | 10 => some updateLobby
  | 11 => some heartbeat
  | _ => none

theorem ofVal?_of_ge {typeVal : Nat} (h : typeVal ≥ lastMessageType) : ofVal? typeVal = none := by
  obtain ⟨n, rfl⟩ : ∃ n, typeVal = n + 12 := ⟨typeVal - 12, by unfold lastMessageType at h; omega⟩
  rfl

end MessageType

/-- The fields of a message that has a handler. -/
inductive ClientMessage where
  | createLobby (playerName : Bytes)
  | joinLobby (playerName lobbyId : Bytes)
  | leaveLobby
  | lockLobby
  | unlockLobby
  | sendMessage (msg : Bytes)
  | requestLobbyUpdate
deriving DecidableEq, Repr

/-- The reads of the handler of a type; `none` where the switch only returns or logs. -/
def readFields (rbuf : BufferReader) : Option MessageType → Except Fault (Option ClientMessage)
  | some .createLobby => do
      let (playerName, _) ← rbuf.string 1
      .ok (some (.createLobby playerName))
  | some .joinLobby => do
      let (playerName, rbuf) ← rbuf.string 1
      let (lobbyId, _) ← rbuf.string 1
      .ok (some (.joinLobby playerName lobbyId))
  | some .leaveLobby => .ok (some .leaveLobby)
  | some .lockLobby => .ok (some .lockLobby)
  | some .unlockLobby => .ok (some .unlockLobby)
  | some .sendMessage => do
      let (msg, _) ← rbuf.string 2
      .ok (some (.sendMessage msg))
  | some .requestLobbyUpdate => .ok (some .requestLobbyUpdate)
  | some .heartbeat => .ok none
  | some .lobbyJoined | some .relayMessage | some .updateLobby | none => .ok none

def processMessage (msg : Bytes) : Except Fault (Option ClientMessage) := do
  let rbuf : BufferReader := ⟨msg, 0⟩
  let (typeVal, rbuf) ← rbuf.integer 1
  if typeVal ≥ MessageType.lastMessageType then
    .ok none
  else
    readFields rbuf (MessageType.ofVal? typeVal)

theorem processMessage_cons (typeVal : UInt8) (fields : Bytes) :
    processMessage (typeVal :: fields) =
      if typeVal.toNat ≥ MessageType.lastMessageType then .ok none
      else readFields ⟨typeVal :: fields, 1⟩ (MessageType.ofVal? typeVal.toNat) := by
  simp [processMessage, BufferReader.integer, BufferReader.bytes, BufferReader.size, bind,
    Except.bind, ofBigEndian]

/-! ### What the fields of a message can be -/

/-- No string is longer than the field in front of it can say. -/
def ClientMessage.Fits : ClientMessage → Prop
  | .createLobby playerName => playerName.length < 256
  | .joinLobby playerName lobbyId => playerName.length < 256 ∧ lobbyId.length < 256
  | .sendMessage msg => msg.length < 65536
  | .leaveLobby | .lockLobby | .unlockLobby | .requestLobbyUpdate => True

theorem fits_of_readFields {rbuf : BufferReader} (h : rbuf.Inside) {type : Option MessageType}
    {msg : ClientMessage} (hread : readFields rbuf type = .ok (some msg)) : msg.Fits := by
  have hone {width : Nat} {build : Bytes → ClientMessage}
      (hread : (rbuf.string width >>= fun p => Except.ok (some (build p.1))) = .ok (some msg)) :
      ∃ str, str.length < 256 ^ width ∧ build str = msg := by
    cases hstr : rbuf.string width with
    | error fault => rw [hstr] at hread; cases hread
    | ok p =>
        rw [hstr] at hread
        exact ⟨p.1, (h.string_length_lt hstr).1, Option.some.inj (Except.ok.inj hread)⟩
  cases type with
  | none => cases hread
  | some type =>
      cases type with
      | createLobby =>
          obtain ⟨playerName, hlength, rfl⟩ := hone hread
          exact hlength
      | sendMessage =>
          obtain ⟨str, hlength, rfl⟩ := hone hread
          exact hlength
      | joinLobby =>
          rw [readFields] at hread
          cases hname : rbuf.string 1 with
          | error fault => rw [hname] at hread; cases hread
          | ok p =>
              obtain ⟨playerName, rbuf₁⟩ := p
              obtain ⟨hlength, hinside⟩ := h.string_length_lt hname
              rw [hname] at hread
              change (rbuf₁.string 1).bind _ = _ at hread
              cases hid : rbuf₁.string 1 with
              | error fault => rw [hid] at hread; cases hread
              | ok q =>
                  rw [hid] at hread
                  obtain rfl := Option.some.inj (Except.ok.inj hread)
                  exact ⟨hlength, (hinside.string_length_lt hid).1⟩
      | leaveLobby | lockLobby | unlockLobby | requestLobbyUpdate =>
          obtain rfl := Option.some.inj (Except.ok.inj hread)
          trivial
      | lobbyJoined | relayMessage | updateLobby | heartbeat => cases hread

/-- A message that was read has strings that fit their length fields. -/
theorem fits_of_processMessage {bytes : Bytes} {msg : ClientMessage}
    (h : processMessage bytes = .ok (some msg)) : msg.Fits := by
  cases bytes with
  | nil => cases h
  | cons typeVal fields =>
      have hinside : (⟨typeVal :: fields, 1⟩ : BufferReader).Inside := by
        simp [BufferReader.Inside, BufferReader.size]
      rw [processMessage_cons] at h
      split at h
      · cases h
      · exact fits_of_readFields hinside h

/-! ### Messages that can be read -/

/-- A string of fewer than `256 ^ width` bytes, with its length in front. -/
def StringField (width : Nat) (fields str rest : Bytes) : Prop :=
  fields = LengthPrefix.frame width str ++ rest ∧ str.length < 256 ^ width

/-- The fields behind the type byte hold all the strings their type announces. -/
def CompleteFields (fields : Bytes) : Option MessageType → Prop
  | some .createLobby => ∃ playerName rest, StringField 1 fields playerName rest
  | some .joinLobby => ∃ playerName rest, StringField 1 fields playerName rest ∧
      ∃ lobbyId rest', StringField 1 rest lobbyId rest'
  | some .sendMessage => ∃ msg rest, StringField 2 fields msg rest
  | _ => True

def WellFormed : Bytes → Prop
  | [] => False
  | typeVal :: fields => CompleteFields fields (MessageType.ofVal? typeVal.toNat)

theorem stringField_iff_next {width : Nat} {fields str rest : Bytes} :
    StringField width fields str rest ↔
      LengthPrefix.next width (256 ^ width) fields = some (str, rest) := by
  rw [LengthPrefix.next_eq_some_iff, StringField, and_self_iff]

theorem string_inBounds_iff {rbuf : BufferReader} (h : rbuf.Inside) {width : Nat} :
    rbuf.string width ≠ .error .outOfBounds ↔
      ∃ str rest, StringField width rbuf.rest str rest := by
  simp only [stringField_iff_next]
  rcases BufferReader.string_eq h width with
    ⟨hnext, hread⟩ | ⟨str, rest, rbuf', hnext, hread, _, _⟩
  · simp [hnext, hread]
  · simp [hnext, hread]

theorem readFields_inBounds_iff {rbuf : BufferReader} (h : rbuf.Inside)
    (type : Option MessageType) :
    readFields rbuf type ≠ .error .outOfBounds ↔ CompleteFields rbuf.rest type := by
  have hone {width : Nat} (build : Bytes → ClientMessage) :
      (rbuf.string width >>= fun p => Except.ok (some (build p.1))) ≠ .error .outOfBounds ↔
        rbuf.string width ≠ .error .outOfBounds := by
    cases rbuf.string width <;> simp [bind, Except.bind]
  cases type with
  | none => simp [readFields, CompleteFields]
  | some type =>
      cases type with
      | createLobby => exact (hone .createLobby).trans (string_inBounds_iff h)
      | sendMessage => exact (hone .sendMessage).trans (string_inBounds_iff h)
      | joinLobby =>
          rcases BufferReader.string_eq h 1 with
            ⟨hnext, hread⟩ | ⟨playerName, rest, rbuf₁, hnext, hread, hinside, hrest⟩
          · rw [pow_one] at hnext
            simp [readFields, CompleteFields, hread, hnext, stringField_iff_next, bind, Except.bind]
          · have hsecond : readFields rbuf (some .joinLobby) ≠ .error .outOfBounds ↔
                rbuf₁.string 1 ≠ .error .outOfBounds := by
              rw [readFields, hread]
              change (rbuf₁.string 1).bind _ ≠ _ ↔ _
              cases rbuf₁.string 1 <;> simp [Except.bind]
            rw [hsecond, string_inBounds_iff hinside, hrest]
            rw [pow_one] at hnext
            simp [CompleteFields, stringField_iff_next, hnext]
      | _ => simp [readFields, CompleteFields]

/-- **In-bounds decoding.** A message is read without leaving it exactly when it has a type byte and
all the strings that type announces. -/
theorem processMessage_inBounds_iff (msg : Bytes) :
    processMessage msg ≠ .error .outOfBounds ↔ WellFormed msg := by
  cases msg with
  | nil => simp [processMessage, WellFormed, BufferReader.integer, BufferReader.bytes,
      BufferReader.size, bind, Except.bind]
  | cons typeVal fields =>
      have hinside : (⟨typeVal :: fields, 1⟩ : BufferReader).Inside := by
        simp [BufferReader.Inside, BufferReader.size]
      rw [processMessage_cons, WellFormed]
      split
      · rename_i hlast
        simp [MessageType.ofVal?_of_ge hlast, CompleteFields]
      · exact readFields_inBounds_iff hinside _

/-- A `sendMessage` that announces 65535 bytes and has none. -/
theorem processMessage_not_inBounds :
    ¬∀ msg : Bytes, processMessage msg ≠ .error .outOfBounds := by
  intro h
  exact h [7, 255, 255] (by decide)

end ChatGames
