import ChatGames.Connection
import ChatGames.Messages
import ChatGames.NetSend

/-!
# What the client sends

`encodeMessage` in `net.lua` puts the length of each string in one or two bytes in front of it and
checks nothing; neither do `net.createLobby`, `net.joinLobby` and `net.sendMessage`, and
`validLobbyName` looks at characters only. A writer stores the low bytes of a length, so a string
that is too long is announced as a shorter one. `roundTrip_iff` says that the others arrive.
-/

namespace ChatGames

/-- The bytes written so far; integers go in big-endian, reduced to their width. -/
structure BlobWriter where
  data : Bytes

namespace BlobWriter

def clear (_writer : BlobWriter) : BlobWriter := ⟨[]⟩

def u8 (writer : BlobWriter) (value : Nat) : BlobWriter := ⟨writer.data ++ toBigEndian 1 value⟩

def u16 (writer : BlobWriter) (value : Nat) : BlobWriter := ⟨writer.data ++ toBigEndian 2 value⟩

def u32 (writer : BlobWriter) (value : Nat) : BlobWriter := ⟨writer.data ++ toBigEndian 4 value⟩

def raw (writer : BlobWriter) (value : Bytes) : BlobWriter := ⟨writer.data ++ value⟩

def tostring (writer : BlobWriter) : Bytes := writer.data

end BlobWriter

namespace Net

/-- A call of `sendMessage`, with what it is called with. -/
inductive Request where
  | createLobby (playerName : Bytes)
  | joinLobby (playerName lobbyId : Bytes)
  | sendMessage (msg : Bytes)
deriving DecidableEq

namespace Request

def msgType : Request → MessageType
  | createLobby _ => .createLobby
  | joinLobby _ _ => .joinLobby
  | sendMessage _ => .sendMessage

/-- The message the server should see. -/
def message : Request → ClientMessage
  | createLobby playerName => .createLobby playerName
  | joinLobby playerName lobbyId => .joinLobby playerName lobbyId
  | sendMessage msg => .sendMessage msg

end Request

def encodeMessage (writer : BlobWriter) : Request → BlobWriter
  | .createLobby playerName => (writer.u8 playerName.length).raw playerName
  | .joinLobby playerName lobbyId =>
      (((writer.u8 playerName.length).raw playerName).u8 lobbyId.length).raw lobbyId
  | .sendMessage msg => (writer.u16 msg.length).raw msg

/-- What `sendMessage` pushes to `sendQueue`. -/
def encodeFrame (writer : BlobWriter) (request : Request) : Bytes :=
  let writer := writer.clear.u8 request.msgType.val
  let writer := encodeMessage writer request
  let data := writer.tostring
  let writer := writer.clear.u32 data.length
  let writer := writer.raw data
  writer.tostring

def sendMessage (net : Sender) (writer : BlobWriter) (request : Request) : Sender :=
  net.push (encodeFrame writer request)

/-- `%w` in the C locale. -/
def isAlphanumeric (byte : UInt8) : Bool :=
  (48 ≤ byte && byte ≤ 57) || (65 ≤ byte && byte ≤ 90) || (97 ≤ byte && byte ≤ 122)

/-- There is no character that `%W` matches. -/
def validLobbyName (str : Bytes) : Bool := !str.any fun byte => !isAlphanumeric byte

/-! ### The round trip -/

/-- The frame a request is queued as, whatever comes behind it, is taken off the stream as one
message, and that one is read as the request. -/
def RoundTrip (writer : BlobWriter) (request : Request) : Prop :=
  ∀ rest, ∃ msg, readMessage (encodeFrame writer request ++ rest) = .ok (some msg, rest) ∧
    processMessage msg = .ok (some request.message)

variable {request : Request}

/-- What stands behind the type byte. -/
def fields : Request → Bytes
  | .createLobby playerName => LengthPrefix.frame 1 playerName
  | .joinLobby playerName lobbyId =>
      LengthPrefix.frame 1 playerName ++ LengthPrefix.frame 1 lobbyId
  | .sendMessage msg => LengthPrefix.frame 2 msg

theorem encodeFrame_eq (writer : BlobWriter) (request : Request) :
    encodeFrame writer request =
      LengthPrefix.frame 4 (UInt8.ofNat request.msgType.val :: fields request) := by
  cases request <;>
    simp [encodeFrame, encodeMessage, fields, BlobWriter.clear, BlobWriter.u8, BlobWriter.u16,
      BlobWriter.u32, BlobWriter.raw, BlobWriter.tostring, LengthPrefix.frame, toBigEndian]

theorem fields_length_lt (h : request.message.Fits) : (fields request).length < 65538 := by
  have hframe (width : Nat) (str : Bytes) :
      (LengthPrefix.frame width str).length = width + str.length := by
    rw [LengthPrefix.frame, List.length_append, toBigEndian_length]
  cases request with
  | createLobby playerName =>
      have hname : playerName.length < 256 := h
      rw [fields, hframe]
      omega
  | joinLobby playerName lobbyId =>
      have hfits : playerName.length < 256 ∧ lobbyId.length < 256 := h
      rw [fields, List.length_append, hframe, hframe]
      omega
  | sendMessage msg =>
      have hmsg : msg.length < 65536 := h
      rw [fields, hframe]
      omega

theorem readMessage_frame {body : Bytes} (hbody : body.length < 2 ^ 32 - 4) (rest : Bytes) :
    readMessage (LengthPrefix.frame 4 body ++ rest) = .ok (some body, rest) := by
  have hnext : Connection.frames.next (LengthPrefix.frame 4 body ++ rest) = some (body, rest) :=
    LengthPrefix.next_frame hbody (by omega) rest
  have hsmall : ¬Connection.Oversize (LengthPrefix.frame 4 body ++ rest) := by
    intro hover
    rw [Connection.frames_next_of_oversize hover] at hnext
    cases hnext
  rw [Connection.readMessage_of_not_oversize hsmall, hnext]

theorem processMessage_fields (h : request.message.Fits) :
    processMessage (UInt8.ofNat request.msgType.val :: fields request) =
      .ok (some request.message) := by
  rw [processMessage_cons]
  set rbuf : BufferReader := ⟨UInt8.ofNat request.msgType.val :: fields request, 1⟩ with hrbuf
  have hinside : rbuf.Inside := by
    simp [hrbuf, BufferReader.Inside, BufferReader.size]
  have hrest : rbuf.rest = fields request := rfl
  cases request with
  | createLobby playerName =>
      rw [fields, ← List.append_nil (LengthPrefix.frame 1 playerName)] at hrest
      obtain ⟨rbuf', hread, -, -⟩ := hinside.string_of_rest h hrest
      change readFields rbuf (some .createLobby) = _
      rw [readFields, hread]
      rfl
  | joinLobby playerName lobbyId =>
      obtain ⟨hname, hid⟩ := h
      obtain ⟨rbuf₁, hread, hinside₁, hrest₁⟩ := hinside.string_of_rest hname hrest
      rw [← List.append_nil (LengthPrefix.frame 1 lobbyId)] at hrest₁
      obtain ⟨rbuf₂, hread₂, -, -⟩ := hinside₁.string_of_rest hid hrest₁
      change readFields rbuf (some .joinLobby) = _
      rw [readFields, hread]
      change (rbuf₁.string 1).bind _ = _
      rw [hread₂]
      rfl
  | sendMessage msg =>
      rw [fields, ← List.append_nil (LengthPrefix.frame 2 msg)] at hrest
      obtain ⟨rbuf', hread, -, -⟩ := hinside.string_of_rest h hrest
      change readFields rbuf (some .sendMessage) = _
      rw [readFields, hread]
      rfl

/-- **The round trip.** A request arrives as it was sent exactly when its strings fit their length
fields. -/
theorem roundTrip_iff (writer : BlobWriter) (request : Request) :
    RoundTrip writer request ↔ request.message.Fits := by
  constructor
  · intro h
    obtain ⟨msg, -, hread⟩ := h []
    exact fits_of_processMessage hread
  · intro h rest
    have hlength := fields_length_lt h
    refine ⟨_, ?_, processMessage_fields h⟩
    rw [encodeFrame_eq]
    apply readMessage_frame
    rw [List.length_cons]
    omega

/-- A lobby name of 256 letters is valid, and arrives empty. -/
theorem not_roundTrip : ¬∀ (writer : BlobWriter) (playerName lobbyId : Bytes),
    validLobbyName lobbyId = true → RoundTrip writer (.joinLobby playerName lobbyId) := by
  intro h
  have hvalid (n : Nat) : validLobbyName (List.replicate n 97) = true := by
    rw [validLobbyName, Bool.not_eq_true', List.any_eq_false]
    intro byte hbyte
    rw [List.eq_of_mem_replicate hbyte]
    decide
  have hfits := (roundTrip_iff _ _).mp (h ⟨[]⟩ [97] _ (hvalid 256))
  have hlength : (List.replicate 256 (97 : UInt8)).length < 256 := hfits.2
  rw [List.length_replicate] at hlength
  exact absurd hlength (Nat.lt_irrefl 256)

end Net

end ChatGames
