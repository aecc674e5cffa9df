import ChatGames.LobbyScene
import ChatGames.MsgPack

/-!
# The messages of the lobby scene as tables

The tables that `sendVote` and `sendPlayerData` give to `net.sendMessage`, which packs them, and
what `processMessage` reads off the table that is unpacked at the other end.
-/

namespace ChatGames

open Lua

def typeKey : Value := .string [0x74, 0x79, 0x70, 0x65]

def voteKey : Value := .string [0x76, 0x6F, 0x74, 0x65]

def dataKey : Value := .string [0x64, 0x61, 0x74, 0x61]

/-- A field that may be nil. -/
def optional (n : Option Nat) : Value := n.elim .nil .ofNat

/-- `{id, player.color, player.vote}` -/
def PlayerRow.toLua (row : PlayerRow) : Value :=
  .table (Entries.ofPairs (Entries.array [.ofNat row.id, optional row.color, optional row.vote]))

namespace LobbyMessage

/-- `messages.vote` and `messages.updatePlayerData`. -/
def voteType : Value := .ofNat 1

def updatePlayerDataType : Value := .ofNat 2

def toLua : LobbyMessage → Value
  | .vote gameIndex =>
      .table (Entries.ofPairs [(typeKey, voteType), (voteKey, optional gameIndex)])
  | .updatePlayerData data => .table (Entries.ofPairs [(typeKey, updatePlayerDataType),
      (dataKey, .table (Entries.array (data.map PlayerRow.toLua)))])
  | .other => .table []

end LobbyMessage

/-! ### Reading -/

/-- A number that can be an id, a color or a vote. -/
def toNat? : Value → Option Nat
  | .number (.finite q) => if (q.num.toNat : ℚ) = q then some q.num.toNat else none
  | _ => none

def optional? (val : Value) : Option (Option Nat) :=
  if val.isNil then some none else (toNat? val).map some

def PlayerRow.ofLua : Value → Option PlayerRow
  | .table row => do
      let id ← toNat? (Entries.get row (.ofNat 1))
      let color ← optional? (Entries.get row (.ofNat 2))
      let vote ← optional? (Entries.get row (.ofNat 3))
      some ⟨id, color, vote⟩
  | _ => none

/-- The rows of `msg.data`. -/
def rowsOfLua : Value → Option (List PlayerRow)
  | .table data => (Entries.ipairs data).mapM PlayerRow.ofLua
  | _ => none

namespace LobbyMessage

/-- The fields that `processMessage` reads. There is no message with a field that is none of those
the scene itself sends. -/
def ofLua : Value → Option LobbyMessage
  | .table msg =>
      if (Entries.get msg typeKey).sameKey voteType then
        (optional? (Entries.get msg voteKey)).map vote
      else if (Entries.get msg typeKey).sameKey updatePlayerDataType then
        (rowsOfLua (Entries.get msg dataKey)).map updatePlayerData
      else
        some other
  | _ => none

/-- What `net.sendMessage` packs. -/
def pack (msg : LobbyMessage) : Except LuaError Bytes := MsgPack.pack msg.toLua

/-- What the handler of a relayed message unpacks. -/
def unpack (packed : Bytes) : Except LuaError LobbyMessage := do
  let msg ← MsgPack.unpack packed
  (ofLua msg).elim (.error "no message of the lobby scene") .ok

end LobbyMessage

end ChatGames
