import ChatGames.NetRequests
import ChatGames.Server
import ChatGames.WriteQueue

/-!
# The two ways of one connection

What lies between `net.sendMessage` of a client and the messages its session posts to be processed,
and what lies between `ConnectionBase::send` of the session and the handlers of the client. TCP
carries the bytes: those one end has written arrive at the other, in order, in pieces of any size
and at any time. A write of the session is made of such pieces too, and its completion is an event
of its own.
-/

namespace ChatGames

namespace Net

/-- The message in the frame a request is queued as. -/
def Request.body (request : Request) : Bytes :=
  UInt8.ofNat request.msgType.val :: fields request

end Net

/-! ### From the client to its session -/

structure Uplink where
  net : Net.Sender
  /-- The number of bytes the session has read, of those the client's socket has taken. -/
  delivered : Nat
  conn : Connection

inductive UplinkEvent where
  | sendMessage (request : Net.Request)
  | send (results : List Net.SendResult)
  | read (size : Nat)
  | readError
deriving DecidableEq

namespace Uplink

def init : Uplink := ⟨.init, 0, .accepted⟩

/-- The bytes on their way. -/
def wire (link : Uplink) : Bytes := link.net.taken.drop link.delivered

/-- `sendMessage` clears its writer first, so that any will do. -/
def sendMessage (link : Uplink) (request : Net.Request) : Uplink :=
  { link with net := Net.sendMessage link.net ⟨[]⟩ request }

def send (link : Uplink) (results : List Net.SendResult) : Option Uplink :=
  match link.net.sendLoop results with
  | .ok net => some { link with net := net }
  | .error _ => none

/-- A read takes at most the 512 bytes that were prepared for it. -/
def read (link : Uplink) (size : Nat) : Option Uplink :=
  if link.conn.reading ∧ 0 < size ∧ size ≤ 512 ∧ size ≤ link.wire.length then
    match link.conn.onRead (.received (link.wire.take size)) with
    | .ok conn => some { link with delivered := link.delivered + size, conn := conn }
    | .error _ => none
  else
    none

def readError (link : Uplink) : Option Uplink :=
  match link.conn.reading, link.conn.onRead .error with
  | true, .ok conn => some { link with conn := conn }
  | _, _ => none

def step (link : Uplink) : UplinkEvent → Option Uplink
  | .sendMessage request => some (link.sendMessage request)
  | .send results => link.send results
  | .read size => link.read size
  | .readError => link.readError

end Uplink

def uplinkSystem : TransitionSystem Uplink UplinkEvent where
  init := .init
  step := Uplink.step

/-! ### From the session to its client -/

structure Downlink where
  conn : Writer
  /-- How much of each buffer the socket has taken. -/
  written : Nat → Nat
  wire : Bytes
  net : Net.State (List Bytes)

inductive DownlinkEvent where
  /-- `LobbySession::sendMessage` -/
  | sendMessage (data : Bytes)
  | runHandler
  /-- A write takes another `size` bytes of its buffer. -/
  | write (idx size : Nat)
  | complete (idx : Nat) (error : Bool)
  | receive (size : Nat)
deriving DecidableEq

namespace Downlink

def init : Downlink := ⟨.init, fun _ => 0, [], ⟨.new, []⟩⟩

/-- `ConnectionBase::send` -/
def send (link : Downlink) (packet : Bytes) : Downlink :=
  { link with conn := link.conn.send packet }

def runHandler (link : Downlink) : Option Downlink :=
  match link.conn.runHandler with
  | .ok conn => some { link with conn := conn }
  | .error _ => none

def write (link : Downlink) (idx size : Nat) : Option Downlink :=
  match link.conn.writes[idx]? with
  | none => none
  | some buffer =>
      if link.written buffer.address + size ≤ buffer.msg.length then
        some { link with
          written := Function.update link.written buffer.address
            (link.written buffer.address + size)
          wire := link.wire ++ (buffer.msg.drop (link.written buffer.address)).take size }
      else
        none

/-- A write completes without an error once all of its buffer is written. -/
def complete (link : Downlink) (idx : Nat) (error : Bool) : Option Downlink :=
  match link.conn.writes[idx]?, link.conn.complete idx error with
  | some buffer, .ok conn =>
      if error ∨ link.written buffer.address = buffer.msg.length then
        some { link with conn := conn }
      else
        none
  | _, _ => none

def receive (tonumber : Bytes → Option Rat) (link : Downlink) (size : Nat) : Option Downlink :=
  if size ≤ link.wire.length then
    match Net.receive tonumber Net.recordHandlers link.net (.timeout (link.wire.take size)) with
    | .ok net => some { link with wire := link.wire.drop size, net := net }
    | .error _ => none
  else
    none

def step (tonumber : Bytes → Option Rat) (link : Downlink) : DownlinkEvent → Option Downlink
  | .sendMessage data => some (link.send (packet data))
  | .runHandler => link.runHandler
  | .write idx size => link.write idx size
  | .complete idx error => link.complete idx error
  | .receive size => link.receive tonumber size

end Downlink

def downlinkSystem (tonumber : Bytes → Option Rat) : TransitionSystem Downlink DownlinkEvent where
  init := .init
  step := Downlink.step tonumber

end ChatGames
