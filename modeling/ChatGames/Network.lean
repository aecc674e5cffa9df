import ChatGames.Links
import ChatGames.Proof.Posts

/-!
# The whole network

Any number of clients, each with its connection, and the server. Clients call `net.createLobby`,
`net.joinLobby` and `net.sendMessage` whenever they please, sockets take and deliver bytes in pieces
of any size, each session's strand runs `processMessage` on one posted message after the other, and
what the handlers send is posted to the write strands. Nothing is assumed about who goes next, but
the handlers are cut no finer than `Server` cuts them.
-/

namespace ChatGames

structure Network (Sid : Type) where
  server : Server Sid
  up : Sid → Uplink
  down : Sid → Downlink
  /-- How many of the messages that were posted a session's strand has taken. -/
  processed : Sid → Nat
  /-- What the server has done so far. No code reads it. -/
  history : List (Event Sid)

inductive NetworkEvent (Sid : Type) where
  | uplink (S : Sid) (e : UplinkEvent)
  | process (S : Sid) (draws : List Bytes)
  | resume (S : Sid)
  | disconnect (S : Sid)
  | downlink (S : Sid) (e : DownlinkEvent)
deriving DecidableEq

namespace Network

variable {Sid : Type} [DecidableEq Sid]

def init : Network Sid := ⟨.init, fun _ => .init, fun _ => .init, fun _ => 0, []⟩

def setUp (n : Network Sid) (S : Sid) (link : Uplink) : Network Sid :=
  { n with up := Function.update n.up S link }

def setDown (n : Network Sid) (S : Sid) (link : Downlink) : Network Sid :=
  { n with down := Function.update n.down S link }

def take (n : Network Sid) (S : Sid) : Network Sid :=
  { n with processed := Function.update n.processed S (n.processed S + 1) }

variable [Fintype Sid]

/-- The server takes a step, and what it sends is posted. -/
def serve (n : Network Sid) (e : Event Sid) : Option (Network Sid) :=
  match n.server.step e with
  | .error _ => none
  | .ok server => some { n with
      server := server
      down := fun T => (n.server.posted server T).foldl Downlink.send (n.down T)
      history := n.history ++ [e] }

/-- The next message posted, on the session's strand. One without a handler is dropped. -/
def process (n : Network Sid) (S : Sid) (draws : List Bytes) : Option (Network Sid) :=
  match (n.up S).conn.posted[n.processed S]? with
  | none => none
  | some bytes =>
      match processMessage bytes with
      | .error _ => none
      | .ok none => if (n.server.sessions S).pending = none then some (n.take S) else none
      | .ok (some msg) => (n.serve (.message S msg draws)).map fun n => n.take S

/-- Whatever is still to run holds a pointer to the session. -/
def disconnect (n : Network Sid) (S : Sid) : Option (Network Sid) :=
  if (n.up S).conn.reading = false ∧ n.processed S = (n.up S).conn.posted.length ∧
      (n.down S).conn.strand = [] ∧ (n.down S).conn.writes = [] then
    n.serve (.disconnect S)
  else
    none

def step (tonumber : Bytes → Option Rat) (n : Network Sid) :
    NetworkEvent Sid → Option (Network Sid)
  | .uplink S e => ((n.up S).step e).map (n.setUp S)
  | .process S draws => n.process S draws
  | .resume S => n.serve (.resume S)
  | .disconnect S => n.disconnect S
  -- only handlers send
  | .downlink _ (.sendMessage _) => none
  | .downlink S e => ((n.down S).step tonumber e).map (n.setDown S)

end Network

def networkSystem (Sid : Type) [DecidableEq Sid] [Fintype Sid] (tonumber : Bytes → Option Rat) :
    TransitionSystem (Network Sid) (NetworkEvent Sid) where
  init := .init
  step := Network.step tonumber

end ChatGames
