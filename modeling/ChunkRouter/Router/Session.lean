import ChunkRouter.Router.Client
import ChunkRouter.Router.Network
import ChunkRouter.Router.Service
import ChunkRouter.Router.Serving

/-!
# Router sessions

A service and its peers, who send requests and receive replies over a network that loses nothing. A
peer that cannot connect abandons the session.
-/

namespace ChunkRouter.Router

open ChunkRouter.ByteStream (RelayError Script)
open Message (Reply Request)

/-- One peer of the router. -/
structure Peer where
  client : Client
  /-- Bytes that were sent and did not reach the router yet. -/
  underway : Bytes
  /-- Nothing more will be sent. -/
  finished : Bool

namespace Peer

def new (limits : Frame.Limits) : Peer := ⟨.new ⟨[], [], [], [], []⟩ limits, [], false⟩

/-- Put what the client wrote on its way. -/
def post (p : Peer) : Peer :=
  let stream := p.client.stream
  { client := { p.client with stream := stream.forget }
    underway := p.underway ++ stream.accepted
    finished := p.finished || stream.calls.contains .shutdown }

/-- Let bytes arrive at the client. -/
def hand (p : Peer) (bytes : Bytes) : Peer :=
  if bytes.isEmpty then p
  else
    let stream := p.client.stream
    { p with client := { p.client with stream := { stream with reads := stream.reads ++ [.data bytes] } } }

/-- Serve a peer with its connection until neither has anything left to do. -/
def exchange (p : Peer) (c : Connection) : Peer × Connection :=
  let p := p.post
  let (c', underway) := c.serve p.underway
  let c' := if p.finished && underway.isEmpty then c'.after .hangUp else c'
  ({ p with underway := underway }.hand (c'.piecesSince c), c')

end Peer

/-- Why a peer stopped receiving. -/
inductive ReceiveEnd where
  /-- It has as many replies as it wanted. -/
  | enough
  | closed
  | failed (e : RelayError)
  deriving DecidableEq

/-- What a peer received: the replies to batches by id, and the others in the order they arrived. -/
structure Received where
  replies : List Reply
  batches : List Reply
  ending : ReceiveEnd
  deriving DecidableEq

namespace Received

/-- The id of the batch that is answered. -/
def batchId? : Reply → Option UInt64
  | .batchDone id _ _ _ => some id
  | _ => none

def sort (replies : List Reply) (ending : ReceiveEnd) : Received where
  replies := replies.filter fun r => (batchId? r).isNone
  batches := (replies.filter fun r => (batchId? r).isSome).mergeSort fun a b =>
    (batchId? a).getD 0 ≤ (batchId? b).getD 0
  ending := ending

end Received

inductive Command where
  /-- Connect, with limits of one's own or with the router's. -/
  | connect (limits : Option Frame.Limits)
  | send (peer : Nat) (request : Request)
  | sendRaw (peer : Nat) (bytes : Bytes)
  /-- Close the sending half. -/
  | finish (peer : Nat)
  /-- Close both halves. -/
  | drop (peer : Nat)
  | receive (peer n : Nat)
  | receiveAll (peer : Nat)
  /-- Shut the router down. -/
  | stop

inductive Answer where
  | done
  | peer (i : Nat)
  | failed (e : RelayError)
  | received (r : Received)
  | gone
  deriving DecidableEq

structure Session where
  network : Network
  service : Service
  /-- The peers, each with the connection of the same number. -/
  peers : Array Peer

namespace Session

def new (network : Network) (config : Config) : Session := ⟨network, .new config, #[]⟩

/-- Serve a peer. -/
def exchange (s : Session) (i : Nat) : Session :=
  match s.peers[i]?, s.service.connections[i]? with
  | some p, some c =>
    let (p, c) := p.exchange c
    { s with
      peers := s.peers.setIfInBounds i p
      service := { s.service with connections := s.service.connections.setIfInBounds i c } }
  | _, _ => s

/-- Connect a peer. -/
def connect (s : Session) (limits : Option Frame.Limits) : Session × Except Panic Answer :=
  let attempt := if limits.isSome then "connect" else "connect to router"
  match s.network.connect s.service.accepting with
  | .error e => (s, .error (Network.abandon attempt e))
  | .ok () =>
    ({ s with
        service := s.service.accept
        peers := s.peers.push (.new (limits.getD s.service.config.frame)) },
      .ok (.peer s.peers.size))

/-- Let a peer's client do something, then serve the peer. -/
def withClient (s : Session) (i : Nat) (f : Client → Client × Answer) : Session × Answer :=
  match s.peers[i]? with
  | none => (s, .gone)
  | some p =>
    let (client, answer) := f p.client
    (exchange { s with peers := s.peers.setIfInBounds i { p with client := client } } i, answer)

def sent : Except RelayError Unit → Answer
  | .ok () => .done
  | .error e => .failed e

/-- Receive replies, the latest first in `acc`, until `n` more are there, or none comes. -/
def receiveLoop : (n : Nat) → List Reply → Client → Client × List Reply × ReceiveEnd
  | 0, acc, c => (c, acc, .enough)
  | n + 1, acc, c =>
    match c.receive with
    | (c, .ok (some r)) => receiveLoop n (r :: acc) c
    | (c, .ok none) => (c, acc, .closed)
    | (c, .error (.io _)) => (c, acc, .closed)
    | (c, .error e) => (c, acc, .failed e)

def receive (n : Nat) (c : Client) : Client × Answer :=
  let (c, acc, ending) := receiveLoop n [] c
  (c, .received (.sort acc.reverse ending))

/-- Receive all replies. Each takes at least one byte that has arrived. -/
def receiveAll (c : Client) : Client × Answer :=
  receive (c.inbox.length + Script.readWeight c.stream.reads + 1) c

/-- Shut the router down: connections read no more, answer what they have read, and end. -/
def stop (s : Session) : Session :=
  let stopped := s.service.connections.map fun (c : Connection) => c.after .shutDown
  let arrived (i : Nat) : Bytes :=
    match s.service.connections[i]?, stopped[i]? with
    | some c, some c' => c'.piecesSince c
    | _, _ => []
  { s with
    service := { s.service with accepting := false, connections := stopped }
    peers := s.peers.mapIdx fun i (p : Peer) => p.hand (arrived i) }

/-- Carry a command out; none but connecting can fail to come to an answer. -/
def command (s : Session) : Command → Session × Except Panic Answer
  | .connect limits => s.connect limits
  | .send i request => ok (s.withClient i fun c => (c.send request).map id sent)
  | .sendRaw i bytes => ok (s.withClient i fun c => (c.sendRaw bytes).map id sent)
  | .finish i | .drop i => ok (s.withClient i fun c => c.finish.map id sent)
  | .receive i n => ok (s.withClient i (receive n))
  | .receiveAll i => ok (s.withClient i receiveAll)
  | .stop => (s.stop, .ok .done)
where
  ok (r : Session × Answer) : Session × Except Panic Answer := r.map id .ok

/-- Carry commands out in order. -/
def run (s : Session) : List Command → Session × Except Panic (List Answer)
  | [] => (s, .ok [])
  | command :: commands =>
    match s.command command with
    | (s, .error panic) => (s, .error panic)
    | (s, .ok answer) =>
      match s.run commands with
      | (s, result) => (s, result.map (answer :: ·))

/-- What the router and its peers counted. -/
def meter (s : Session) : Meter :=
  s.peers.foldl (fun m p => m.merge (p.client.reader.meter.merge p.client.writer.meter)) s.service.meter

end Session

end ChunkRouter.Router
