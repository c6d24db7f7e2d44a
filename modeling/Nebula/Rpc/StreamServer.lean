import Nebula.Lib.Runs
import Nebula.Rpc.Message

/- RpcServer reads one Redis stream, on its own or as the one consumer of a group,
   and passes what it can decode to a receiver. Redis is the stream, the group and
   its pending entries; serde's decoding is a parameter. Redis commands do not
   fail, except that XREADGROUP does without the group. -/
namespace StreamServer
open Runs Rpc

/-- The field names and values of an entry in turn. The id of an entry is its place
    in the stream. -/
abbrev Fields := List String

structure RpcEntry where
  entryId : Nat
  streamName : String
  streamGroup : String
  deriving DecidableEq, Repr

inductive KeyId where
  | «$»
  | after (entryId : Nat)
  deriving DecidableEq, Repr

/-- Between two reads, in a blocking read from a position on, or about to create the
    group after a failed one. -/
inductive Phase where
  | ready
  | blocked (start : Nat)
  | creating
  deriving DecidableEq, Repr

structure RpcServer where
  streamName : String
  streamGroup : String
  keyId : KeyId
  phase : Phase
  sent : List (RpcEntry × RpcMessage)

structure World where
  stream : List Fields
  group : Option Nat
  pending : List Nat
  server : RpcServer

variable (decode : String → Option RpcMessage)

/-- The first field of an entry, if that is its message. -/
def messageText : Fields → Option String
  | key :: value :: _ => if key = "message" then some value else none
  | _ => none

/-- The loop over the entries of a batch: what is sent, and the last id unless an
    entry cannot be decoded. -/
def processEntries (server : RpcServer) :
    KeyId → List (Fields × Nat) → List (RpcEntry × RpcMessage) × Option KeyId
  | newKeyId, [] => ([], some newKeyId)
  | _, (fields, entryId) :: entries =>
    match messageText fields with
    | some value =>
      match decode value with
      | some rpcMsg =>
        let later := processEntries server (.after entryId) entries
        ((⟨entryId, server.streamName, server.streamGroup⟩, rpcMsg) :: later.1, later.2)
      | none => ([], none)
    | none => processEntries server (.after entryId) entries

/-- The rest of process_stream, and of run, once a batch has been read. -/
def processStream (server : RpcServer) (entries : List (Fields × Nat)) : RpcServer :=
  let result := processEntries decode server .«$» entries
  { server with
    phase := .ready
    sent := server.sent ++ result.1
    keyId := result.2.getD server.keyId }

def entriesFrom (start : Nat) (stream : List Fields) : List (Fields × Nat) :=
  stream.zipIdx.drop start

def readCount : Nat := 1000

/-- XREAD with the stream's entries after start, of which there are some. -/
def xread (start : Nat) (world : World) : World :=
  let entries := (entriesFrom start world.stream).take readCount
  { world with server := processStream decode world.server entries }

/-- XREADGROUP also moves the group on and notes what has not been acknowledged. -/
def xreadgroup (start : Nat) (world : World) : World :=
  let entries := (entriesFrom start world.stream).take readCount
  { world with
    group := some (start + entries.length)
    pending := world.pending ++ entries.map Prod.snd
    server := processStream decode world.server entries }

def World.setPhase (world : World) (phase : Phase) : World :=
  { world with server := { world.server with phase := phase } }

/-- Redis resolves $ to the end of the stream when the read arrives. -/
def startOf (world : World) : KeyId → Nat
  | .«$» => world.stream.length
  | .after entryId => entryId + 1

/-- The start of process_stream: the read is answered at once or blocks. -/
def read (world : World) : World :=
  if world.server.streamGroup = "" then
    if startOf world world.server.keyId < world.stream.length then
      xread decode (startOf world world.server.keyId) world
    else world.setPhase (.blocked (startOf world world.server.keyId))
  else
    match world.group with
    | some start =>
      if start < world.stream.length then xreadgroup decode start world
      else world.setPhase (.blocked start)
    | none => world.setPhase .creating

def xadd (fields : Fields) (world : World) : World :=
  { world with stream := world.stream ++ [fields] }

def RpcEntry.ack (entry : RpcEntry) (world : World) : World :=
  if entry.streamGroup ≠ "" then
    { world with pending := world.pending.filter (· ≠ entry.entryId) }
  else world

/-- XGROUP CREATE at $, which leaves an existing group alone. -/
def xgroupCreate (world : World) : World :=
  { world with group := some (world.group.getD world.stream.length) }

inductive Event where
  | append (fields : Fields)
  | read
  | serve
  | timeout
  | create
  | ack (entry : RpcEntry)

/-- A blocked read is served once there is something after its start, and times out
    only while there is not. -/
def step : Machine World Event := fun world event =>
  match event, world.server.phase with
  | .append fields, _ => some (xadd fields world)
  | .read, .ready => some (read decode world)
  | .serve, .blocked start =>
    if start < world.stream.length then
      some (if world.server.streamGroup = "" then xread decode start world
        else xreadgroup decode start world)
    else none
  | .timeout, .blocked start =>
    if start < world.stream.length then none else some (world.setPhase .ready)
  | .create, .creating => some ((xgroupCreate world).setPhase .ready)
  | .ack entry, _ => some (entry.ack world)
  | _, _ => none

end StreamServer
