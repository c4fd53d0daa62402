import NetworkChat.Message
import Mathlib.Logic.Function.Basic
import Mathlib.Data.List.ReduceOption

/-!
# The server's handlers

`server_interface` (`net_server.h`) and `CustomServer` (`Server.cpp`): the deque
of connections, the counter of ids and the map from a client to its partner.

A handler works on connections through their pointers. What it sees of one is its
id and whether its socket is open (`Peer`); what it does to one is a call of `Send`
or of `OnClientDisconnect`, and the calls are returned in the order in which they
are made. A handler ends in a fault where the source throws or leaves defined
behaviour: `at` of an absent key, `erase` of the end iterator, an extraction that
leaves the body.

The log lines are not modelled, nor is the state of a `std::unordered_map` beyond
its entries.
-/

set_option autoImplicit false

namespace NetworkChat

open Foundation

/-- Which connection a `std::shared_ptr<connection>` points to. -/
abbrev ConnectionPtr := ℕ

/-- An entry of a list that got one more is one of the first or the last. -/
theorem getElem?_concat {α : Type} {entries : List α} {entry last : α} {client : ConnectionPtr}
    (found : (entries ++ [last])[client]? = some entry) :
    (client < entries.length ∧ entries[client]? = some entry) ∨
      (client = entries.length ∧ entry = last) := by
  rcases Nat.lt_trichotomy client entries.length with before | same | after
  · rw [List.getElem?_append_left before] at found
    exact .inl ⟨before, found⟩
  · rw [same, List.getElem?_concat_length] at found
    exact .inr ⟨same, (Option.some.inj found).symm⟩
  · rw [List.getElem?_eq_none (by rw [List.length_append, List.length_singleton]; omega)] at found
    cases found

/-- What a handler sees of a connection: `GetID` and `IsConnected`. -/
structure Peer where
  id : UInt32
  isConnected : Bool
  deriving DecidableEq, Repr

/-- What a handler does to a connection. -/
inductive Call where
  | send (client : ConnectionPtr) (msg : Message CustomMsgTypes)
  | onClientDisconnect (client : ConnectionPtr)
  deriving DecidableEq

/-- `std::unordered_map<uint32_t, uint32_t>`. -/
abbrev ConnectionMap := UInt32 → Option UInt32

namespace ConnectionMap

def count (map : ConnectionMap) (key : UInt32) : ℕ := if (map key).isSome then 1 else 0

/-- `emplace`: an entry that exists is left alone. -/
def emplace (map : ConnectionMap) (key value : UInt32) : ConnectionMap :=
  if (map key).isSome then map else Function.update map key (some value)

/-- `erase(find(key))`. -/
def eraseFound (map : ConnectionMap) (key : UInt32) : Except Fault ConnectionMap :=
  match map key with
  | none => .error .eraseEnd
  | some _ => .ok (Function.update map key none)

/-- `at`. -/
def atKey (map : ConnectionMap) (key : UInt32) : Except Fault UInt32 :=
  match map key with
  | none => .error .outOfRange
  | some value => .ok value

end ConnectionMap

/-- The members of the server that its handlers use. -/
structure CustomServer where
  dequeConnections : List ConnectionPtr
  nIDCounter : UInt32
  clientConnections : ConnectionMap

namespace CustomServer

def start : CustomServer := ⟨[], 10000, fun _ => none⟩

/-! ## The pairing -/

/-- `ConnectClients`: the answer and the server after it. -/
def connectClients (server : CustomServer) (clientA clientB : UInt32) : Bool × CustomServer :=
  if server.clientConnections.count clientA + server.clientConnections.count clientB = 0 ∧
      clientA ≠ clientB then
    (true, { server with
      clientConnections := (server.clientConnections.emplace clientA clientB).emplace clientB
        clientA })
  else (false, server)

/-- `DisconnectClients`. -/
def disconnectClients (server : CustomServer) (clientA clientB : UInt32) :
    Except Fault CustomServer := do
  let map ← server.clientConnections.eraseFound clientA
  let map ← map.eraseFound clientB
  return { server with clientConnections := map }

/-! ## Loops over the connections -/

variable (view : ConnectionPtr → Peer)

/-- `client.reset()` for every connection that is closed. -/
def resetInvalid (clients : List ConnectionPtr) : List (Option ConnectionPtr) :=
  clients.map fun client => if (view client).isConnected then some client else none

/-- `erase(remove(nullptr))`, if an invalid client exists. -/
def prune (clients : List ConnectionPtr) : List ConnectionPtr :=
  let slots := resetInvalid view clients
  if slots.any Option.isNone then slots.reduceOption else clients

/-- `MessageAllClient`. -/
def messageAllClient (server : CustomServer) (msg : Message CustomMsgTypes)
    (ignoreClient : Option ConnectionPtr) : CustomServer × List Call :=
  let calls := server.dequeConnections.flatMap fun client =>
    if (view client).isConnected then
      if some client ≠ ignoreClient then [.send client msg] else []
    else [.onClientDisconnect client]
  ({ server with dequeConnections := prune view server.dequeConnections }, calls)

/-- `GetClientList`. -/
def getClientList (server : CustomServer) : List UInt32 × CustomServer × List Call :=
  let ids := server.dequeConnections.flatMap fun client =>
    if (view client).isConnected then [(view client).id] else []
  let calls := server.dequeConnections.flatMap fun client =>
    if (view client).isConnected then [] else [.onClientDisconnect client]
  (ids, { server with dequeConnections := prune view server.dequeConnections }, calls)

/-- The loop that looks a connection up by its id. -/
def findClient (server : CustomServer) (id : UInt32) : Option ConnectionPtr :=
  server.dequeConnections.find? fun client => (view client).id == id

/-! ## `OnMessage` -/

def closeMsg : Message CustomMsgTypes := .ofType .closeClient

/-- A message of the type with one id in it. -/
def idMsg (type : CustomMsgTypes) (id : UInt32) : Message CustomMsgTypes :=
  (Message.ofType type).push id

/-- `case RequestToClient`, after the id is taken from the message. -/
def requestToClient (server : CustomServer) (client : ConnectionPtr) (id : UInt32) :
    CustomServer × List Call :=
  match server.findClient view id with
  | some client_ =>
      match server.connectClients (view client).id id with
      | (true, server) => (server, [.send client_ (idMsg .requestToClient (view client).id)])
      | (false, server) => (server, [.send client (idMsg .requestToClient 1)])
  | none => (server, [.send client (idMsg .requestToClient 0)])

/-- The loop of `case TextClient`. It goes on after it has disconnected the
pair. -/
def relayText (client : ConnectionPtr) (msg : Message CustomMsgTypes) (id : UInt32) :
    List ConnectionPtr → CustomServer → Except Fault (CustomServer × List Call)
  | [], server => .ok (server, [])
  | client_ :: rest, server =>
      if (view client_).id = id then
        if 0 < server.clientConnections.count (view client).id ∧ (view client_).isConnected then
          .ok (server, [.send client_ msg])
        else do
          let server ← server.disconnectClients id (view client).id
          let (server, calls) ← relayText client msg id rest server
          return (server, .send client closeMsg :: calls)
      else relayText client msg id rest server

/-- Send to the connection with the id, if the deque has one. -/
def sendToId (server : CustomServer) (id : UInt32) (msg : Message CustomMsgTypes) : List Call :=
  match server.findClient view id with
  | some client_ => [.send client_ msg]
  | none => []

/-- `OnMessage`. -/
def onMessage (server : CustomServer) (client : ConnectionPtr) (msg : Message CustomMsgTypes) :
    Except Fault (CustomServer × List Call) :=
  match msg.header.id with
  | .serverAccept => .ok (server, [])
  | .serverPing => .ok (server, [.send client msg])
  | .messageAll =>
      .ok (server.messageAllClient view (idMsg .serverMessage (view client).id) (some client))
  | .clientList =>
      let (list, server, calls) := server.getClientList view
      let outMsg := list.foldl Message.push (Message.ofType CustomMsgTypes.clientList)
      .ok (server, calls ++ [.send client outMsg])
  | .requestToClient => do
      let (id, _) ← msg.pop UInt32
      return server.requestToClient view client id
  | .textClient => do
      let id ← server.clientConnections.atKey (view client).id
      relayText view client msg id server.dequeConnections server
  | .requestAnswer => do
      let id ← server.clientConnections.atKey (view client).id
      return (server, server.sendToId view id msg)
  | .closeClient => do
      let id ← server.clientConnections.atKey (view client).id
      let calls := server.sendToId view id closeMsg
      let server ← server.disconnectClients (view client).id id
      return (server, calls)
  | _ => .ok (server, [])

end CustomServer

end NetworkChat
