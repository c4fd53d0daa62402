import NetworkChat.Message

/-!
# The client's handlers

`Custom_Client::ExecuteMessages` (`Client.cpp`) takes one message after the other
from the queue, reads the data of its type from the body and prints it or changes
the two ids of the client: `ConnectedToId`, the partner of the chat, and
`ConnectionRequestId`, the client that was asked or asks for one.

`readMessage` is the extraction and `react` the change of the ids. The texts that
are printed are not modelled, nor is `muxConnect`, which only guards the wait of
the thread that gave the command.
-/

set_option autoImplicit false

namespace NetworkChat

open Foundation

/-- `std::chrono::system_clock::time_point`: the count of its ticks. -/
abbrev TimePoint := UInt64

/-- `int`, by its bits. -/
abbrev CInt := UInt32

/-- What a message tells the client: the data that is extracted from it. -/
inductive Received where
  | serverPing (timeThen : TimePoint)
  | serverMessage (clientID : UInt32)
  | serverAccept (id : UInt32)
  /-- The ids with the numbers they are printed with. -/
  | clientList (ids : List (ℕ × UInt32))
  | requestToClient (id : UInt32)
  | textClient (text : List UInt8)
  | requestAnswer (code : CInt)
  | closeClient
  | unknown
  deriving DecidableEq, Repr

/-- The loop of `case ClientList`, from `listSize` down to one. -/
def readClientList : ℕ → Message CustomMsgTypes → Except Fault (List (ℕ × UInt32))
  | 0, _ => .ok []
  | i + 1, msg => do
      let (id, msg) ← msg.pop UInt32
      let ids ← readClientList i msg
      return (i + 1, id) :: ids

/-- The extractions of `ExecuteMessages`. -/
def readMessage (msg : Message CustomMsgTypes) : Except Fault Received :=
  match msg.header.id with
  | .serverPing => do
      let (timeThen, _) ← msg.pop TimePoint
      return .serverPing timeThen
  | .serverMessage => do
      let (clientID, _) ← msg.pop UInt32
      return .serverMessage clientID
  | .serverAccept => do
      let (id, _) ← msg.pop UInt32
      return .serverAccept id
  | .clientList => do
      let ids ← readClientList (msg.size / FixedLayout.size UInt32) msg
      return .clientList ids
  | .requestToClient => do
      let (id, _) ← msg.pop UInt32
      return .requestToClient id
  | .textClient => do
      let (text, _) ← msg.popString []
      return .textClient text
  | .requestAnswer => do
      let (code, _) ← msg.pop CInt
      return .requestAnswer code
  | .closeClient => .ok .closeClient
  | _ => .ok .unknown

/-- The ids of a client. -/
structure CustomClient where
  connectedToId : UInt32
  connectionRequestId : UInt32
  deriving DecidableEq, Repr

namespace CustomClient

def start : CustomClient := ⟨0, 0⟩

/-- What `ExecuteMessages` does with the ids. -/
def react (client : CustomClient) : Received → CustomClient
  | .requestToClient id =>
      if id = 0 ∨ id = 1 then { client with connectionRequestId := 0 }
      else { client with connectionRequestId := id }
  | .requestAnswer code =>
      if code ≠ 0 then
        { client with connectedToId := client.connectionRequestId, connectionRequestId := 0 }
      else { client with connectionRequestId := 0 }
  | .closeClient => { client with connectedToId := 0, connectionRequestId := 0 }
  | _ => client

theorem react_refused (client : CustomClient) {id : UInt32} (refused : id = 0 ∨ id = 1) :
    client.react (.requestToClient id) = { client with connectionRequestId := 0 } :=
  if_pos refused

theorem react_request (client : CustomClient) {id : UInt32} (asks : ¬ (id = 0 ∨ id = 1)) :
    client.react (.requestToClient id) = { client with connectionRequestId := id } :=
  if_neg asks

theorem react_declined (client : CustomClient) :
    client.react (.requestAnswer 0) = { client with connectionRequestId := 0 } := rfl

theorem react_accepted (client : CustomClient) {code : CInt} (accepted : code ≠ 0) :
    client.react (.requestAnswer code) =
      { client with
        connectedToId := client.connectionRequestId, connectionRequestId := 0 } :=
  if_pos accepted

theorem react_closeClient (client : CustomClient) :
    client.react .closeClient = { client with connectedToId := 0, connectionRequestId := 0 } := rfl

/-- One message of `ExecuteMessages`. -/
def executeMessage (client : CustomClient) (msg : Message CustomMsgTypes) :
    Except Fault CustomClient := do
  let received ← readMessage msg
  return client.react received

end CustomClient

end NetworkChat
