import NetworkChat.Client.Handlers
import NetworkChat.Foundation.Runs
import NetworkChat.Server.Handlers

/-!
# The threads of a client

`Custom_Client` (`Client.cpp`) as its threads run it. The thread of the user takes commands
and the lines of a chat, the thread that `ConnectTo` starts polls the ESC key, and the thread
of `ExecuteMessages` handles what arrives. A step of a thread reads or writes one thing that
the threads share, so that a run may take the steps of the three in any order.

`muxConnect` is held by the thread of the user in `ConnectTo`, but for the wait, and by the
thread that polls while it waits for a key to be read. A wait may end at any time, so
`notify_one` has no effect of its own. The commands that only print or ask for a list are
left out.

A request is numbered when it is sent (`Ticket`). Which request a message belongs to, and
which one `ConnectionRequestId` stands for, is kept beside the state of the source and read by
no step.
-/

set_option autoImplicit false

namespace NetworkChat

open Foundation

/-- A request of a client. -/
structure Ticket where
  asker : ConnectionPtr
  asked : UInt32
  number : ℕ
  deriving DecidableEq, Repr

/-- A message, the client that wrote it and the request that it belongs to. -/
structure Envelope where
  sender : ConnectionPtr
  msg : Message CustomMsgTypes
  ticket : Option Ticket
  deriving DecidableEq

/-! ## Messages of a client -/

namespace CustomClient

/-- `ConnectRequest`. -/
def connectRequest (id : UInt32) : Message CustomMsgTypes :=
  (Message.ofType .requestToClient).push id

/-- `SendToClient`. -/
def sendToClient (text : List UInt8) : Message CustomMsgTypes :=
  (Message.ofType .textClient).pushString text

/-- The answer to a request, `int(1)` or `int(0)`. -/
def requestAnswer (accepted : Bool) : Message CustomMsgTypes :=
  (Message.ofType .requestAnswer).push (if accepted then (1 : CInt) else 0)

/-- The message of `CommandPrefix::CloseClient`. -/
def closeClient : Message CustomMsgTypes := .ofType .closeClient

@[simp] theorem connectRequest_type (id : UInt32) :
    (connectRequest id).header.id = .requestToClient := rfl

@[simp] theorem sendToClient_type (text : List UInt8) :
    (sendToClient text).header.id = .textClient := rfl

@[simp] theorem requestAnswer_type (accepted : Bool) :
    (requestAnswer accepted).header.id = .requestAnswer := rfl

@[simp] theorem closeClient_type : closeClient.header.id = .closeClient := rfl

end CustomClient

/-! ## Where the threads stand -/

/-- The lines of `case CommandPrefix::CloseClient`. -/
inductive CloseLine where
  /-- `oc.Send(msg)`. -/
  | send
  /-- `oc.ChangeConnectedToId(0)`. -/
  | connected
  /-- `oc.ConnectionRequestId = 0`. -/
  | request
  deriving DecidableEq, Repr

/-- Which command opened the chat. -/
inductive ChatCaller where
  | connectTo
  | requestAccept
  deriving DecidableEq, Repr

/-- The next line of the user's thread. -/
inductive UserLine where
  /-- `std::getline` of `main`. -/
  | prompt
  /-- `oc.ConnectionRequestId = c.id`. -/
  | storeRequest (ticket : Ticket)
  /-- The lock of `muxConnect` and `std::async`. -/
  | lockConnect (ticket : Ticket)
  /-- `while (oc.ConnectionRequestId == c.id)`. -/
  | checkRequest (ticket : Ticket)
  /-- `oc.cvConnect.wait(ul)`. -/
  | wait (ticket : Ticket)
  /-- `if (oc.GetConnectedToId() >= 10000)`. -/
  | checkConnected
  /-- The end of `ConnectTo`: the thread that polls is joined, the lock is released. -/
  | joinAbort
  /-- `oc.Send(msg)` of an answer. -/
  | sendAnswer (accepted : Bool) (ticket : Option Ticket)
  /-- `oc.ChangeConnectedToId(oc.ConnectionRequestId)`, the id is read. -/
  | loadRequest
  /-- The id that was read is written. -/
  | storeConnected (id : UInt32)
  /-- `std::getline` of `OpenChatWithClient`. -/
  | chat (caller : ChatCaller)
  /-- `while(GetConnectedToId() != 0)`. -/
  | checkChat (caller : ChatCaller) (data : List UInt8)
  /-- `SendToClient(DataToClient)`. -/
  | sendText (caller : ChatCaller) (data : List UInt8)
  | close (caller : ChatCaller) (line : CloseLine)
  deriving DecidableEq, Repr

/-- The next line of the thread that `ConnectTo` starts. -/
inductive AbortLine where
  | off
  /-- `while (oc.ConnectionRequestId == c.id)`. -/
  | check (id : UInt32)
  /-- `GetAsyncKeyState(27)`. -/
  | poll (id : UInt32)
  | close (id : UInt32) (line : CloseLine)
  /-- The lock of `muxConnect` and `notify_one`. -/
  | lock (id : UInt32)
  /-- `std::cin.get()`. -/
  | getChar (id : UInt32)
  deriving DecidableEq, Repr

/-- The next line of `ExecuteMessages`. -/
inductive ExecuteLine where
  | idle
  /-- `ConnectionRequestId = id`. -/
  | storeRequest (id : UInt32) (ticket : Option Ticket)
  /-- `ChangeConnectedToId(ConnectionRequestId)`, the id is read. -/
  | loadRequest (answer : Envelope)
  /-- The id that was read is written. -/
  | storeConnected (id : UInt32) (answer : Envelope)
  /-- The lock, `ConnectionRequestId = 0` and `notify_one`. -/
  | reset
  /-- `ChangeConnectedToId(0)`. -/
  | closeConnected
  /-- `ConnectionRequestId = 0`. -/
  | closeRequest
  /-- An exception has left the thread. -/
  | ended
  deriving DecidableEq

structure ChatClient where
  ids : CustomClient
  /-- The request that `ConnectionRequestId` stands for. -/
  request : Option Ticket
  /-- How many requests it has sent. -/
  requests : ℕ
  user : UserLine
  abort : AbortLine
  execute : ExecuteLine
  /-- What it has sent and the server has not handled. -/
  outgoing : List Envelope
  /-- What was sent to it and it has not taken off its queue. -/
  incoming : List Envelope
  deriving DecidableEq

namespace ChatClient

def start : ChatClient := ⟨CustomClient.start, none, 0, .prompt, .off, .idle, [], []⟩

/-! ## Stores and sends -/

/-- `ChangeConnectedToId`. -/
def changeConnectedToId (c : ChatClient) (id : UInt32) : ChatClient :=
  { c with ids := { c.ids with connectedToId := id } }

/-- A store into `ConnectionRequestId`. -/
def storeRequestId (c : ChatClient) (id : UInt32) (ticket : Option Ticket) : ChatClient :=
  { c with ids := { c.ids with connectionRequestId := id }, request := ticket }

/-- `Send`. -/
def send (self : ConnectionPtr) (c : ChatClient) (msg : Message CustomMsgTypes)
    (ticket : Option Ticket) : ChatClient :=
  { c with outgoing := c.outgoing ++ [⟨self, msg, ticket⟩] }

/-- A line of `CloseClient`. -/
def closeLine (self : ConnectionPtr) (c : ChatClient) : CloseLine → ChatClient
  | .send => c.send self CustomClient.closeClient none
  | .connected => c.changeConnectedToId 0
  | .request => c.storeRequestId 0 none

/-! ## `muxConnect` -/

def UserLine.holdsMux : UserLine → Bool
  | .checkRequest _ => true
  | .checkConnected => true
  | .joinAbort => true
  | .chat caller => caller = .connectTo
  | .checkChat caller _ => caller = .connectTo
  | .sendText caller _ => caller = .connectTo
  | .close caller _ => caller = .connectTo
  | _ => false

def AbortLine.holdsMux : AbortLine → Bool
  | .getChar _ => true
  | _ => false

def muxFree (c : ChatClient) : Bool := !UserLine.holdsMux c.user && !AbortLine.holdsMux c.abort

/-! ## The user -/

/-- What the user types at the prompt. -/
inductive Command where
  | connectTo (id : UInt32)
  | requestAccept
  | requestDecline
  deriving DecidableEq, Repr

/-- `if(oc.ConnectionRequestId >= 10000)` of the two answers. -/
def answer (c : ChatClient) (accepted : Bool) : ChatClient :=
  if 10000 ≤ c.ids.connectionRequestId then { c with user := .sendAnswer accepted c.request } else c

/-- `operator<<(Custom_Client&, Command)` up to its first shared access. -/
def command (self : ConnectionPtr) (c : ChatClient) : Command → ChatClient
  | .connectTo id =>
      let ticket : Ticket := ⟨self, id, c.requests⟩
      { c.send self (CustomClient.connectRequest id) (some ticket) with
        requests := c.requests + 1, user := .storeRequest ticket }
  | .requestAccept => c.answer true
  | .requestDecline => c.answer false

/-- `-close`. -/
def closeText : List UInt8 := [45, 99, 108, 111, 115, 101]

/-- Where a chat that has ended returns to. -/
def leaveChat : ChatCaller → UserLine
  | .connectTo => .joinAbort
  | .requestAccept => .prompt

/-- The next line of the user's thread, if it can be taken and is no input. -/
def userStep (self : ConnectionPtr) (c : ChatClient) : Option ChatClient :=
  match c.user with
  | .prompt => none
  | .storeRequest ticket =>
      some { c.storeRequestId ticket.asked (some ticket) with user := .lockConnect ticket }
  | .lockConnect ticket =>
      -- The thread of an earlier `ConnectTo` was joined.
      if c.muxFree ∧ c.abort = .off then
        some { c with user := .checkRequest ticket, abort := .check ticket.asked }
      else none
  | .checkRequest ticket =>
      if c.ids.connectionRequestId = ticket.asked then some { c with user := .wait ticket }
      else some { c with user := .checkConnected }
  | .wait ticket => if c.muxFree then some { c with user := .checkRequest ticket } else none
  | .checkConnected =>
      if 10000 ≤ c.ids.connectedToId then some { c with user := .chat .connectTo }
      else some { c with user := .joinAbort }
  | .joinAbort => if c.abort = .off then some { c with user := .prompt } else none
  | .sendAnswer accepted ticket =>
      some { c.send self (CustomClient.requestAnswer accepted) ticket with
        user := if accepted then .loadRequest else .prompt }
  | .loadRequest => some { c with user := .storeConnected c.ids.connectionRequestId }
  | .storeConnected id => some { c.changeConnectedToId id with user := .chat .requestAccept }
  | .chat _ => none
  | .checkChat caller data =>
      if c.ids.connectedToId ≠ 0 then
        some { c with
          user := if data = closeText then .close caller .send else .sendText caller data }
      else some { c with user := leaveChat caller }
  | .sendText caller data =>
      some { c.send self (CustomClient.sendToClient data) none with user := .chat caller }
  | .close caller .send => some { c.closeLine self .send with user := .close caller .connected }
  | .close caller .connected =>
      some { c.closeLine self .connected with user := .close caller .request }
  | .close caller .request => some { c.closeLine self .request with user := .chat caller }

/-! ## The thread that polls -/

/-- The next line of the thread that polls. -/
def abortStep (self : ConnectionPtr) (c : ChatClient) (pressed : Bool) : Option ChatClient :=
  match c.abort with
  | .off => none
  | .check id =>
      if c.ids.connectionRequestId = id then some { c with abort := .poll id }
      else some { c with abort := .off }
  | .poll id => some { c with abort := if pressed then .close id .send else .check id }
  | .close id .send => some { c.closeLine self .send with abort := .close id .connected }
  | .close id .connected => some { c.closeLine self .connected with abort := .close id .request }
  | .close id .request => some { c.closeLine self .request with abort := .lock id }
  | .lock id => if c.muxFree then some { c with abort := .getChar id } else none
  | .getChar id => some { c with abort := .check id }

/-! ## `ExecuteMessages` -/

/-- The line to which what was read leads. -/
def receivedLine (envelope : Envelope) : Received → ExecuteLine
  | .requestToClient id => if id = 0 ∨ id = 1 then .reset else .storeRequest id envelope.ticket
  | .requestAnswer code => if code ≠ 0 then .loadRequest envelope else .reset
  | .closeClient => .closeConnected
  | .serverPing _ | .serverMessage _ | .serverAccept _ | .clientList _ | .textClient _ | .unknown =>
      .idle

/-- The line to which a message leads, when it is taken off the queue. -/
def executeLine (envelope : Envelope) : ExecuteLine :=
  match readMessage envelope.msg with
  | .ok received => receivedLine envelope received
  | .error _ => .ended

/-- The next line of `ExecuteMessages`. -/
def executeStep (c : ChatClient) : Option ChatClient :=
  match c.execute with
  | .idle =>
      match c.incoming with
      | [] => none
      | envelope :: later => some { c with incoming := later, execute := executeLine envelope }
  | .storeRequest id ticket => some { c.storeRequestId id ticket with execute := .idle }
  | .loadRequest answer =>
      some { c with execute := .storeConnected c.ids.connectionRequestId answer }
  | .storeConnected id _ => some { c.changeConnectedToId id with execute := .reset }
  | .reset => if c.muxFree then some { c.storeRequestId 0 none with execute := .idle } else none
  | .closeConnected => some { c.changeConnectedToId 0 with execute := .closeRequest }
  | .closeRequest => some { c.storeRequestId 0 none with execute := .idle }
  | .ended => none

/-! ## Steps -/

inductive Event where
  /-- The user types a command at the prompt. -/
  | command (command : Command)
  /-- The user types a line of a chat. -/
  | type (data : List UInt8)
  /-- The thread of the user goes on. -/
  | user
  /-- The thread that polls goes on, and finds the key pressed or not. -/
  | abort (pressed : Bool)
  /-- `ExecuteMessages` goes on. -/
  | execute
  deriving DecidableEq, Repr

/-- The next state, if the event can happen. -/
def step (self : ConnectionPtr) (c : ChatClient) : Event → Option ChatClient
  | .command command => if c.user = .prompt then some (c.command self command) else none
  | .type data =>
      match c.user with
      | .chat caller => some { c with user := .checkChat caller data }
      | _ => none
  | .user => c.userStep self
  | .abort pressed => c.abortStep self pressed
  | .execute => c.executeStep

/-! ## What a step does -/

/-- The line is in the command of a request: the one that it waits for. -/
def UserLine.outstanding : UserLine → Option Ticket
  | .storeRequest ticket => some ticket
  | .lockConnect ticket => some ticket
  | .checkRequest ticket => some ticket
  | .wait ticket => some ticket
  | _ => none

/-- The line is between the send of a request and the store of its id. -/
def UserLine.storing : UserLine → Option Ticket
  | .storeRequest ticket => some ticket
  | _ => none

/-- The line sends the acceptance of a request. -/
def UserLine.accepting : UserLine → Option Ticket
  | .sendAnswer true ticket => ticket
  | _ => none

/-- The line is between the acceptance and its store into `ConnectedToId`. -/
def UserLine.writes : UserLine → Bool
  | .loadRequest => true
  | .storeConnected _ => true
  | _ => false

/-- The line is between the close and its store into `ConnectedToId`. -/
def UserLine.erases : UserLine → Bool
  | .close _ .connected => true
  | _ => false

def AbortLine.erases : AbortLine → Bool
  | .close _ .connected => true
  | _ => false

/-- Some thread has sent a close and has yet to erase `ConnectedToId`. -/
def erases (c : ChatClient) : Bool := UserLine.erases c.user || AbortLine.erases c.abort

/-- The lines after a step of the user or of the thread that polls, which neither answers
nor writes an id. -/
structure Passes (c : ChatClient) (user : UserLine) : Prop where
  writes : UserLine.writes user = UserLine.writes c.user
  accepting : UserLine.accepting user = UserLine.accepting c.user
  storing : UserLine.storing user = UserLine.storing c.user
  outstanding : UserLine.outstanding user = UserLine.outstanding c.user ∨
    ∃ ticket, UserLine.outstanding c.user = some ticket ∧
      c.ids.connectionRequestId ≠ ticket.asked ∧ UserLine.outstanding user = none

/-- What the next step of a thread writes to `ConnectionRequestId`. -/
def requestStore (c : ChatClient) : Event → Option UInt32
  | .user =>
      match c.user with
      | .storeRequest ticket => some ticket.asked
      | .close _ .request => some 0
      | _ => none
  | .abort _ =>
      match c.abort with
      | .close _ .request => some 0
      | _ => none
  | .execute =>
      match c.execute with
      | .storeRequest id _ => some id
      | .reset => some 0
      | .closeRequest => some 0
      | _ => none
  | _ => none

/-- What the next step of a thread writes to `ConnectedToId`. -/
def connectedStore (c : ChatClient) : Event → Option UInt32
  | .user =>
      match c.user with
      | .storeConnected id => some id
      | .close _ .connected => some 0
      | _ => none
  | .abort _ =>
      match c.abort with
      | .close _ .connected => some 0
      | _ => none
  | .execute =>
      match c.execute with
      | .storeConnected id _ => some id
      | .closeConnected => some 0
      | _ => none
  | _ => none

/-- What a step does, one case for each access to what the threads share. -/
inductive Steps (self : ConnectionPtr) (c : ChatClient) : Event → ChatClient → Prop where
  | lines (event : Event) (user : UserLine) (abort : AbortLine) (passes : Passes c user)
      (erases : (UserLine.erases user || AbortLine.erases abort) = c.erases) :
      Steps self c event { c with user := user, abort := abort }
  | answer (command : Command) (accepted : Bool) (line : c.user = .prompt)
      (asked : 10000 ≤ c.ids.connectionRequestId) :
      Steps self c (.command command) { c with user := .sendAnswer accepted c.request }
  | connectTo (id : UInt32) (line : c.user = .prompt) :
      Steps self c (.command (.connectTo id))
        { c.send self (CustomClient.connectRequest id) (some ⟨self, id, c.requests⟩) with
          requests := c.requests + 1, user := .storeRequest ⟨self, id, c.requests⟩ }
  | storeRequest (ticket : Ticket) (line : c.user = .storeRequest ticket) :
      Steps self c .user
        { c.storeRequestId ticket.asked (some ticket) with user := .lockConnect ticket }
  | sendAnswer (accepted : Bool) (ticket : Option Ticket)
      (line : c.user = .sendAnswer accepted ticket) :
      Steps self c .user { c.send self (CustomClient.requestAnswer accepted) ticket with
        user := if accepted then .loadRequest else .prompt }
  | storeConnected (id : UInt32) (line : c.user = .storeConnected id) :
      Steps self c .user { c.changeConnectedToId id with user := .chat .requestAccept }
  | sendText (caller : ChatCaller) (data : List UInt8) (line : c.user = .sendText caller data) :
      Steps self c .user
        { c.send self (CustomClient.sendToClient data) none with user := .chat caller }
  | sendClose (event : Event) (user : UserLine) (abort : AbortLine) (passes : Passes c user)
      (erases : (UserLine.erases user || AbortLine.erases abort) = true) :
      Steps self c event
        { c.send self CustomClient.closeClient none with user := user, abort := abort }
  | eraseConnected (event : Event) (user : UserLine) (abort : AbortLine) (passes : Passes c user)
      (erases : c.erases = true) :
      Steps self c event { c.changeConnectedToId 0 with user := user, abort := abort }
  | eraseRequest (event : Event) (user : UserLine) (abort : AbortLine) (passes : Passes c user)
      (erases : (UserLine.erases user || AbortLine.erases abort) = c.erases)
      (stores : c.requestStore event = some 0) :
      Steps self c event { c.storeRequestId 0 none with user := user, abort := abort }
  | take (envelope : Envelope) (later : List Envelope) (line : c.execute = .idle)
      (queue : c.incoming = envelope :: later) :
      Steps self c .execute { c with incoming := later, execute := executeLine envelope }
  | executeStoreRequest (id : UInt32) (ticket : Option Ticket)
      (line : c.execute = .storeRequest id ticket) :
      Steps self c .execute { c.storeRequestId id ticket with execute := .idle }
  | executeLoad (answer : Envelope) (line : c.execute = .loadRequest answer) :
      Steps self c .execute
        { c with execute := .storeConnected c.ids.connectionRequestId answer }
  | executeStoreConnected (id : UInt32) (answer : Envelope)
      (line : c.execute = .storeConnected id answer) :
      Steps self c .execute { c.changeConnectedToId id with execute := .reset }
  | executeReset (line : c.execute = .reset) :
      Steps self c .execute { c.storeRequestId 0 none with execute := .idle }
  | executeCloseConnected (line : c.execute = .closeConnected) :
      Steps self c .execute { c.changeConnectedToId 0 with execute := .closeRequest }
  | executeCloseRequest (line : c.execute = .closeRequest) :
      Steps self c .execute { c.storeRequestId 0 none with execute := .idle }

theorem Passes.refl (c : ChatClient) : Passes c c.user :=
  ⟨rfl, rfl, rfl, .inl rfl⟩

theorem Passes.of_line {c : ChatClient} {line user : UserLine} (isLine : c.user = line)
    (writes : UserLine.writes user = UserLine.writes line)
    (accepting : UserLine.accepting user = UserLine.accepting line)
    (storing : UserLine.storing user = UserLine.storing line)
    (outstanding : UserLine.outstanding user = UserLine.outstanding line) : Passes c user := by
  subst isLine
  exact ⟨writes, accepting, storing, .inl outstanding⟩

/-- A line of the user that changes nothing else. -/
theorem Steps.user_line {self : ConnectionPtr} {c : ChatClient} {event : Event}
    {line user : UserLine} (isLine : c.user = line) (passes : Passes c user)
    (erases : UserLine.erases user = UserLine.erases line) :
    Steps self c event { c with user := user } := by
  subst isLine
  exact .lines event user c.abort passes (by rw [ChatClient.erases, erases])

/-- A line of the thread that polls that changes nothing else. -/
theorem Steps.abort_line {self : ConnectionPtr} {c : ChatClient} {event : Event}
    {line abort : AbortLine} (isLine : c.abort = line)
    (erases : AbortLine.erases abort = AbortLine.erases line) :
    Steps self c event { c with abort := abort } := by
  subst isLine
  exact .lines event c.user abort (.refl c) (by rw [ChatClient.erases, erases])

theorem userStep_cases {self : ConnectionPtr} {c d : ChatClient}
    (taken : c.userStep self = some d) : Steps self c .user d := by
  cases isLine : c.user with
  | prompt => simp only [userStep, isLine] at taken; cases taken
  | storeRequest ticket =>
      simp only [userStep, isLine] at taken
      cases taken
      exact .storeRequest ticket isLine
  | lockConnect ticket =>
      simp only [userStep, isLine] at taken
      split at taken
      case isTrue allowed =>
        cases taken
        refine .lines _ _ _ (.of_line isLine rfl rfl rfl rfl) ?_
        rw [ChatClient.erases, isLine, allowed.2]
        rfl
      case isFalse => cases taken
  | checkRequest ticket =>
      simp only [userStep, isLine] at taken
      split at taken
      case isTrue same => cases taken; exact .user_line isLine (.of_line isLine rfl rfl rfl rfl) rfl
      case isFalse differs =>
        cases taken
        refine .user_line isLine ⟨by rw [isLine]; rfl, by rw [isLine]; rfl, by rw [isLine]; rfl, ?_⟩
          rfl
        exact .inr ⟨ticket, by rw [isLine]; rfl, differs, rfl⟩
  | wait ticket =>
      simp only [userStep, isLine] at taken
      split at taken
      case isTrue free => cases taken; exact .user_line isLine (.of_line isLine rfl rfl rfl rfl) rfl
      case isFalse => cases taken
  | checkConnected =>
      simp only [userStep, isLine] at taken
      split at taken
      all_goals
        cases taken
        exact .user_line isLine (.of_line isLine rfl rfl rfl rfl) rfl
  | joinAbort =>
      simp only [userStep, isLine] at taken
      split at taken
      case isTrue joined =>
        cases taken
        exact .user_line isLine (.of_line isLine rfl rfl rfl rfl) rfl
      case isFalse => cases taken
  | sendAnswer accepted ticket =>
      simp only [userStep, isLine] at taken
      cases taken
      exact .sendAnswer accepted ticket isLine
  | loadRequest =>
      simp only [userStep, isLine] at taken
      cases taken
      exact .user_line isLine (.of_line isLine rfl rfl rfl rfl) rfl
  | storeConnected id =>
      simp only [userStep, isLine] at taken
      cases taken
      exact .storeConnected id isLine
  | chat caller => simp only [userStep, isLine] at taken; cases taken
  | checkChat caller data =>
      simp only [userStep, isLine] at taken
      split at taken
      case isTrue inChat =>
        cases taken
        split
        all_goals exact .user_line isLine (.of_line isLine rfl rfl rfl rfl) rfl
      case isFalse =>
        cases taken
        cases caller
        all_goals exact .user_line isLine (.of_line isLine rfl rfl rfl rfl) rfl
  | sendText caller data =>
      simp only [userStep, isLine] at taken
      cases taken
      exact .sendText caller data isLine
  | close caller line =>
      cases line with
      | send =>
          simp only [userStep, isLine] at taken
          cases taken
          exact .sendClose _ _ c.abort (.of_line isLine rfl rfl rfl rfl) rfl
      | connected =>
          simp only [userStep, isLine] at taken
          cases taken
          refine .eraseConnected _ _ c.abort (.of_line isLine rfl rfl rfl rfl) ?_
          rw [ChatClient.erases, isLine]
          rfl
      | request =>
          simp only [userStep, isLine] at taken
          cases taken
          refine .eraseRequest _ _ c.abort (.of_line isLine rfl rfl rfl rfl) ?_ ?_
          · rw [ChatClient.erases, isLine]
            rfl
          · simp only [requestStore, isLine]

theorem abortStep_cases {self : ConnectionPtr} {c d : ChatClient} {pressed : Bool}
    (taken : c.abortStep self pressed = some d) : Steps self c (.abort pressed) d := by
  cases isLine : c.abort with
  | off => simp only [abortStep, isLine] at taken; cases taken
  | check id =>
      simp only [abortStep, isLine] at taken
      split at taken
      all_goals
        cases taken
        exact .abort_line isLine rfl
  | poll id =>
      simp only [abortStep, isLine] at taken
      cases taken
      cases pressed <;> exact .abort_line isLine rfl
  | close id line =>
      cases line with
      | send =>
          simp only [abortStep, isLine] at taken
          cases taken
          exact .sendClose _ c.user _ (.refl c) (Bool.or_true _)
      | connected =>
          simp only [abortStep, isLine] at taken
          cases taken
          refine .eraseConnected _ c.user _ (.refl c) ?_
          rw [ChatClient.erases, isLine]
          exact Bool.or_true _
      | request =>
          simp only [abortStep, isLine] at taken
          cases taken
          refine .eraseRequest _ c.user _ (.refl c) ?_ ?_
          · rw [ChatClient.erases, isLine]
            rfl
          · simp only [requestStore, isLine]
  | lock id =>
      simp only [abortStep, isLine] at taken
      split at taken
      case isTrue free => cases taken; exact .abort_line isLine rfl
      case isFalse => cases taken
  | getChar id =>
      simp only [abortStep, isLine] at taken
      cases taken
      exact .abort_line isLine rfl

theorem executeStep_cases {self : ConnectionPtr} {c d : ChatClient}
    (taken : c.executeStep = some d) : Steps self c .execute d := by
  cases isLine : c.execute with
  | idle =>
      simp only [executeStep, isLine] at taken
      split at taken
      case h_1 => cases taken
      case h_2 envelope later queue => cases taken; exact .take envelope later isLine queue
  | storeRequest id ticket =>
      simp only [executeStep, isLine] at taken
      cases taken
      exact .executeStoreRequest id ticket isLine
  | loadRequest answer =>
      simp only [executeStep, isLine] at taken
      cases taken
      exact .executeLoad answer isLine
  | storeConnected id answer =>
      simp only [executeStep, isLine] at taken
      cases taken
      exact .executeStoreConnected id answer isLine
  | reset =>
      simp only [executeStep, isLine] at taken
      split at taken
      case isTrue free => cases taken; exact .executeReset isLine
      case isFalse => cases taken
  | closeConnected =>
      simp only [executeStep, isLine] at taken
      cases taken
      exact .executeCloseConnected isLine
  | closeRequest =>
      simp only [executeStep, isLine] at taken
      cases taken
      exact .executeCloseRequest isLine
  | ended => simp only [executeStep, isLine] at taken; cases taken

/-- **A step has one of the effects.** -/
theorem step_cases {self : ConnectionPtr} {c d : ChatClient} {event : Event}
    (taken : c.step self event = some d) : Steps self c event d := by
  cases event with
  | command command =>
      simp only [step] at taken
      split at taken
      case isFalse => cases taken
      case isTrue line =>
        have unchanged : Steps self c (.command command) c :=
          .lines _ c.user c.abort (.refl c) rfl
        have answers : ∀ accepted, Steps self c (.command command) (c.answer accepted) := by
          intro accepted
          rw [ChatClient.answer]
          split
          case isTrue asked => exact .answer command accepted line asked
          case isFalse => exact unchanged
        cases taken
        cases command with
        | connectTo id => exact .connectTo id line
        | requestAccept => exact answers true
        | requestDecline => exact answers false
  | type data =>
      simp only [step] at taken
      split at taken
      case h_1 caller line => cases taken; exact .user_line line (.of_line line rfl rfl rfl rfl) rfl
      case h_2 => cases taken
  | user => exact userStep_cases taken
  | abort pressed => exact abortStep_cases taken
  | execute => exact executeStep_cases taken

/-! ## What a step leaves -/

section Leaves

variable {self : ConnectionPtr} {c d : ChatClient} {event : Event}

/-- Where a command leads. -/
theorem user_of_command {command : Command} (taken : c.step self (.command command) = some d) :
    d.user = .prompt ∨ (∃ ticket, d.user = .storeRequest ticket) ∨
      ∃ accepted ticket, d.user = .sendAnswer accepted ticket := by
  simp only [step] at taken
  split at taken
  case isFalse => cases taken
  case isTrue line =>
    cases taken
    have answers : ∀ accepted, (c.answer accepted).user = .prompt ∨
        ∃ ticket, (c.answer accepted).user = .sendAnswer accepted ticket := by
      intro accepted
      rw [answer]
      split
      · exact .inr ⟨_, rfl⟩
      · exact .inl line
    cases command with
    | connectTo id => exact .inr (.inl ⟨_, rfl⟩)
    | requestAccept => exact (answers true).imp_right fun sends => .inr ⟨true, sends⟩
    | requestDecline => exact (answers false).imp_right fun sends => .inr ⟨false, sends⟩

/-- A command is taken at the prompt, and leaves the thread that polls alone. -/
theorem frame_of_command {command : Command} (taken : c.step self (.command command) = some d) :
    c.user = .prompt ∧ d.abort = c.abort := by
  simp only [step] at taken
  split at taken
  case isFalse => cases taken
  case isTrue line =>
    cases taken
    refine ⟨line, ?_⟩
    cases command with
    | connectTo id => rfl
    | _ =>
      simp only [ChatClient.command, answer]
      split <;> rfl

/-- A line is typed in a chat. -/
theorem eq_of_type {data : List UInt8} (taken : c.step self (.type data) = some d) :
    ∃ caller, c.user = .chat caller ∧ d = { c with user := .checkChat caller data } := by
  simp only [step] at taken
  split at taken
  case h_1 caller line => cases taken; exact ⟨caller, line, rfl⟩
  case h_2 => cases taken

/-- A step of the user's thread leaves `ExecuteMessages` alone. -/
theorem frame_of_userStep (taken : c.userStep self = some d) : d.execute = c.execute := by
  rw [userStep] at taken
  split at taken
  all_goals try split at taken
  all_goals cases taken
  all_goals rfl

/-- A step of the thread that polls leaves the two others alone. -/
theorem frame_of_abortStep {pressed : Bool} (taken : c.abortStep self pressed = some d) :
    d.user = c.user ∧ d.execute = c.execute := by
  rw [abortStep] at taken
  split at taken
  all_goals try split at taken
  all_goals cases taken
  all_goals exact ⟨rfl, rfl⟩

/-- A step of `ExecuteMessages` leaves the two others alone. -/
theorem frame_of_executeStep (taken : c.executeStep = some d) :
    d.user = c.user ∧ d.abort = c.abort := by
  rw [executeStep] at taken
  split at taken
  all_goals try split at taken
  all_goals cases taken
  all_goals exact ⟨rfl, rfl⟩

/-- **What a step leaves in `ConnectionRequestId`.** -/
theorem connectionRequestId_step (taken : c.step self event = some d) :
    d.ids.connectionRequestId = (c.requestStore event).getD c.ids.connectionRequestId := by
  cases event with
  | command command =>
      simp only [step] at taken
      split at taken
      case isFalse => cases taken
      case isTrue =>
        cases taken
        cases command with
        | connectTo id => rfl
        | _ =>
          simp only [ChatClient.command, answer]
          split <;> rfl
  | type data =>
      simp only [step] at taken
      split at taken
      case h_1 => cases taken; rfl
      case h_2 => cases taken
  | user =>
      simp only [step, userStep] at taken
      split at taken
      all_goals try split at taken
      all_goals cases taken
      all_goals simp only [requestStore, *]
      all_goals rfl
  | abort pressed =>
      simp only [step, abortStep] at taken
      split at taken
      all_goals try split at taken
      all_goals cases taken
      all_goals simp only [requestStore, *]
      all_goals rfl
  | execute =>
      simp only [step, executeStep] at taken
      split at taken
      all_goals try split at taken
      all_goals cases taken
      all_goals simp only [requestStore, *]
      all_goals rfl

/-- What a step of the two other threads leaves in `ConnectedToId`. -/
theorem connectedToId_abortStep {pressed : Bool} (taken : c.abortStep self pressed = some d) :
    d.ids.connectedToId = (c.connectedStore (.abort pressed)).getD c.ids.connectedToId := by
  simp only [abortStep] at taken
  split at taken
  all_goals try split at taken
  all_goals cases taken
  all_goals simp only [connectedStore, *]
  all_goals rfl

theorem connectedToId_executeStep (taken : c.executeStep = some d) :
    d.ids.connectedToId = (c.connectedStore .execute).getD c.ids.connectedToId := by
  simp only [executeStep] at taken
  split at taken
  all_goals try split at taken
  all_goals cases taken
  all_goals simp only [connectedStore, *]
  all_goals rfl

end Leaves

/-! ## What is sent -/

/-- What a client sends. -/
inductive Wrote (client : ConnectionPtr) : Envelope → Prop where
  | request (asked : UInt32) (number : ℕ) :
      Wrote client ⟨client, CustomClient.connectRequest asked, some ⟨client, asked, number⟩⟩
  | text (data : List UInt8) : Wrote client ⟨client, CustomClient.sendToClient data, none⟩
  | answer (accepted : Bool) (ticket : Option Ticket) :
      Wrote client ⟨client, CustomClient.requestAnswer accepted, ticket⟩
  | close : Wrote client ⟨client, CustomClient.closeClient, none⟩

/-- A step sends one message at most. -/
theorem Steps.sends {self : ConnectionPtr} {c d : ChatClient} {event : Event}
    (steps : Steps self c event d) :
    d.outgoing = c.outgoing ∨
      ∃ envelope, Wrote self envelope ∧ d.outgoing = c.outgoing ++ [envelope] := by
  cases steps with
  | connectTo id line => exact .inr ⟨_, .request id c.requests, rfl⟩
  | sendAnswer accepted ticket line => exact .inr ⟨_, .answer accepted ticket, rfl⟩
  | sendText caller data line => exact .inr ⟨_, .text data, rfl⟩
  | sendClose event line abort passes erases => exact .inr ⟨_, .close, rfl⟩
  | _ => exact .inl rfl

/-! ## The line to which a message leads -/

/-- The lines to which messages lead. -/
theorem executeLine_cases (envelope : Envelope) :
    (∃ id, executeLine envelope = .storeRequest id envelope.ticket) ∨
      executeLine envelope = .loadRequest envelope ∨ executeLine envelope = .idle ∨
      executeLine envelope = .reset ∨ executeLine envelope = .closeConnected ∨
      executeLine envelope = .ended := by
  cases reads : readMessage envelope.msg with
  | error fault => simp only [executeLine, reads, or_true]
  | ok received =>
      cases received with
      | requestToClient id =>
          by_cases refused : id = 0 ∨ id = 1
          · simp only [executeLine, reads, receivedLine, if_pos refused, or_true, true_or]
          · exact .inl ⟨id, by simp only [executeLine, reads, receivedLine, if_neg refused]⟩
      | requestAnswer code =>
          by_cases accepted : code ≠ 0
          · right
            left
            simp only [executeLine, reads, receivedLine, if_pos accepted]
          · simp only [executeLine, reads, receivedLine, if_neg accepted, or_true, true_or]
      | _ => simp only [executeLine, reads, receivedLine, or_true, true_or]

theorem readMessage_idMsg (id : UInt32) :
    readMessage (CustomServer.idMsg .requestToClient id) = .ok (.requestToClient id) := by
  have type : (CustomServer.idMsg .requestToClient id).header.id = .requestToClient := rfl
  simp only [readMessage, type]
  rw [CustomServer.idMsg, Message.pop_push]
  rfl

/-- A request that the server passes on is to be stored. -/
theorem executeLine_request {id : UInt32} (isId : 10000 ≤ id) (sender : ConnectionPtr)
    (ticket : Option Ticket) :
    executeLine ⟨sender, CustomServer.idMsg .requestToClient id, ticket⟩ =
      .storeRequest id ticket := by
  have notCode : ¬ (id = 0 ∨ id = 1) := by
    rintro (rfl | rfl)
    · exact absurd isId (by decide)
    · exact absurd isId (by decide)
  simp only [executeLine, readMessage_idMsg, receivedLine, if_neg notCode]

/-- A request that the server refuses resets `ConnectionRequestId`. -/
theorem executeLine_code {code : UInt32} (coded : code = 0 ∨ code = 1) (sender : ConnectionPtr)
    (ticket : Option Ticket) :
    executeLine ⟨sender, CustomServer.idMsg .requestToClient code, ticket⟩ = .reset := by
  simp only [executeLine, readMessage_idMsg, receivedLine, if_pos coded]

theorem executeLine_answer (accepted : Bool) (sender : ConnectionPtr) (ticket : Option Ticket) :
    executeLine ⟨sender, CustomClient.requestAnswer accepted, ticket⟩ =
      if accepted then .loadRequest ⟨sender, CustomClient.requestAnswer accepted, ticket⟩
      else .reset := by
  have reads : readMessage (CustomClient.requestAnswer accepted) =
      .ok (.requestAnswer (if accepted then (1 : CInt) else 0)) := by
    have type : (CustomClient.requestAnswer accepted).header.id = .requestAnswer := rfl
    simp only [readMessage, type]
    rw [CustomClient.requestAnswer, Message.pop_push]
    rfl
  simp only [executeLine, reads]
  cases accepted <;> rfl

/-- A text is printed, or cannot be read. -/
theorem executeLine_text (data : List UInt8) (sender : ConnectionPtr) (ticket : Option Ticket) :
    executeLine ⟨sender, CustomClient.sendToClient data, ticket⟩ = .idle ∨
      executeLine ⟨sender, CustomClient.sendToClient data, ticket⟩ = .ended := by
  have reads : readMessage (CustomClient.sendToClient data) =
      ((CustomClient.sendToClient data).popString []).bind fun read => .ok (.textClient read.1) :=
    rfl
  simp only [executeLine, reads]
  cases (CustomClient.sendToClient data).popString [] with
  | ok read => exact .inl rfl
  | error fault => exact .inr rfl

theorem executeLine_close (sender : ConnectionPtr) (ticket : Option Ticket) :
    executeLine ⟨sender, CustomServer.closeMsg, ticket⟩ = .closeConnected := rfl

theorem executeLine_welcome (sender : ConnectionPtr) (id : UInt32) :
    executeLine ⟨sender, CustomServer.idMsg .serverAccept id, none⟩ = .idle := by
  have reads : readMessage (CustomServer.idMsg .serverAccept id) = .ok (.serverAccept id) := by
    have type : (CustomServer.idMsg .serverAccept id).header.id = .serverAccept := rfl
    simp only [readMessage, type]
    rw [CustomServer.idMsg, Message.pop_push]
    rfl
  simp only [executeLine, reads, receivedLine]

/-! ## A message that is handled without interruption -/

/-- **`ExecuteMessages` alone does to the ids what `react` says.** -/
theorem execute_react (self : ConnectionPtr) {c : ChatClient} {envelope : Envelope}
    {later : List Envelope} {received : Received} (idle : c.execute = .idle)
    (queue : c.incoming = envelope :: later) (reads : readMessage envelope.msg = .ok received)
    (free : c.muxFree = true) :
    ∃ count final, runFrom (step self) c (List.replicate count .execute) = some final ∧
      final.ids = c.ids.react received ∧ final.execute = .idle ∧ final.incoming = later := by
  obtain ⟨ids, request, requests, userLine, abortLine, execute, outgoing, incoming⟩ := c
  subst idle queue
  have muxFree : (!UserLine.holdsMux userLine && !AbortLine.holdsMux abortLine) = true := free
  cases received with
  | requestToClient id =>
      refine ⟨2, ?_⟩
      by_cases refused : id = 0 ∨ id = 1
      · rw [CustomClient.react_refused ids refused]
        simp [runFrom, step, executeStep, executeLine, reads, receivedLine, refused,
          ChatClient.muxFree, muxFree, storeRequestId]
      · rw [CustomClient.react_request ids refused]
        simp [runFrom, step, executeStep, executeLine, reads, receivedLine, refused,
          storeRequestId]
  | requestAnswer code =>
      by_cases declined : code = 0
      · refine ⟨2, ?_⟩
        rw [declined, CustomClient.react_declined]
        simp [runFrom, step, executeStep, executeLine, reads, receivedLine, declined,
          ChatClient.muxFree, muxFree, storeRequestId]
      · refine ⟨4, ?_⟩
        rw [CustomClient.react_accepted ids declined]
        simp [runFrom, step, executeStep, executeLine, reads, receivedLine, declined,
          ChatClient.muxFree, muxFree, storeRequestId, changeConnectedToId]
  | closeClient =>
      refine ⟨3, ?_⟩
      rw [CustomClient.react_closeClient]
      simp [runFrom, step, executeStep, executeLine, reads, receivedLine, storeRequestId,
        changeConnectedToId]
  | _ =>
      refine ⟨1, ?_⟩
      simp [runFrom, step, executeStep, executeLine, reads, receivedLine]
      rfl

end ChatClient

end NetworkChat
