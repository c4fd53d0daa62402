import NetworkChat.Message
import NetworkChat.Foundation.Runs

/-!
# A connection and its handlers

One end of a TCP connection (`net_connection.h`). The members of the class stand
next to what the asynchronous library keeps for the connection: the lambdas
posted to the `io_context`, the outstanding read, the outstanding writes, the
bytes that have arrived and the bytes handed to the network.

Handlers run on the one `io_context` thread, so every handler is one step. The
events are what may happen next: a call from another thread, the run of a posted
lambda, progress or the end of an operation. Their order is free.

* A read is filled from the bytes that have arrived, and its handler runs later.
  `async_read` is filled with exactly the bytes it asked for, `async_read_some`
  (used for the validation code) with any number from one up to them.
* A write is a list of bytes that is handed over in pieces. Two writes may be
  outstanding at once, and then their pieces may come in any order.
* Every byte handed to the network is kept together with the write it comes from.

A handler that would use the front of an empty queue ends in a fault, and no
event is taken after it.
-/

set_option autoImplicit false

namespace NetworkChat

open Foundation

/-- `connection::owner`. -/
inductive Owner where
  | server
  | client
  deriving DecidableEq, Repr

/-- The asynchronous reads: `ReadValidation`, `ReadHeader` and `ReadBody`. -/
inductive ReadKind where
  | validation
  | header
  | body
  deriving DecidableEq, Repr

/-- The outstanding read. `data` are the bytes it was filled with; its handler
has still to run. -/
structure ReadOp where
  kind : ReadKind
  data : Option (List UInt8)
  deriving DecidableEq, Repr

/-- The asynchronous writes: `WriteValidation`, `WriteHeader` and `WriteBody`. -/
inductive WriteKind where
  | validation
  | header
  | body
  deriving DecidableEq, Repr

/-- An outstanding write and the bytes of it that are not yet handed over. -/
structure WriteOp where
  kind : WriteKind
  rest : List UInt8
  deriving DecidableEq, Repr

/-- Bytes with the write they come from. -/
def tagged (kind : WriteKind) (bytes : List UInt8) : List (WriteKind × UInt8) :=
  bytes.map fun byte => (kind, byte)

/-- The lambdas posted to the `io_context`: by `Send` and by `Disconnect`. -/
inductive Posted (T : Type) where
  | send (msg : Message T)
  | close
  deriving DecidableEq, Repr

/-- `connection`. -/
structure Connection (T : Type) where
  ownerType : Owner
  /-- `m_socket.is_open()`. -/
  isOpen : Bool
  msgBuff : Message T
  qMessagesOut : List (Message T)
  /-- What this connection has pushed into the queue of its owner, in order. -/
  qMessagesIn : List (Message T)
  id : UInt32
  validatonCodeOut : UInt64
  validatonCodeIn : UInt64
  validatonCodeSum : UInt64
  /-- `async_connect` is outstanding. -/
  connecting : Bool
  posted : List (Posted T)
  reading : Option ReadOp
  writing : List WriteOp
  /-- The bytes that have arrived and fill no read yet. -/
  inbox : List UInt8
  /-- The bytes handed to the network, each with the write it belongs to. -/
  sent : List (WriteKind × UInt8)
  /-- How often `server->OnClientValidated` was called for this connection. -/
  clientValidated : ℕ
  fault : Option Fault
  deriving DecidableEq, Repr

namespace Connection

variable {T : Type}

/-! ## Starting operations -/

def startRead (c : Connection T) (kind : ReadKind) : Connection T :=
  { c with reading := some ⟨kind, none⟩ }

def startWrite (c : Connection T) (kind : WriteKind) (bytes : List UInt8) : Connection T :=
  { c with writing := c.writing ++ [⟨kind, bytes⟩] }

/-- `m_socket.close()`. It cancels an outstanding `async_connect`, whose handler
does nothing on an error. -/
def closeSocket (c : Connection T) : Connection T :=
  { c with isOpen := false, connecting := false }

def readHeader (c : Connection T) : Connection T := c.startRead .header

def readBody (c : Connection T) : Connection T := c.startRead .body

def readValidation (c : Connection T) : Connection T := c.startRead .validation

def writeValidation (c : Connection T) : Connection T :=
  c.startWrite .validation (toBytes c.validatonCodeOut)

def writeHeader [FullLayout T] (c : Connection T) : Except Fault (Connection T) :=
  match c.qMessagesOut with
  | [] => .error .emptyDeque
  | msg :: _ => .ok (c.startWrite .header (toBytes msg.header))

def writeBody (c : Connection T) : Except Fault (Connection T) :=
  match c.qMessagesOut with
  | [] => .error .emptyDeque
  | msg :: _ => .ok (c.startWrite .body msg.body)

def addToIncomimgMessageQueue (c : Connection T) : Connection T :=
  { c with qMessagesIn := c.qMessagesIn ++ [c.msgBuff] }.readHeader

def scramble (inputVal : UInt64) : UInt64 := inputVal ^^^ 0xdfca

/-! ## Handlers of reads -/

/-- `std::vector::resize`: cut, or filled up with zeros. -/
def resizeVector (bytes : List UInt8) (length : ℕ) : List UInt8 :=
  bytes.take length ++ List.replicate (length - bytes.length) 0

/-- The handler of `ReadHeader`. The body of the buffer is resized for a body
that follows, and left as it was when the header declares none. -/
def headerRead [FullLayout T] (c : Connection T) (bytes : List UInt8) : Connection T :=
  let header : MessageHeader T := ofBytes bytes
  if 0 < header.size then
    { c with msgBuff := ⟨header, resizeVector c.msgBuff.body header.size.toNat⟩ }.readBody
  else
    { c with msgBuff := ⟨header, c.msgBuff.body⟩ }.addToIncomimgMessageQueue

/-- The handler of `ReadBody`. -/
def bodyRead (c : Connection T) (bytes : List UInt8) : Connection T :=
  { c with msgBuff := ⟨c.msgBuff.header, bytes⟩ }.addToIncomimgMessageQueue

/-- The handler of `ReadValidation`: the bytes read overwrite the first bytes of
`Validaton_code_in`. -/
def validationRead (c : Connection T) (bytes : List UInt8) : Connection T :=
  let codeIn : UInt64 := ofBytes (bytes ++ (toBytes c.validatonCodeIn).drop bytes.length)
  let c := { c with validatonCodeIn := codeIn }
  match c.ownerType with
  | .server =>
      if c.validatonCodeIn = c.validatonCodeSum then c.readHeader
      else { c.closeSocket with clientValidated := c.clientValidated + 1 }
  | .client => { c with validatonCodeOut := scramble c.validatonCodeIn }.writeValidation

/-- The handler of a read that succeeded. -/
def readDone [FullLayout T] (c : Connection T) : ReadKind → List UInt8 → Connection T
  | .validation, bytes => c.validationRead bytes
  | .header, bytes => c.headerRead bytes
  | .body, bytes => c.bodyRead bytes

/-! ## Handlers of writes -/

/-- `m_qMessagesOut.pop_front()`, then `WriteHeader` for the next message if there
is one. -/
def popAndContinue [FullLayout T] (c : Connection T) : Except Fault (Connection T) :=
  match c.qMessagesOut with
  | [] => .error .emptyDeque
  | _ :: rest =>
      let c := { c with qMessagesOut := rest }
      if c.qMessagesOut.isEmpty then .ok c else c.writeHeader

/-- The handler of `WriteHeader`. -/
def headerWritten [FullLayout T] (c : Connection T) : Except Fault (Connection T) :=
  match c.qMessagesOut with
  | [] => .error .emptyDeque
  | msg :: _ => if 0 < msg.body.length then c.writeBody else c.popAndContinue

/-- The handler of `WriteBody`. -/
def bodyWritten [FullLayout T] (c : Connection T) : Except Fault (Connection T) :=
  c.popAndContinue

/-- The handler of `WriteValidation`. -/
def validationWritten (c : Connection T) : Connection T :=
  match c.ownerType with
  | .client => c.readHeader
  | .server => c

/-- The handler of a write that succeeded. -/
def writeDone [FullLayout T] (c : Connection T) : WriteKind → Except Fault (Connection T)
  | .validation => .ok c.validationWritten
  | .header => c.headerWritten
  | .body => c.bodyWritten

/-! ## Posted lambdas -/

/-- The lambda posted by `Send`. -/
def runSend [FullLayout T] (c : Connection T) (msg : Message T) : Except Fault (Connection T) :=
  let bWritingMessage := !c.qMessagesOut.isEmpty
  let c := { c with qMessagesOut := c.qMessagesOut ++ [msg] }
  if bWritingMessage then .ok c else c.writeHeader

/-- A posted lambda. -/
def runLambda [FullLayout T] (c : Connection T) : Posted T → Except Fault (Connection T)
  | .send msg => c.runSend msg
  | .close => .ok c.closeSocket

/-! ## Construction -/

/-- The constructor. A server connection takes its code from the clock. -/
def construct [Inhabited T] (parent : Owner) (isOpen : Bool) (clock : UInt64) : Connection T :=
  let codeOut : UInt64 := match parent with | .server => clock | .client => 0
  let codeSum : UInt64 := match parent with | .server => scramble clock | .client => 0
  { ownerType := parent, isOpen, msgBuff := default, qMessagesOut := [], qMessagesIn := [], id := 0,
    validatonCodeOut := codeOut, validatonCodeIn := 0, validatonCodeSum := codeSum,
    connecting := false, posted := [], reading := none, writing := [], inbox := [], sent := [],
    clientValidated := 0, fault := none }

def connectToClient (c : Connection T) (uid : UInt32) : Connection T :=
  match c.ownerType with
  | .server => if c.isOpen then { c with id := uid }.writeValidation.readValidation else c
  | .client => c

def connectToServer (c : Connection T) : Connection T :=
  match c.ownerType with
  | .client => { c with connecting := true }
  | .server => c

/-- `Send`: the lambda is posted. -/
def send (c : Connection T) (msg : Message T) : Connection T :=
  { c with posted := c.posted ++ [.send msg] }

/-- The handler of `async_accept`: the messages that `OnClientConnect` sends are
posted, then `ConnectToClient` is called. -/
def accept [Inhabited T] (clock : UInt64) (welcome : List (Message T)) (uid : UInt32) :
    Connection T :=
  (welcome.foldl send (construct .server true clock)).connectToClient uid

/-- `client_interface::Connect`. -/
def connect [Inhabited T] : Connection T := (construct .client false 0).connectToServer

theorem foldl_send (c : Connection T) (msgs : List (Message T)) :
    msgs.foldl send c = { c with posted := c.posted ++ msgs.map .send } := by
  induction msgs generalizing c with
  | nil => simp only [List.foldl_nil, List.map_nil, List.append_nil]
  | cons msg msgs ih =>
      rw [List.foldl_cons, ih, send, List.map_cons, List.append_assoc, List.singleton_append]

/-- A connection that was accepted writes its code and reads that of the client. -/
theorem accept_eq [Inhabited T] (clock : UInt64) (welcome : List (Message T)) (uid : UInt32) :
    accept clock welcome uid = { (construct .server true clock : Connection T) with
      id := uid, posted := welcome.map .send, reading := some ⟨.validation, none⟩,
      writing := [⟨.validation, toBytes clock⟩] } := by
  rw [accept, foldl_send]
  rfl

def isConnected (c : Connection T) : Bool := c.isOpen

def disconnect (c : Connection T) : Connection T :=
  if c.isConnected then { c with posted := c.posted ++ [.close] } else c

/-! ## Steps -/

/-- What may happen to a connection next. -/
inductive IoEvent (T : Type) where
  /-- Some thread calls `Send`. -/
  | send (msg : Message T)
  /-- Some thread calls `Disconnect`. -/
  | disconnect
  /-- `async_connect` opens the socket. -/
  | socketOpened
  /-- `async_connect` succeeds and its handler runs. -/
  | connected
  /-- `async_connect` fails and its handler runs. -/
  | connectFailed
  /-- The first posted lambda runs. -/
  | runPosted
  /-- A piece arrives from the network. -/
  | arrive (piece : List UInt8)
  /-- The outstanding read is filled with the next bytes that have arrived. -/
  | fill (count : ℕ)
  /-- The handler of the filled read runs. -/
  | readDone
  /-- The outstanding read ends with an error and its handler runs. -/
  | readFail
  /-- An outstanding write hands over its next bytes. -/
  | transfer (index count : ℕ)
  /-- The handler of a write runs that has handed over all its bytes. -/
  | writeDone (index : ℕ)
  /-- A write ends with an error and its handler runs. -/
  | writeFail (index : ℕ)
  deriving DecidableEq, Repr

/-- The sizes with which the outstanding read may be filled. -/
def mayFill [FullLayout T] (c : Connection T) (count : ℕ) : ReadKind → Bool
  | .validation => decide (1 ≤ count ∧ count ≤ FixedLayout.size UInt64)
  | .header => decide (count = FixedLayout.size (MessageHeader T))
  | .body => decide (count = c.msgBuff.body.length)

/-- Keep the result of a handler, or stop at its fault. -/
def settle (c : Connection T) : Except Fault (Connection T) → Connection T
  | .ok next => next
  | .error fault => { c with fault := some fault }

/-- The next state, if the event can happen. -/
def act [FullLayout T] (c : Connection T) : IoEvent T → Option (Connection T)
  | .send msg => some (c.send msg)
  | .disconnect => some c.disconnect
  | .socketOpened =>
      if c.connecting && !c.isOpen then some { c with isOpen := true } else none
  | .connected =>
      if c.connecting && c.isOpen then some { c with connecting := false }.readValidation else none
  | .connectFailed => if c.connecting then some { c with connecting := false } else none
  | .runPosted =>
      match c.posted with
      | [] => none
      | lambda :: rest => let c := { c with posted := rest }; some (c.settle (c.runLambda lambda))
  | .arrive piece => if c.isOpen then some { c with inbox := c.inbox ++ piece } else none
  | .fill count =>
      match c.reading with
      | some ⟨kind, none⟩ =>
          if c.isOpen && c.mayFill count kind && decide (count ≤ c.inbox.length) then
            some { c with
              reading := some ⟨kind, some (c.inbox.take count)⟩, inbox := c.inbox.drop count }
          else none
      | _ => none
  | .readDone =>
      match c.reading with
      | some ⟨kind, some bytes⟩ => some ({ c with reading := none }.readDone kind bytes)
      | _ => none
  | .readFail =>
      match c.reading with
      | some ⟨_, none⟩ => some { c with reading := none }.closeSocket
      | _ => none
  | .transfer index count =>
      match c.writing[index]? with
      | some op =>
          if c.isOpen && decide (0 < count ∧ count ≤ op.rest.length) then
            some { c with
              writing := c.writing.set index { op with rest := op.rest.drop count },
              sent := c.sent ++ tagged op.kind (op.rest.take count) }
          else none
      | none => none
  | .writeDone index =>
      match c.writing[index]? with
      | some ⟨kind, []⟩ =>
          let c := { c with writing := c.writing.eraseIdx index }
          some (c.settle (c.writeDone kind))
      | _ => none
  | .writeFail index =>
      match c.writing[index]? with
      | some ⟨_, _ :: _⟩ => some { c with writing := c.writing.eraseIdx index }.closeSocket
      | _ => none

/-- One step. Nothing happens after a fault. -/
def step [FullLayout T] (c : Connection T) (event : IoEvent T) : Option (Connection T) :=
  match c.fault with
  | some _ => none
  | none => c.act event

/-! ## What a step does -/

section Inversion

variable [FullLayout T] {c d : Connection T}

theorem step_eq_some {event : IoEvent T} (taken : c.step event = some d) :
    c.fault = none ∧ c.act event = some d := by
  cases fault : c.fault with
  | none => exact ⟨rfl, by simpa only [step, fault] using taken⟩
  | some _ => simp only [step, fault] at taken; cases taken

theorem act_socketOpened (taken : c.act .socketOpened = some d) :
    c.connecting = true ∧ c.isOpen = false ∧ d = { c with isOpen := true } := by
  simp only [act] at taken
  split at taken
  case isTrue allowed => cases taken; simp_all
  case isFalse => cases taken

theorem act_connected (taken : c.act .connected = some d) :
    c.connecting = true ∧ c.isOpen = true ∧
      d = { c with connecting := false }.readValidation := by
  simp only [act] at taken
  split at taken
  case isTrue allowed => cases taken; simp_all
  case isFalse => cases taken

theorem act_connectFailed (taken : c.act .connectFailed = some d) :
    c.connecting = true ∧ d = { c with connecting := false } := by
  simp only [act] at taken
  split at taken
  case isTrue allowed => cases taken; exact ⟨allowed, rfl⟩
  case isFalse => cases taken

theorem act_runPosted (taken : c.act .runPosted = some d) :
    ∃ lambda rest, c.posted = lambda :: rest ∧
      d = { c with posted := rest }.settle ({ c with posted := rest }.runLambda lambda) := by
  simp only [act] at taken
  split at taken
  case h_1 => cases taken
  case h_2 lambda rest posted => cases taken; exact ⟨lambda, rest, posted, rfl⟩

theorem act_arrive {piece : List UInt8} (taken : c.act (.arrive piece) = some d) :
    c.isOpen = true ∧ d = { c with inbox := c.inbox ++ piece } := by
  simp only [act] at taken
  split at taken
  case isTrue isOpen => cases taken; exact ⟨isOpen, rfl⟩
  case isFalse => cases taken

theorem act_fill {count : ℕ} (taken : c.act (.fill count) = some d) :
    ∃ kind, c.reading = some ⟨kind, none⟩ ∧ c.isOpen = true ∧ c.mayFill count kind = true ∧
      count ≤ c.inbox.length ∧
      d = { c with
        reading := some ⟨kind, some (c.inbox.take count)⟩, inbox := c.inbox.drop count } := by
  simp only [act] at taken
  split at taken
  case h_1 kind pending =>
    split at taken
    case isTrue allowed =>
      simp only [Bool.and_eq_true, decide_eq_true_eq] at allowed
      cases taken
      exact ⟨kind, pending, allowed.1.1, allowed.1.2, allowed.2, rfl⟩
    case isFalse => cases taken
  case h_2 => cases taken

theorem act_readDone (taken : c.act .readDone = some d) :
    ∃ kind bytes, c.reading = some ⟨kind, some bytes⟩ ∧
      d = { c with reading := none }.readDone kind bytes := by
  simp only [act] at taken
  split at taken
  case h_1 kind bytes filled => cases taken; exact ⟨kind, bytes, filled, rfl⟩
  case h_2 => cases taken

theorem act_readFail (taken : c.act .readFail = some d) :
    ∃ kind, c.reading = some ⟨kind, none⟩ ∧ d = { c with reading := none }.closeSocket := by
  simp only [act] at taken
  split at taken
  case h_1 kind pending => cases taken; exact ⟨kind, pending, rfl⟩
  case h_2 => cases taken

theorem act_transfer {index count : ℕ} (taken : c.act (.transfer index count) = some d) :
    ∃ op, c.writing[index]? = some op ∧ c.isOpen = true ∧ 0 < count ∧ count ≤ op.rest.length ∧
      d = { c with
        writing := c.writing.set index { op with rest := op.rest.drop count },
        sent := c.sent ++ tagged op.kind (op.rest.take count) } := by
  simp only [act] at taken
  split at taken
  case h_1 op found =>
    split at taken
    case isTrue allowed =>
      simp only [Bool.and_eq_true, decide_eq_true_eq] at allowed
      cases taken
      exact ⟨op, found, allowed.1, allowed.2.1, allowed.2.2, rfl⟩
    case isFalse => cases taken
  case h_2 => cases taken

theorem act_writeDone {index : ℕ} (taken : c.act (.writeDone index) = some d) :
    ∃ kind, c.writing[index]? = some ⟨kind, []⟩ ∧
      d = { c with writing := c.writing.eraseIdx index }.settle
        ({ c with writing := c.writing.eraseIdx index }.writeDone kind) := by
  simp only [act] at taken
  split at taken
  case h_1 kind found => cases taken; exact ⟨kind, found, rfl⟩
  case h_2 => cases taken

theorem act_writeFail {index : ℕ} (taken : c.act (.writeFail index) = some d) :
    ∃ op, c.writing[index]? = some op ∧ op.rest ≠ [] ∧
      d = { c with writing := c.writing.eraseIdx index }.closeSocket := by
  simp only [act] at taken
  split at taken
  case h_1 kind byte rest found => cases taken; exact ⟨_, found, by simp, rfl⟩
  case h_2 => cases taken

/-- The handler of `WriteValidation` of a server does nothing. -/
theorem settle_validationWritten_server (isServer : c.ownerType = .server) :
    c.settle (c.writeDone .validation) = c := by
  simp only [Connection.writeDone, validationWritten, isServer, settle]

/-- The handler of `WriteValidation` of a client starts the loop. -/
theorem settle_validationWritten_client (isClient : c.ownerType = .client) :
    c.settle (c.writeDone .validation) = c.readHeader := by
  simp only [Connection.writeDone, validationWritten, isClient, settle]

omit [FullLayout T] in
theorem server_or_client (c : Connection T) : c.ownerType = .server ∨ c.ownerType = .client := by
  cases c.ownerType with
  | server => exact .inl rfl
  | client => exact .inr rfl

/-! ## What the write chain leaves alone -/

/-- The outstanding writes of a validation code. -/
def codeWrites (writing : List WriteOp) : List WriteOp :=
  writing.filter fun op => op.kind == .validation

/-- Only the queue, the writes of messages and the fault may differ. -/
def OnlyWrites (c d : Connection T) : Prop :=
  ∃ queue writing fault, codeWrites writing = codeWrites c.writing ∧
    d = { c with qMessagesOut := queue, writing := writing, fault := fault }

omit [FullLayout T] in
theorem OnlyWrites.settle_error (c : Connection T) (fault : Fault) :
    OnlyWrites c (c.settle (.error fault)) :=
  ⟨_, _, _, rfl, rfl⟩

/-- Starting to write a header or a body. -/
theorem codeWrites_append {kind : WriteKind} (ofMessage : kind ≠ .validation)
    (writing : List WriteOp) (bytes : List UInt8) :
    codeWrites (writing ++ [⟨kind, bytes⟩]) = codeWrites writing := by
  simp [codeWrites, ofMessage]

theorem OnlyWrites.settle_writeHeader (c : Connection T) (queue : List (Message T)) :
    OnlyWrites c (c.settle { c with qMessagesOut := queue }.writeHeader) := by
  simp only [writeHeader]
  split
  · exact OnlyWrites.settle_error c _
  · exact ⟨_, _, _, codeWrites_append (by decide) _ _, rfl⟩

theorem OnlyWrites.settle_popAndContinue (c : Connection T) :
    OnlyWrites c (c.settle c.popAndContinue) := by
  simp only [popAndContinue]
  split
  · exact OnlyWrites.settle_error c _
  · split
    · exact ⟨_, _, _, rfl, rfl⟩
    · exact OnlyWrites.settle_writeHeader c _

theorem OnlyWrites.settle_runSend (c : Connection T) (msg : Message T) :
    OnlyWrites c (c.settle (c.runLambda (.send msg))) := by
  simp only [runLambda, runSend]
  split
  · exact ⟨_, _, _, rfl, rfl⟩
  · exact OnlyWrites.settle_writeHeader c _

/-- The handlers of writes of messages. -/
theorem OnlyWrites.settle_writeDone (c : Connection T) {kind : WriteKind}
    (ofMessage : kind ≠ .validation) : OnlyWrites c (c.settle (c.writeDone kind)) := by
  cases kind with
  | validation => exact absurd rfl ofMessage
  | body => exact OnlyWrites.settle_popAndContinue c
  | header =>
      simp only [Connection.writeDone, headerWritten]
      split
      · exact OnlyWrites.settle_error c _
      · split
        · simp only [writeBody]
          split
          · exact OnlyWrites.settle_error c _
          · exact ⟨_, _, _, codeWrites_append (by decide) _ _, rfl⟩
        · exact OnlyWrites.settle_popAndContinue c

end Inversion

end Connection

end NetworkChat
