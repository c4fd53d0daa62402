import NetworkChat.Connection.Handlers
import NetworkChat.Foundation.Framing
import NetworkChat.Foundation.Outstanding

/-!
# The chain of message writes

`Send` starts a write only when `m_qMessagesOut` was empty; after that every
completed write starts the next one, so at most one header or body is being
written. `Chain` says where in its front message a queue is: nothing is being
written and the queue is empty, the header or the body of the front message is
being written, or a write has failed and nothing of the queue is written any
more.

The invariant (`WriteInvariant`) accounts for every message given to `Send`: it
was written completely, or it is in the queue, or its lambda has still to run.
The bytes of messages handed to the network, followed by those that remain, are
the frames of the messages written or queued, in the order of the calls. It is
kept by every event (`WriteInvariant.step`), whatever else the connection does
meanwhile, and no handler meets an empty queue.
-/

set_option autoImplicit false

namespace NetworkChat

open Foundation

variable {T : Type}

/-- A message as a frame of the stream. -/
def Message.frame (msg : Message T) : Frame (MessageHeader T) := (msg.header, msg.body)

/-- The bytes `WriteHeader` and `WriteBody` write for a list of messages. -/
def messageStream [FullLayout T] (msgs : List (Message T)) : List UInt8 :=
  streamOf (msgs.map Message.frame)

@[simp] theorem messageStream_nil [FullLayout T] :
    messageStream ([] : List (Message T)) = [] := rfl

@[simp] theorem messageStream_append [FullLayout T] (first second : List (Message T)) :
    messageStream (first ++ second) = messageStream first ++ messageStream second := by
  simp only [messageStream, List.map_append, streamOf_append]

@[simp] theorem messageStream_cons [FullLayout T] (msg : Message T) (later : List (Message T)) :
    messageStream (msg :: later) = toBytes msg.header ++ msg.body ++ messageStream later := rfl

/-- The message of a lambda posted by `Send`. -/
def Posted.message? : Posted T → Option (Message T)
  | .send msg => some msg
  | .close => none

def postedMessages (posted : List (Posted T)) : List (Message T) :=
  posted.filterMap Posted.message?

/-- The write belongs to a message and not to the handshake. -/
def WriteKind.ofMessage : WriteKind → Bool
  | .validation => false
  | .header => true
  | .body => true

def WriteOp.ofMessage (op : WriteOp) : Bool := op.kind.ofMessage

/-- The bytes of headers and bodies among those handed to the network. -/
def messageBytes (sent : List (WriteKind × UInt8)) : List UInt8 :=
  (sent.filter fun byte => byte.1.ofMessage).map Prod.snd

@[simp] theorem messageBytes_append (first second : List (WriteKind × UInt8)) :
    messageBytes (first ++ second) = messageBytes first ++ messageBytes second := by
  simp only [messageBytes, List.filter_append, List.map_append]

@[simp] theorem messageBytes_tagged (kind : WriteKind) (bytes : List UInt8) :
    messageBytes (tagged kind bytes) = if kind.ofMessage then bytes else [] := by
  induction bytes with
  | nil => cases kind <;> rfl
  | cons byte bytes ih =>
      simp only [messageBytes, tagged, List.map_cons, List.filter_cons] at ih ⊢
      cases ofMessage : kind.ofMessage <;> simp_all

namespace Connection

/-- The outstanding writes of headers and bodies. -/
def messageWrites (c : Connection T) : List WriteOp := c.writing.filter WriteOp.ofMessage

/-- The messages an event gives to `Send`. -/
def IoEvent.given : IoEvent T → List (Message T)
  | .send msg => [msg]
  | _ => []

/-- The socket is closed and will not be opened again. -/
def Down (c : Connection T) : Prop := c.isOpen = false ∧ c.connecting = false

/-- The members the chain consists of are the same. -/
structure SameWrites (c d : Connection T) : Prop where
  fault : d.fault = c.fault
  queue : d.qMessagesOut = c.qMessagesOut
  posted : postedMessages d.posted = postedMessages c.posted
  writes : d.messageWrites = c.messageWrites
  bytes : messageBytes d.sent = messageBytes c.sent
  down : c.Down → d.Down

theorem SameWrites.startRead (c : Connection T) (kind : ReadKind) :
    SameWrites c (c.startRead kind) :=
  ⟨rfl, rfl, rfl, rfl, rfl, fun isDown => isDown⟩

theorem messageWrites_startWrite (c : Connection T) {kind : WriteKind}
    (ofMessage : kind.ofMessage = true) (bytes : List UInt8) :
    (c.startWrite kind bytes).messageWrites = c.messageWrites ++ [⟨kind, bytes⟩] := by
  simp [startWrite, messageWrites, WriteOp.ofMessage, ofMessage]

theorem SameWrites.writeValidation (c : Connection T) : SameWrites c c.writeValidation where
  fault := rfl
  queue := rfl
  posted := rfl
  writes := by
    simp [Connection.writeValidation, startWrite, messageWrites, WriteOp.ofMessage,
      WriteKind.ofMessage]
  bytes := rfl
  down := fun isDown => isDown

variable [FullLayout T]

/-- No handler of a read touches the chain. -/
theorem SameWrites.readDone (c : Connection T) (kind : ReadKind) (bytes : List UInt8) :
    SameWrites c (c.readDone kind bytes) := by
  cases kind with
  | header =>
      simp only [Connection.readDone, headerRead]
      split <;> exact ⟨rfl, rfl, rfl, rfl, rfl, fun isDown => isDown⟩
  | body => exact ⟨rfl, rfl, rfl, rfl, rfl, fun isDown => isDown⟩
  | validation =>
      simp only [Connection.readDone, validationRead]
      split
      · split
        · exact ⟨rfl, rfl, rfl, rfl, rfl, fun isDown => isDown⟩
        · exact ⟨rfl, rfl, rfl, rfl, rfl, fun _ => ⟨rfl, rfl⟩⟩
      · have same := SameWrites.writeValidation { c with
          validatonCodeIn := ofBytes (bytes ++ (toBytes c.validatonCodeIn).drop bytes.length),
          validatonCodeOut := scramble
            (ofBytes (bytes ++ (toBytes c.validatonCodeIn).drop bytes.length)) }
        exact ⟨same.fault, same.queue, same.posted, same.writes, same.bytes, same.down⟩

/-- The event may touch the chain: a call of `Send` or its lambda, or something that happens
to an outstanding write. -/
def Touches (c : Connection T) : IoEvent T → Prop
  | .send _ => True
  | .runPosted => ∃ msg rest, c.posted = .send msg :: rest
  | .transfer _ _ => True
  | .writeDone _ => True
  | .writeFail _ => True
  | _ => False

/-- No other event touches the chain. -/
theorem SameWrites.of_act {c d : Connection T} {event : IoEvent T} (taken : c.act event = some d)
    (untouched : ¬ Touches c event) : SameWrites c d := by
  cases event with
  | send msg => exact absurd trivial untouched
  | transfer index count => exact absurd trivial untouched
  | writeDone index => exact absurd trivial untouched
  | writeFail index => exact absurd trivial untouched
  | disconnect =>
      cases taken
      simp only [disconnect]
      split
      · exact ⟨rfl, rfl, by simp [postedMessages, Posted.message?], rfl, rfl, fun isDown => isDown⟩
      · exact ⟨rfl, rfl, rfl, rfl, rfl, fun isDown => isDown⟩
  | socketOpened =>
      obtain ⟨connecting, -, rfl⟩ := act_socketOpened taken
      refine ⟨rfl, rfl, rfl, rfl, rfl, fun isDown => ?_⟩
      exact absurd (connecting.symm.trans isDown.2) (by decide)
  | connected =>
      obtain ⟨-, -, rfl⟩ := act_connected taken
      exact ⟨rfl, rfl, rfl, rfl, rfl, fun isDown => ⟨isDown.1, rfl⟩⟩
  | connectFailed =>
      obtain ⟨-, rfl⟩ := act_connectFailed taken
      exact ⟨rfl, rfl, rfl, rfl, rfl, fun isDown => ⟨isDown.1, rfl⟩⟩
  | runPosted =>
      obtain ⟨lambda, rest, posted, rfl⟩ := act_runPosted taken
      cases lambda with
      | send msg => exact absurd ⟨msg, rest, posted⟩ untouched
      | close => exact ⟨rfl, rfl, by rw [posted]; rfl, rfl, rfl, fun _ => ⟨rfl, rfl⟩⟩
  | arrive piece =>
      obtain ⟨-, rfl⟩ := act_arrive taken
      exact ⟨rfl, rfl, rfl, rfl, rfl, fun isDown => isDown⟩
  | fill count =>
      obtain ⟨kind, -, -, -, -, rfl⟩ := act_fill taken
      exact ⟨rfl, rfl, rfl, rfl, rfl, fun isDown => isDown⟩
  | readDone =>
      obtain ⟨kind, bytes, -, rfl⟩ := act_readDone taken
      have same := SameWrites.readDone { c with reading := none } kind bytes
      exact ⟨same.fault, same.queue, same.posted, same.writes, same.bytes, same.down⟩
  | readFail =>
      obtain ⟨kind, -, rfl⟩ := act_readFail taken
      exact ⟨rfl, rfl, rfl, rfl, rfl, fun _ => ⟨rfl, rfl⟩⟩

/-! ## The invariant -/

/-- Where a queue is in writing its front message, with the bytes that remain to
be handed over. -/
inductive Chain (down : Prop) : List (Message T) → List WriteOp → List UInt8 → Prop where
  | idle : Chain down [] [] []
  | header (msg : Message T) (later : List (Message T)) (bytes : List UInt8) :
      Chain down (msg :: later) [⟨.header, bytes⟩] (bytes ++ msg.body ++ messageStream later)
  | body (msg : Message T) (later : List (Message T)) (bytes : List UInt8) :
      Chain down (msg :: later) [⟨.body, bytes⟩] (bytes ++ messageStream later)
  | failed (msg : Message T) (later : List (Message T)) (remaining : List UInt8)
      (isDown : down) : Chain down (msg :: later) [] remaining

theorem Chain.mono {first second : Prop} (implies : first → second) {queue : List (Message T)}
    {writes : List WriteOp} {remaining : List UInt8} (chain : Chain first queue writes remaining) :
    Chain second queue writes remaining := by
  cases chain with
  | idle => exact .idle
  | header msg later bytes => exact .header msg later bytes
  | body msg later bytes => exact .body msg later bytes
  | failed msg later remaining isDown => exact .failed msg later remaining (implies isDown)

/-- Every message given is written, queued or posted, and the bytes handed over
and remaining are the frames of those written or queued. -/
structure WriteInvariant (given : List (Message T)) (c : Connection T) : Prop where
  noFault : c.fault = none
  accounted : ∃ written remaining,
    given = written ++ c.qMessagesOut ++ postedMessages c.posted ∧
      Chain c.Down c.qMessagesOut c.messageWrites remaining ∧
        messageStream (written ++ c.qMessagesOut) = messageBytes c.sent ++ remaining

theorem WriteInvariant.congr {given : List (Message T)} {c d : Connection T}
    (invariant : WriteInvariant given c) (same : SameWrites c d) : WriteInvariant given d := by
  refine ⟨same.fault.trans invariant.noFault, ?_⟩
  obtain ⟨written, remaining, splits, chain, bytes⟩ := invariant.accounted
  rw [same.queue, same.posted, same.writes, same.bytes]
  exact ⟨written, remaining, splits, chain.mono same.down, bytes⟩

/-! ## Handlers of the chain -/

/-- Popping a message that is written completely goes on with the next one. -/
theorem WriteInvariant.popAndContinue {given written later : List (Message T)} {msg : Message T}
    {c : Connection T} (noFault : c.fault = none) (queue : c.qMessagesOut = msg :: later)
    (splits : given = written ++ c.qMessagesOut ++ postedMessages c.posted)
    (noWrites : c.messageWrites = [])
    (bytes : messageBytes c.sent = messageStream (written ++ [msg])) :
    WriteInvariant given (c.settle c.popAndContinue) := by
  rw [queue] at splits
  cases later with
  | nil =>
      simp only [Connection.popAndContinue, queue, settle, List.isEmpty_nil, if_true]
      refine ⟨noFault, written ++ [msg], [], ?_, ?_, ?_⟩
      · simpa using splits
      · change Chain c.Down [] c.messageWrites []
        rw [noWrites]
        exact Chain.idle
      · simpa using bytes.symm
  | cons next later =>
      simp only [Connection.popAndContinue, queue, List.isEmpty_cons, Bool.false_eq_true, if_false,
        writeHeader]
      refine ⟨noFault, written ++ [msg], toBytes next.header ++ next.body ++ messageStream later,
        ?_, ?_, ?_⟩
      · simpa [settle, startWrite] using splits
      · simp only [settle]
        rw [messageWrites_startWrite _ rfl]
        change Chain c.Down (next :: later) (c.messageWrites ++ _) _
        rw [noWrites]
        exact Chain.header next later (toBytes next.header)
      · change messageStream (written ++ [msg] ++ next :: later) =
          messageBytes c.sent ++ (toBytes next.header ++ next.body ++ messageStream later)
        rw [bytes, messageStream_append, messageStream_cons]

/-- The handler of a header write that handed over everything. -/
theorem WriteInvariant.headerWritten {given written later : List (Message T)} {msg : Message T}
    {c : Connection T} (noFault : c.fault = none) (queue : c.qMessagesOut = msg :: later)
    (splits : given = written ++ c.qMessagesOut ++ postedMessages c.posted)
    (noWrites : c.messageWrites = [])
    (bytes : messageBytes c.sent = messageStream written ++ toBytes msg.header) :
    WriteInvariant given (c.settle c.headerWritten) := by
  by_cases nonempty : 0 < msg.body.length
  · simp only [Connection.headerWritten, queue, if_pos nonempty, writeBody, settle]
    refine ⟨noFault, written, msg.body ++ messageStream later, splits, ?_, ?_⟩
    · rw [messageWrites_startWrite _ rfl, noWrites]
      change Chain c.Down c.qMessagesOut _ _
      rw [queue]
      exact Chain.body msg later msg.body
    · change messageStream (written ++ c.qMessagesOut) =
        messageBytes c.sent ++ (msg.body ++ messageStream later)
      rw [queue, bytes, messageStream_append, messageStream_cons]
      simp only [List.append_assoc]
  · have empty : msg.body = [] := List.length_eq_zero_iff.mp (Nat.eq_zero_of_not_pos nonempty)
    simp only [Connection.headerWritten, queue, if_neg nonempty]
    refine WriteInvariant.popAndContinue noFault queue splits noWrites ?_
    rw [bytes, messageStream_append, messageStream_cons, empty, messageStream_nil,
      List.append_nil, List.append_nil]

/-- The lambda of `Send`: it queues the message, and starts the chain when the
queue was empty. -/
theorem WriteInvariant.runSend {given : List (Message T)} {c : Connection T} {msg : Message T}
    {rest : List (Posted T)} (invariant : WriteInvariant given c)
    (posted : c.posted = .send msg :: rest) :
    WriteInvariant given
      ({ c with posted := rest }.settle ({ c with posted := rest }.runSend msg)) := by
  obtain ⟨noFault, written, remaining, splits, chain, bytes⟩ := invariant
  rw [posted] at splits
  simp only [postedMessages, List.filterMap_cons, Posted.message?] at splits
  cases queue : c.qMessagesOut with
  | nil =>
      rw [queue] at chain bytes splits
      have sentAll : remaining = [] ∧ c.messageWrites = [] := by
        cases writes : c.messageWrites with
        | nil => rw [writes] at chain; cases chain; exact ⟨rfl, rfl⟩
        | cons op ops => rw [writes] at chain; cases chain
      simp only [Connection.runSend, List.isEmpty_nil, Bool.not_true, Bool.false_eq_true,
        if_false, List.nil_append, writeHeader]
      refine ⟨noFault, written, messageStream [msg], ?_, ?_, ?_⟩
      · simpa [settle, startWrite, postedMessages] using splits
      · simp only [settle]
        rw [messageWrites_startWrite _ rfl]
        change Chain c.Down [msg] (c.messageWrites ++ _) _
        rw [sentAll.2]
        exact Chain.header msg [] (toBytes msg.header)
      · change messageStream (written ++ [msg]) =
          messageBytes c.sent ++ messageStream [msg]
        rw [sentAll.1, List.append_nil, List.append_nil] at bytes
        rw [messageStream_append, bytes]
  | cons front later =>
      simp only [Connection.runSend, List.isEmpty_cons, Bool.not_false, if_true, settle]
      rw [queue] at chain bytes splits
      refine ⟨noFault, written, remaining ++ messageStream [msg], ?_, ?_, ?_⟩
      · simpa [postedMessages] using splits
      · change Chain c.Down (front :: later ++ [msg]) c.messageWrites _
        cases writes : c.messageWrites with
        | nil =>
            rw [writes] at chain
            cases chain with
            | failed _ _ _ isDown => exact Chain.failed front (later ++ [msg]) _ isDown
        | cons op ops =>
            rw [writes] at chain
            cases chain with
            | header _ _ rest =>
                rw [List.append_assoc, ← messageStream_append]
                exact Chain.header front (later ++ [msg]) rest
            | body _ _ rest =>
                rw [List.append_assoc, ← messageStream_append]
                exact Chain.body front (later ++ [msg]) rest
      · change messageStream (written ++ (front :: later ++ [msg])) =
          messageBytes c.sent ++ (remaining ++ messageStream [msg])
        rw [← List.append_assoc, messageStream_append, bytes, List.append_assoc]

/-! ## Steps -/

theorem Chain.of_header {down : Prop} {queue : List (Message T)} {bytes remaining : List UInt8}
    (chain : Chain down queue [⟨.header, bytes⟩] remaining) :
    ∃ msg later, queue = msg :: later ∧
      remaining = bytes ++ msg.body ++ messageStream later := by
  cases chain with
  | header msg later => exact ⟨msg, later, rfl, rfl⟩

theorem Chain.of_body {down : Prop} {queue : List (Message T)} {bytes remaining : List UInt8}
    (chain : Chain down queue [⟨.body, bytes⟩] remaining) :
    ∃ msg later, queue = msg :: later ∧ remaining = bytes ++ messageStream later := by
  cases chain with
  | body msg later => exact ⟨msg, later, rfl, rfl⟩

/-- Handing over a piece of the write of the chain. -/
theorem Chain.transfer {down : Prop} {queue : List (Message T)} {writes : List WriteOp}
    {op : WriteOp}
    {remaining : List UInt8} (chain : Chain down queue writes remaining) (only : writes = [op])
    (count : ℕ) :
    ∃ left, remaining = op.rest.take count ++ left ∧
      Chain down queue [{ op with rest := op.rest.drop count }] left := by
  subst only
  cases chain with
  | header msg later bytes =>
      refine ⟨bytes.drop count ++ msg.body ++ messageStream later, ?_, .header msg later _⟩
      rw [← List.append_assoc, ← List.append_assoc, List.take_append_drop]
  | body msg later bytes =>
      refine ⟨bytes.drop count ++ messageStream later, ?_, .body msg later _⟩
      rw [← List.append_assoc, List.take_append_drop]

/-- A chain that is writing has one write. -/
theorem Chain.exists_single {down : Prop} {queue : List (Message T)} {writes : List WriteOp}
    {remaining : List UInt8} (chain : Chain down queue writes remaining) (writing : writes ≠ []) :
    ∃ op, writes = [op] := by
  cases chain with
  | idle => exact absurd rfl writing
  | header => exact ⟨_, rfl⟩
  | body => exact ⟨_, rfl⟩
  | failed => exact absurd rfl writing

/-- Handing over a piece of a write keeps the invariant. -/
theorem WriteInvariant.transfer {given : List (Message T)} {c : Connection T} {index count : ℕ}
    {op : WriteOp} (invariant : WriteInvariant given c) (found : c.writing[index]? = some op) :
    WriteInvariant given { c with
      writing := c.writing.set index { op with rest := op.rest.drop count },
      sent := c.sent ++ tagged op.kind (op.rest.take count) } := by
  obtain ⟨noFault, written, remaining, splits, chain, bytes⟩ := invariant
  cases ofMessage : op.kind.ofMessage with
  | false =>
      refine ⟨noFault, written, remaining, splits, ?_, ?_⟩
      · change Chain c.Down c.qMessagesOut ((c.writing.set index _).filter WriteOp.ofMessage)
          remaining
        rw [filter_set_other found ofMessage ofMessage]
        exact chain
      · rw [messageBytes_append, messageBytes_tagged, ofMessage]
        simpa using bytes
  | true =>
      obtain ⟨only, single⟩ := chain.exists_single (filter_ne_nil found ofMessage)
      obtain rfl := eq_of_filter_singleton found ofMessage single
      obtain ⟨left, split, moved⟩ := chain.transfer single count
      refine ⟨noFault, written, left, splits, ?_, ?_⟩
      · change Chain c.Down c.qMessagesOut ((c.writing.set index _).filter WriteOp.ofMessage) left
        have changed : (WriteOp.mk op.kind (op.rest.drop count)).ofMessage = true := ofMessage
        rw [filter_set_only found ofMessage single changed]
        exact moved
      · rw [messageBytes_append, messageBytes_tagged, ofMessage, if_pos rfl, List.append_assoc,
          ← split]
        exact bytes

/-- The end of a write that failed: the rest of the queue is not written. -/
theorem WriteInvariant.writeFail {given : List (Message T)} {c : Connection T} {index : ℕ}
    {op : WriteOp} (invariant : WriteInvariant given c) (found : c.writing[index]? = some op) :
    WriteInvariant given { c with writing := c.writing.eraseIdx index }.closeSocket := by
  obtain ⟨noFault, written, remaining, splits, chain, bytes⟩ := invariant
  refine ⟨noFault, written, remaining, splits, ?_, bytes⟩
  change Chain (false = false ∧ false = false) c.qMessagesOut
    ((c.writing.eraseIdx index).filter WriteOp.ofMessage) remaining
  cases ofMessage : op.kind.ofMessage with
  | false =>
      rw [filter_eraseIdx_other found ofMessage]
      exact chain.mono fun _ => ⟨rfl, rfl⟩
  | true =>
      obtain ⟨only, single⟩ := chain.exists_single (filter_ne_nil found ofMessage)
      rw [filter_eraseIdx_only found ofMessage single]
      have some := chain
      rw [single] at some
      cases queue : c.qMessagesOut with
      | nil => rw [queue] at some; cases some
      | cons msg later => exact Chain.failed msg later remaining ⟨rfl, rfl⟩

/-- The handler of a write that handed over everything. -/
theorem WriteInvariant.writeDone {given : List (Message T)} {c : Connection T} {index : ℕ}
    {kind : WriteKind} (invariant : WriteInvariant given c)
    (found : c.writing[index]? = some ⟨kind, []⟩) :
    WriteInvariant given ({ c with writing := c.writing.eraseIdx index }.settle
      ({ c with writing := c.writing.eraseIdx index }.writeDone kind)) := by
  obtain ⟨noFault, written, remaining, splits, chain, bytes⟩ := invariant
  cases kind with
  | validation =>
      have erased : WriteInvariant given { c with writing := c.writing.eraseIdx index } := by
        refine ⟨noFault, written, remaining, splits, ?_, bytes⟩
        change Chain c.Down c.qMessagesOut ((c.writing.eraseIdx index).filter WriteOp.ofMessage)
          remaining
        rw [filter_eraseIdx_other found rfl]
        exact chain
      simp only [Connection.writeDone, validationWritten, settle]
      split
      · exact erased.congr (SameWrites.startRead _ _)
      · exact erased
  | header =>
      obtain ⟨only, single⟩ := chain.exists_single (filter_ne_nil found rfl)
      obtain rfl := eq_of_filter_singleton found rfl single
      have none := filter_eraseIdx_only found rfl single
      obtain ⟨msg, later, queue, rfl⟩ := (single ▸ chain).of_header
      have whole : messageBytes c.sent = messageStream written ++ toBytes msg.header := by
        rw [queue, messageStream_append, messageStream_cons, ← List.append_assoc,
          ← List.append_assoc, List.nil_append, ← List.append_assoc] at bytes
        exact (List.append_cancel_right (List.append_cancel_right bytes)).symm
      exact WriteInvariant.headerWritten noFault queue splits none whole
  | body =>
      obtain ⟨only, single⟩ := chain.exists_single (filter_ne_nil found rfl)
      obtain rfl := eq_of_filter_singleton found rfl single
      have none := filter_eraseIdx_only found rfl single
      obtain ⟨msg, later, queue, rfl⟩ := (single ▸ chain).of_body
      have whole : messageBytes c.sent = messageStream (written ++ [msg]) := by
        rw [queue, messageStream_append, messageStream_cons, List.nil_append,
          ← List.append_assoc] at bytes
        rw [messageStream_append, messageStream_cons, messageStream_nil, List.append_nil]
        exact (List.append_cancel_right bytes).symm
      exact WriteInvariant.popAndContinue noFault queue splits none whole

/-- Every event but a call of `Send` keeps the account as it is. -/
theorem WriteInvariant.actOther {given : List (Message T)} {c d : Connection T}
    {event : IoEvent T} (invariant : WriteInvariant given c) (taken : c.act event = some d)
    (notSend : ∀ msg, event ≠ .send msg) : WriteInvariant given d := by
  by_cases touches : Touches c event
  · cases event with
    | send msg => exact absurd rfl (notSend msg)
    | runPosted =>
        obtain ⟨msg, rest, posted⟩ := touches
        obtain ⟨_, _, same, rfl⟩ := act_runPosted taken
        cases posted.symm.trans same
        exact invariant.runSend posted
    | transfer index count =>
        obtain ⟨op, found, -, -, -, rfl⟩ := act_transfer taken
        exact invariant.transfer found
    | writeDone index =>
        obtain ⟨kind, found, rfl⟩ := act_writeDone taken
        exact invariant.writeDone found
    | writeFail index =>
        obtain ⟨op, found, -, rfl⟩ := act_writeFail taken
        exact invariant.writeFail found
    | _ => exact touches.elim
  · exact invariant.congr (SameWrites.of_act taken touches)

/-- **Every event keeps the account of the messages.** -/
theorem WriteInvariant.step {given : List (Message T)} {c d : Connection T} {event : IoEvent T}
    (invariant : WriteInvariant given c) (taken : c.step event = some d) :
    WriteInvariant (given ++ event.given) d := by
  obtain ⟨-, taken⟩ := step_eq_some taken
  cases event with
  | send msg =>
      cases taken
      obtain ⟨noFault, written, remaining, splits, chain, bytes⟩ := invariant
      refine ⟨noFault, written, remaining, ?_, chain, bytes⟩
      simp [splits, send, postedMessages, Posted.message?, IoEvent.given]
  | _ =>
      change WriteInvariant (given ++ []) d
      rw [List.append_nil]
      exact invariant.actOther taken (by simp)

omit [FullLayout T] in
theorem postedMessages_map_send (msgs : List (Message T)) :
    postedMessages (msgs.map .send) = msgs := by
  simp [postedMessages, Posted.message?, Function.comp_def]

/-- A connection that was accepted has posted its welcome. -/
theorem writeInvariant_accept [Inhabited T] (clock : UInt64) (welcome : List (Message T))
    (uid : UInt32) : WriteInvariant welcome (accept clock welcome uid) := by
  rw [accept_eq]
  refine ⟨rfl, [], [], ?_, .idle, rfl⟩
  exact (postedMessages_map_send welcome).symm

/-- Several calls of `Send`. -/
theorem WriteInvariant.foldl_send {given : List (Message T)} {c : Connection T}
    (invariant : WriteInvariant given c) (msgs : List (Message T)) :
    WriteInvariant (given ++ msgs) (msgs.foldl send c) := by
  obtain ⟨noFault, written, remaining, splits, chain, bytes⟩ := invariant
  rw [Connection.foldl_send]
  refine ⟨noFault, written, remaining, ?_, chain, bytes⟩
  simp only [postedMessages, List.filterMap_append] at splits ⊢
  rw [splits, ← postedMessages, ← postedMessages, postedMessages_map_send, List.append_assoc]

end Connection

end NetworkChat
