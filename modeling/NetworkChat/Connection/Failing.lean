import NetworkChat.Connection.Handshake
import NetworkChat.Connection.Transport

/-!
# An end that may fail at any time

An end of a TCP connection from the accept or the connect on, with everything that may go wrong: a
connection that is not made, operations that end with an error, and `Disconnect` at any time, also
in the middle of the handshake. Two things are assumed of the steps: that `async_read_some` never
hands over a part of the code, and that no lambda of `Send` runs before the own code is handed over
(`Orderly`).

What an end hands over is the bytes of its code, at most all eight, and then bytes of messages
(`Speaks`). What it makes of the bytes that it receives depends on where it is: it waits for the
code, replies, has given up, or its loop stands in the stream behind the eight bytes of the code
(`Hears`). Every such step keeps both (`Speaks.step`, `Hears.step`).
-/

set_option autoImplicit false

namespace NetworkChat

open Foundation

namespace Connection

variable {T : Type}

/-! ## What an end hands over -/

/-- A step that comes in order: the handler of the code gets the whole code, and no lambda of `Send`
runs before the own code is handed over. -/
def Orderly (c : Connection T) (event : IoEvent T) : Prop :=
  SendsAfterReply c event ∧ Handshake.GetsWholeCode c event

instance (c : Connection T) (event : IoEvent T) : Decidable (Orderly c event) :=
  inferInstanceAs (Decidable (_ ∧ _))

/-- Where an end is with what it hands over: before or in its code, cut off in it, or behind it. -/
inductive Speaks (c : Connection T) : Prop where
  | silent (bytes : List UInt8) (short : bytes.length < FixedLayout.size UInt64)
      (sent : c.sent = tagged .validation bytes) (noWrites : c.writing = [])
      (noQueue : c.qMessagesOut = [])
  | code (before after : List UInt8) (length : (before ++ after).length = FixedLayout.size UInt64)
      (sent : c.sent = tagged .validation before) (write : c.writing = [⟨.validation, after⟩])
      (noQueue : c.qMessagesOut = [])
  | messages (code : List UInt8) (more : List (WriteKind × UInt8))
      (length : code.length = FixedLayout.size UInt64)
      (sent : c.sent = tagged .validation code ++ more)
      (ofMessages : ∀ byte ∈ more, byte.1.ofMessage = true)
      (noneLeft : ∀ op ∈ codeWrites c.writing, op.rest = [])
  | down (isDown : c.Down) (bytes : List UInt8) (short : bytes.length < FixedLayout.size UInt64)
      (sent : c.sent = tagged .validation bytes)

theorem Speaks.congr {c d : Connection T} (speaks : Speaks c) (sent : d.sent = c.sent)
    (writing : d.writing = c.writing) (queue : d.qMessagesOut = c.qMessagesOut)
    (down : c.Down → d.Down) : Speaks d := by
  cases speaks with
  | silent bytes short sentNow noWrites noQueue =>
      exact .silent bytes short (sent.trans sentNow) (writing.trans noWrites) (queue.trans noQueue)
  | code before after length sentNow write noQueue =>
      exact .code before after length (sent.trans sentNow) (writing.trans write)
        (queue.trans noQueue)
  | messages code more length sentNow ofMessages noneLeft =>
      exact .messages code more length (sent.trans sentNow) ofMessages (writing ▸ noneLeft)
  | down isDown bytes short sentNow => exact .down (down isDown) bytes short (sent.trans sentNow)

/-- A code that is handed over to the last byte is followed by messages only. -/
theorem Speaks.messages_of_length {c : Connection T} (speaks : Speaks c)
    (enough : FixedLayout.size UInt64 ≤ c.sent.length) :
    ∃ code more, code.length = FixedLayout.size UInt64 ∧
      c.sent = tagged .validation code ++ more ∧ (∀ byte ∈ more, byte.1.ofMessage = true) ∧
        ∀ op ∈ codeWrites c.writing, op.rest = [] := by
  cases speaks with
  | silent bytes short sent => rw [sent, length_tagged] at enough; omega
  | code before after length sent write =>
      rw [sent, length_tagged] at enough
      have nothing : after = [] := by
        rw [List.length_append] at length
        exact List.length_eq_zero_iff.mp (by omega)
      subst nothing
      refine ⟨before, [], by simpa using length, by simpa using sent, nofun, ?_⟩
      rw [write]
      simp [codeWrites]
  | messages code more length sent ofMessages noneLeft =>
      exact ⟨code, more, length, sent, ofMessages, noneLeft⟩
  | down isDown bytes short sent => rw [sent, length_tagged] at enough; omega

/-- The bytes of messages that were handed over are those behind the code. -/
theorem Speaks.split {c : Connection T} (speaks : Speaks c) :
    ∃ code, code.length ≤ FixedLayout.size UInt64 ∧
      c.sent.map Prod.snd = code ++ messageBytes c.sent ∧
        (code.length < FixedLayout.size UInt64 → messageBytes c.sent = []) := by
  have cut : ∀ bytes : List UInt8, messageBytes (tagged .validation bytes) = [] := fun bytes => by
    rw [messageBytes_tagged]
    rfl
  have plain : ∀ bytes : List UInt8, (tagged .validation bytes).map Prod.snd = bytes :=
    fun bytes => by simp [tagged, Function.comp_def]
  cases speaks with
  | silent bytes short sent =>
      exact ⟨bytes, short.le, by rw [sent, cut, plain, List.append_nil], fun _ => by rw [sent, cut]⟩
  | code before after length sent =>
      refine ⟨before, ?_, by rw [sent, cut, plain, List.append_nil], fun _ => by rw [sent, cut]⟩
      rw [List.length_append] at length
      omega
  | messages code more length sent ofMessages =>
      refine ⟨code, length.le, ?_, fun short => absurd length short.ne⟩
      rw [sent, messageBytes_append, cut, List.nil_append, List.map_append, plain,
        Link.messageBytes_eq_map ofMessages]
  | down isDown bytes short sent =>
      exact ⟨bytes, short.le, by rw [sent, cut, plain, List.append_nil], fun _ => by rw [sent, cut]⟩

/-- A client that waits for the code has handed over nothing, and no code is being written. -/
def Quiet (c : Connection T) : Prop :=
  c.ownerType = .client → AwaitsCode c → c.sent = [] ∧ codeWrites c.writing = []

theorem Quiet.congr {c d : Connection T} (quiet : Quiet c) (ownerType : d.ownerType = c.ownerType)
    (awaits : AwaitsCode d → AwaitsCode c) (sent : d.sent = c.sent)
    (writes : codeWrites c.writing = [] → codeWrites d.writing = []) : Quiet d := by
  intro isClient waits
  obtain ⟨nothing, noWrites⟩ := quiet (ownerType.symm.trans isClient) (awaits waits)
  exact ⟨sent.trans nothing, writes noWrites⟩

/-- A handler of the chain of writes, behind the code or on a socket that is closed for good. -/
theorem Speaks.onlyWrites {c d : Connection T} (speaks : Speaks c) (only : OnlyWrites c d)
    (late : FixedLayout.size UInt64 ≤ c.sent.length ∨ c.Down) : Speaks d := by
  obtain ⟨queue, writing, fault, codes, rfl⟩ := only
  by_cases enough : FixedLayout.size UInt64 ≤ c.sent.length
  · obtain ⟨code, more, length, sent, ofMessages, noneLeft⟩ := speaks.messages_of_length enough
    exact .messages code more length sent ofMessages (codes ▸ noneLeft)
  · have isDown : c.Down := late.resolve_left enough
    have short := Nat.lt_of_not_le enough
    cases speaks with
    | silent bytes _ sent =>
        exact .down isDown bytes (by rwa [sent, length_tagged] at short) sent
    | code before after _ sent =>
        exact .down isDown before (by rwa [sent, length_tagged] at short) sent
    | messages code more length sent =>
        rw [sent, List.length_append, length_tagged] at short
        omega
    | down _ bytes _ sent => exact .down isDown bytes (by rwa [sent, length_tagged] at short) sent

/-- Behind a message in the queue is the code, or the socket is closed for good. -/
theorem Speaks.late_of_queue {c : Connection T} (speaks : Speaks c) (queue : c.qMessagesOut ≠ []) :
    FixedLayout.size UInt64 ≤ c.sent.length ∨ c.Down := by
  cases speaks with
  | silent _ _ _ _ noQueue => exact absurd noQueue queue
  | code _ _ _ _ _ noQueue => exact absurd noQueue queue
  | messages code more length sent =>
      refine .inl ?_
      rw [sent, List.length_append, length_tagged, length]
      exact Nat.le_add_right _ _
  | down isDown => exact .inr isDown

/-- A write that has handed over everything ends. -/
theorem Speaks.erase {c : Connection T} {index : ℕ} {kind : WriteKind} (speaks : Speaks c)
    (found : c.writing[index]? = some ⟨kind, []⟩) :
    Speaks { c with writing := c.writing.eraseIdx index } ∧
      (FixedLayout.size UInt64 ≤ c.sent.length ∨ c.Down) := by
  cases speaks with
  | silent _ _ _ noWrites => rw [noWrites] at found; cases found
  | code before after length sent write noQueue =>
      have first : index = 0 := by
        by_contra notFirst
        rw [write, List.getElem?_singleton, if_neg notFirst] at found
        cases found
      subst first
      rw [write] at found
      cases found
      rw [List.append_nil] at length
      refine ⟨.messages before [] length (by simpa using sent) nofun ?_, .inl ?_⟩
      · rw [write]
        nofun
      · rw [sent, length_tagged, length]
  | messages code more length sent ofMessages noneLeft =>
      refine ⟨.messages code more length sent ofMessages fun op member => ?_, .inl ?_⟩
      · obtain ⟨among, isCode⟩ := List.mem_filter.mp member
        exact noneLeft op (List.mem_filter.mpr ⟨List.mem_of_mem_eraseIdx among, isCode⟩)
      · rw [sent, List.length_append, length_tagged, length]
        exact Nat.le_add_right _ _
  | down isDown bytes short sent => exact ⟨.down isDown bytes short sent, .inr isDown⟩

/-- A write hands over its next bytes. -/
theorem Speaks.transfer {c : Connection T} {index count : ℕ} {op : WriteOp} (speaks : Speaks c)
    (found : c.writing[index]? = some op) (isOpen : c.isOpen = true) (positive : 0 < count)
    (within : count ≤ op.rest.length) :
    Speaks { c with
      writing := c.writing.set index { op with rest := op.rest.drop count },
      sent := c.sent ++ tagged op.kind (op.rest.take count) } := by
  cases speaks with
  | silent _ _ _ noWrites => rw [noWrites] at found; cases found
  | code before after length sent write noQueue =>
      have first : index = 0 := by
        by_contra notFirst
        rw [write, List.getElem?_singleton, if_neg notFirst] at found
        cases found
      subst first
      rw [write] at found
      cases found
      refine .code (before ++ after.take count) (after.drop count) ?_ ?_ ?_ noQueue
      · rw [List.append_assoc, List.take_append_drop]
        exact length
      · rw [sent, tagged_append]
      · rw [write]
        rfl
  | messages code more length sent ofMessages noneLeft =>
      have isMessage : op.kind ≠ .validation := by
        intro isCode
        have nothing := noneLeft op
          (List.mem_filter.mpr ⟨List.mem_of_getElem? found, by simpa using isCode⟩)
        rw [nothing, List.length_nil] at within
        omega
      have kindOf : op.kind.ofMessage = true := by
        cases kind : op.kind with
        | validation => exact absurd kind isMessage
        | header => rfl
        | body => rfl
      refine .messages code (more ++ tagged op.kind (op.rest.take count)) length ?_ ?_ ?_
      · rw [sent, List.append_assoc]
      · intro byte member
        rcases List.mem_append.mp member with old | new
        · exact ofMessages byte old
        · obtain ⟨_, -, rfl⟩ := List.mem_map.mp new
          exact kindOf
      · have others : codeWrites (c.writing.set index { op with rest := op.rest.drop count }) =
            codeWrites c.writing :=
          filter_set_other found (by simpa using isMessage) (by simpa using isMessage)
        rw [others]
        exact noneLeft
  | down isDown => exact absurd (isOpen.symm.trans isDown.1) (by decide)

/-- A write ends with an error. -/
theorem Speaks.writeFail {c : Connection T} {index : ℕ} {op : WriteOp} (speaks : Speaks c)
    (found : c.writing[index]? = some op) (left : op.rest ≠ []) :
    Speaks { c with writing := c.writing.eraseIdx index }.closeSocket := by
  cases speaks with
  | silent _ _ _ noWrites => rw [noWrites] at found; cases found
  | code before after length sent write noQueue =>
      have first : index = 0 := by
        by_contra notFirst
        rw [write, List.getElem?_singleton, if_neg notFirst] at found
        cases found
      subst first
      rw [write] at found
      cases found
      refine .silent before ?_ sent (by simp [closeSocket, write]) noQueue
      have some : 0 < after.length := List.length_pos_of_ne_nil left
      rw [List.length_append] at length
      omega
  | messages code more length sent ofMessages noneLeft =>
      refine .messages code more length sent ofMessages fun op member => ?_
      obtain ⟨among, isCode⟩ := List.mem_filter.mp member
      exact noneLeft op (List.mem_filter.mpr ⟨List.mem_of_mem_eraseIdx among, isCode⟩)
  | down isDown bytes short sent => exact .down ⟨rfl, rfl⟩ bytes short sent

variable [FullLayout T]

/-- The handler of a read. Only a client that has read the code writes. -/
theorem Speaks.readDone {c : Connection T} {kind : ReadKind} {bytes : List UInt8}
    (speaks : Speaks c) (quiet : Quiet c) (full : c.reading = some ⟨kind, some bytes⟩) :
    Speaks ({ c with reading := none }.readDone kind bytes) := by
  cases kind with
  | body => exact speaks.congr rfl rfl rfl fun isDown => isDown
  | header =>
      simp only [Connection.readDone, headerRead]
      split
      · exact speaks.congr rfl rfl rfl fun isDown => isDown
      · exact speaks.congr rfl rfl rfl fun isDown => isDown
  | validation =>
      rcases c.server_or_client with isServer | isClient
      · simp only [Connection.readDone, validationRead, isServer]
        split
        · exact speaks.congr rfl rfl rfl fun isDown => isDown
        · exact speaks.congr rfl rfl rfl fun _ => ⟨rfl, rfl⟩
      · obtain ⟨nothing, noCode⟩ := quiet isClient (.inr ⟨_, full⟩)
        simp only [Connection.readDone, validationRead, isClient]
        cases speaks with
        | silent _ _ _ noWrites noQueue =>
            refine .code [] (toBytes (scramble (ofBytes (bytes ++
              (toBytes c.validatonCodeIn).drop bytes.length)))) ?_ nothing ?_ noQueue
            · rw [List.nil_append]
              exact FixedLayout.length_toBytes _
            · simp only [writeValidation, startWrite, noWrites]
              rfl
        | code before after _ _ write => rw [write] at noCode; cases noCode
        | messages code more length sent =>
            rw [sent] at nothing
            have total := congrArg List.length nothing
            rw [List.length_append, length_tagged, length] at total
            exact absurd total (by simp [FixedLayout.size])
        | down isDown bytes short sent => exact .down isDown bytes short sent

/-- **Every step keeps what an end hands over in order.** -/
theorem Speaks.step {c d : Connection T} {event : IoEvent T} (speaks : Speaks c) (quiet : Quiet c)
    (orderly : Orderly c event) (taken : c.act event = some d) : Speaks d := by
  cases event with
  | send msg => cases taken; exact speaks.congr rfl rfl rfl fun isDown => isDown
  | disconnect =>
      cases taken
      simp only [disconnect]
      split
      · exact speaks.congr rfl rfl rfl fun isDown => isDown
      · exact speaks
  | socketOpened =>
      obtain ⟨connecting, -, rfl⟩ := act_socketOpened taken
      exact speaks.congr rfl rfl rfl fun isDown =>
        absurd (connecting.symm.trans isDown.2) (by decide)
  | connected =>
      obtain ⟨connecting, -, rfl⟩ := act_connected taken
      exact speaks.congr rfl rfl rfl fun isDown =>
        absurd (connecting.symm.trans isDown.2) (by decide)
  | connectFailed =>
      obtain ⟨-, rfl⟩ := act_connectFailed taken
      exact speaks.congr rfl rfl rfl fun isDown => ⟨isDown.1, rfl⟩
  | arrive piece =>
      obtain ⟨-, rfl⟩ := act_arrive taken
      exact speaks.congr rfl rfl rfl fun isDown => isDown
  | fill count =>
      obtain ⟨kind, -, -, -, -, rfl⟩ := act_fill taken
      exact speaks.congr rfl rfl rfl fun isDown => isDown
  | readDone =>
      obtain ⟨kind, bytes, full, rfl⟩ := act_readDone taken
      exact speaks.readDone quiet full
  | readFail =>
      obtain ⟨kind, -, rfl⟩ := act_readFail taken
      exact speaks.congr rfl rfl rfl fun _ => ⟨rfl, rfl⟩
  | runPosted =>
      obtain ⟨lambda, rest, posted, rfl⟩ := act_runPosted taken
      have same : Speaks { c with posted := rest } := speaks.congr rfl rfl rfl fun isDown => isDown
      cases lambda with
      | close => exact same.congr rfl rfl rfl fun _ => ⟨rfl, rfl⟩
      | send msg =>
          refine same.onlyWrites (OnlyWrites.settle_runSend _ msg) ?_
          cases queue : c.qMessagesOut with
          | nil =>
              have late := orderly.1
              simp only [SendsAfterReply, posted, queue] at late
              exact late
          | cons first later => exact speaks.late_of_queue (by simp [queue])
  | transfer index count =>
      obtain ⟨op, found, isOpen, positive, within, rfl⟩ := act_transfer taken
      exact speaks.transfer found isOpen positive within
  | writeDone index =>
      obtain ⟨kind, found, rfl⟩ := act_writeDone taken
      obtain ⟨erased, late⟩ := speaks.erase found
      by_cases ofMessage : kind = .validation
      · subst ofMessage
        rcases c.server_or_client with isServer | isClient
        · rwa [settle_validationWritten_server (c := { c with writing := c.writing.eraseIdx index })
            isServer]
        · rw [settle_validationWritten_client (c := { c with writing := c.writing.eraseIdx index })
            isClient]
          exact erased.congr rfl rfl rfl fun isDown => isDown
      · exact erased.onlyWrites (OnlyWrites.settle_writeDone _ ofMessage) late
  | writeFail index =>
      obtain ⟨op, found, left, rfl⟩ := act_writeFail taken
      exact speaks.writeFail found left

/-! ## Before the code -/

/-- No read is outstanding while the connection is being made, and the server's is made. -/
structure Ordered (c : Connection T) : Prop where
  connecting : c.connecting = true → c.reading = none
  accepted : c.ownerType = .server → c.connecting = false

omit [FullLayout T] in
theorem Ordered.connected_of_reading {c : Connection T} {op : ReadOp} (ordered : Ordered c)
    (reading : c.reading = some op) : c.connecting = false := by
  cases connecting : c.connecting with
  | false => rfl
  | true => rw [ordered.connecting connecting] at reading; cases reading

omit [FullLayout T] in
theorem Ordered.congr {c d : Connection T} (ordered : Ordered c)
    (ownerType : d.ownerType = c.ownerType) (connecting : d.connecting = c.connecting)
    (reading : d.reading = c.reading) : Ordered d :=
  ⟨fun isConnecting => reading.trans (ordered.connecting (connecting.symm.trans isConnecting)),
    fun isServer => connecting.trans (ordered.accepted (ownerType.symm.trans isServer))⟩

omit [FullLayout T] in
/-- An end whose connection is made. -/
theorem Ordered.of_connected {c : Connection T} (connected : c.connecting = false) : Ordered c :=
  ⟨fun connecting => absurd (connected.symm.trans connecting) (by decide), fun _ => connected⟩

/-- **Every step keeps the order of connecting and reading.** -/
theorem Ordered.step {c d : Connection T} {event : IoEvent T} (ordered : Ordered c)
    (quiet : Quiet c) (taken : c.act event = some d) : Ordered d := by
  cases event with
  | send msg => cases taken; exact ordered.congr rfl rfl rfl
  | disconnect =>
      cases taken
      simp only [disconnect]
      split
      · exact ordered.congr rfl rfl rfl
      · exact ordered
  | socketOpened =>
      obtain ⟨-, -, rfl⟩ := act_socketOpened taken
      exact ordered.congr rfl rfl rfl
  | connected => obtain ⟨-, -, rfl⟩ := act_connected taken; exact .of_connected rfl
  | connectFailed => obtain ⟨-, rfl⟩ := act_connectFailed taken; exact .of_connected rfl
  | arrive piece => obtain ⟨-, rfl⟩ := act_arrive taken; exact ordered.congr rfl rfl rfl
  | fill count =>
      obtain ⟨kind, pending, -, -, -, rfl⟩ := act_fill taken
      exact .of_connected (ordered.connected_of_reading pending)
  | readFail => obtain ⟨kind, -, rfl⟩ := act_readFail taken; exact .of_connected rfl
  | readDone =>
      obtain ⟨kind, bytes, full, rfl⟩ := act_readDone taken
      have connected := ordered.connected_of_reading full
      refine .of_connected ?_
      cases kind with
      | body => exact connected
      | header =>
          simp only [Connection.readDone, headerRead]
          split <;> exact connected
      | validation =>
          simp only [Connection.readDone, validationRead]
          split
          · split
            · exact connected
            · rfl
          · exact connected
  | runPosted =>
      obtain ⟨lambda, rest, -, rfl⟩ := act_runPosted taken
      cases lambda with
      | close => exact .of_connected rfl
      | send msg =>
          obtain ⟨queue, writing, fault, -, same⟩ :=
            OnlyWrites.settle_runSend { c with posted := rest } msg
          rw [same]
          exact ordered.congr rfl rfl rfl
  | transfer index count =>
      obtain ⟨op, -, -, -, -, rfl⟩ := act_transfer taken
      exact ordered.congr rfl rfl rfl
  | writeDone index =>
      obtain ⟨kind, found, rfl⟩ := act_writeDone taken
      by_cases ofMessage : kind = .validation
      · subst ofMessage
        rcases c.server_or_client with isServer | isClient
        · rw [settle_validationWritten_server (c := { c with writing := c.writing.eraseIdx index })
            isServer]
          exact ordered.congr rfl rfl rfl
        · rw [settle_validationWritten_client (c := { c with writing := c.writing.eraseIdx index })
            isClient]
          refine .of_connected ?_
          cases connecting : c.connecting with
          | false => rfl
          | true => exact absurd (quiet isClient (.inl connecting)).2 (filter_ne_nil found rfl)
      · obtain ⟨queue, writing, fault, -, same⟩ :=
          OnlyWrites.settle_writeDone { c with writing := c.writing.eraseIdx index } ofMessage
        rw [same]
        exact ordered.congr rfl rfl rfl
  | writeFail index => obtain ⟨op, -, -, rfl⟩ := act_writeFail taken; exact .of_connected rfl

omit [FullLayout T] in
/-- Erasing a write leaves no code write where there was none. -/
theorem codeWrites_eraseIdx_eq_nil {writing : List WriteOp} (noCode : codeWrites writing = [])
    (index : ℕ) : codeWrites (writing.eraseIdx index) = [] := by
  refine List.filter_eq_nil_iff.mpr fun op member => ?_
  exact List.filter_eq_nil_iff.mp noCode op (List.mem_of_mem_eraseIdx member)

omit [FullLayout T] in
/-- An end that has left the wait for the code may write. -/
theorem Quiet.of_loop {c : Connection T} (connected : c.connecting = false)
    (inLoop : ∀ data, c.reading ≠ some ⟨.validation, data⟩) : Quiet c :=
  fun _ awaits => absurd awaits (not_awaits_of_loop connected inLoop)

/-- The handler of a read leaves the code behind. -/
theorem Quiet.readDone {c d : Connection T} (ordered : Ordered c)
    (taken : c.act .readDone = some d) : Quiet d := by
  obtain ⟨kind, bytes, full, rfl⟩ := act_readDone taken
  have connected := ordered.connected_of_reading full
  cases kind with
  | body =>
      refine .of_loop connected ?_
      simp [Connection.readDone, bodyRead, addToIncomimgMessageQueue, readHeader, startRead]
  | header =>
      simp only [Connection.readDone, headerRead]
      split
      · exact .of_loop connected (by simp [readBody, startRead])
      · exact .of_loop connected (by simp [addToIncomimgMessageQueue, readHeader, startRead])
  | validation =>
      simp only [Connection.readDone, validationRead]
      split
      · split
        · exact .of_loop connected (by simp [readHeader, startRead])
        · exact .of_loop rfl (by simp [closeSocket])
      · exact .of_loop connected (by simp [writeValidation, startWrite])

/-- A posted lambda closes the socket or starts to write a message. -/
theorem Quiet.runPosted {c d : Connection T} (quiet : Quiet c)
    (taken : c.act .runPosted = some d) : Quiet d := by
  obtain ⟨lambda, rest, -, rfl⟩ := act_runPosted taken
  cases lambda with
  | close =>
      refine quiet.congr rfl ?_ rfl fun noCode => noCode
      rintro (connecting | ⟨data, reading⟩)
      · cases connecting
      · exact .inr ⟨data, reading⟩
  | send msg =>
      obtain ⟨queue, writing, fault, codes, same⟩ :=
        OnlyWrites.settle_runSend { c with posted := rest } msg
      rw [same]
      exact quiet.congr rfl (fun awaits => awaits) rfl fun noCode => codes.trans noCode

/-- A client that waits for the code has no write whose bytes could be handed over. -/
theorem Quiet.transfer {c d : Connection T} {index count : ℕ} (quiet : Quiet c)
    (speaks : Speaks c) (taken : c.act (.transfer index count) = some d) : Quiet d := by
  obtain ⟨op, found, isOpen, positive, within, rfl⟩ := act_transfer taken
  intro isClient awaits
  obtain ⟨nothing, noCode⟩ := quiet isClient awaits
  cases speaks with
  | silent _ _ _ noWrites => rw [noWrites] at found; cases found
  | code _ _ _ _ write => rw [write] at noCode; cases noCode
  | messages code more length sent =>
      rw [sent] at nothing
      have total := congrArg List.length nothing
      rw [List.length_append, length_tagged, length] at total
      exact absurd total (by simp [FixedLayout.size])
  | down isDown => exact absurd (isOpen.symm.trans isDown.1) (by decide)

/-- A write ends. It was not of the code, or the loop starts. -/
theorem Quiet.writeDone {c d : Connection T} {index : ℕ} (quiet : Quiet c)
    (taken : c.act (.writeDone index) = some d) : Quiet d := by
  obtain ⟨kind, found, rfl⟩ := act_writeDone taken
  let erased : Connection T := { c with writing := c.writing.eraseIdx index }
  by_cases ofMessage : kind = .validation
  · subst ofMessage
    rcases c.server_or_client with isServer | isClient
    · rw [settle_validationWritten_server (c := erased) isServer]
      exact fun isClient => absurd (isServer.symm.trans isClient) (by decide)
    · rw [settle_validationWritten_client (c := erased) isClient]
      intro _ awaits
      rcases awaits with connecting | ⟨data, reading⟩
      · exact absurd (quiet isClient (.inl connecting)).2 (filter_ne_nil found rfl)
      · cases reading
  · obtain ⟨queue, writing, fault, codes, same⟩ := OnlyWrites.settle_writeDone erased ofMessage
    rw [same]
    exact quiet.congr rfl (fun awaits => awaits) rfl fun noCode =>
      codes.trans (codeWrites_eraseIdx_eq_nil noCode index)

/-- **Every step keeps a client that waits for the code quiet.** -/
theorem Quiet.step {c d : Connection T} {event : IoEvent T} (quiet : Quiet c) (speaks : Speaks c)
    (ordered : Ordered c) (taken : c.act event = some d) : Quiet d := by
  cases event with
  | send msg => cases taken; exact quiet
  | disconnect =>
      cases taken
      simp only [disconnect]
      split <;> exact quiet
  | socketOpened =>
      obtain ⟨-, -, rfl⟩ := act_socketOpened taken
      exact quiet
  | connected =>
      obtain ⟨connecting, -, rfl⟩ := act_connected taken
      exact quiet.congr rfl (fun _ => .inl connecting) rfl fun noCode => noCode
  | connectFailed =>
      obtain ⟨connecting, rfl⟩ := act_connectFailed taken
      exact quiet.congr rfl (fun _ => .inl connecting) rfl fun noCode => noCode
  | arrive piece => obtain ⟨-, rfl⟩ := act_arrive taken; exact quiet
  | fill count =>
      have awaits := awaitsCode_fill taken
      obtain ⟨kind, -, -, -, -, rfl⟩ := act_fill taken
      exact quiet.congr rfl awaits.mp rfl fun noCode => noCode
  | readFail =>
      obtain ⟨kind, -, rfl⟩ := act_readFail taken
      exact .of_loop rfl fun _ same => (by cases same)
  | readDone => exact .readDone ordered taken
  | runPosted => exact quiet.runPosted taken
  | transfer index count => exact quiet.transfer speaks taken
  | writeDone index => exact quiet.writeDone taken
  | writeFail index =>
      obtain ⟨op, -, -, rfl⟩ := act_writeFail taken
      refine quiet.congr rfl ?_ rfl fun noCode => codeWrites_eraseIdx_eq_nil noCode index
      rintro (connecting | ⟨data, reading⟩)
      · cases connecting
      · exact .inr ⟨data, reading⟩

/-! ## What an end makes of what it receives -/

/-- Where an end is with what it receives: it waits for the code, replies to it, has given up before
its loop, or its loop stands in the stream behind the eight bytes of the code. -/
inductive Hears (received : List UInt8) (c : Connection T) : Prop where
  | awaiting (awaits : AwaitsCode c) (unseen : c.unread = received) (untouched : Untouched c)
  | replying (isClient : c.ownerType = .client) (connected : c.connecting = false)
      (stopped : c.reading = none) (code : List UInt8)
      (length : code.length = FixedLayout.size UInt64) (split : received = code ++ c.inbox)
      (untouched : Untouched c) (oneReply : (codeWrites c.writing).length = 1)
  | deaf (connected : c.connecting = false) (stopped : c.reading = none) (untouched : Untouched c)
      (noReply : c.ownerType = .client → codeWrites c.writing = [])
  | looping (code stream : List UInt8) (length : code.length = FixedLayout.size UInt64)
      (split : received = code ++ stream) (reads : Reads stream c)

variable {received : List UInt8} {c d : Connection T}

/-- What the place does not depend on may change. -/
theorem Hears.congr (hears : Hears received c) (same : SameReads c d)
    (connecting : d.connecting = c.connecting)
    (replies : c.ownerType = .client →
      (codeWrites d.writing).length = (codeWrites c.writing).length) : Hears received d := by
  have unread : d.unread = c.unread := by rw [Connection.unread, same.reading, same.inbox]; rfl
  have untouched : Untouched c → Untouched d := fun before => by
    rw [Untouched, same.buffer, same.queue]
    exact before
  cases hears with
  | awaiting awaits unseen before =>
      refine .awaiting ?_ (unread.trans unseen) (untouched before)
      rw [AwaitsCode, connecting, same.reading]
      exact awaits
  | replying isClient connected stopped code length split before oneReply =>
      refine .replying (same.ownerType.trans isClient) (connecting.trans connected)
        (same.reading.trans stopped) code length ?_ (untouched before)
        ((replies isClient).trans oneReply)
      rw [same.inbox]
      exact split
  | deaf connected stopped before noReply =>
      refine .deaf (connecting.trans connected) (same.reading.trans stopped) (untouched before)
        fun isClient => ?_
      have isClient := same.ownerType.symm.trans isClient
      refine List.eq_nil_of_length_eq_zero ?_
      rw [replies isClient, noReply isClient, List.length_nil]
  | looping code stream length split reads =>
      exact .looping code stream length split (reads.congr same)

/-- The socket is closed. -/
theorem Hears.close (hears : Hears received c) (ordered : Ordered c) (quiet : Quiet c) :
    Hears received c.closeSocket := by
  cases hears with
  | awaiting awaits unseen untouched =>
      rcases awaits with connecting | ⟨data, reading⟩
      · exact .deaf rfl (ordered.connecting connecting) untouched fun isClient =>
          (quiet isClient (.inl connecting)).2
      · exact .awaiting (.inr ⟨data, reading⟩) unseen untouched
  | replying isClient connected stopped code length split untouched oneReply =>
      exact .replying isClient rfl stopped code length split untouched oneReply
  | deaf connected stopped untouched noReply => exact .deaf rfl stopped untouched noReply
  | looping code stream length split reads =>
      exact .looping code stream length split (reads.congr (SameReads.closeSocket c))

theorem Hears.arrive (hears : Hears received c) (piece : List UInt8) :
    Hears (received ++ piece) { c with inbox := c.inbox ++ piece } := by
  cases hears with
  | awaiting awaits unseen untouched =>
      refine .awaiting awaits ?_ untouched
      rw [← unseen]
      exact (List.append_assoc _ _ _).symm
  | replying isClient connected stopped code length split untouched oneReply =>
      refine .replying isClient connected stopped code length ?_ untouched oneReply
      rw [split, List.append_assoc]
  | deaf connected stopped untouched noReply => exact .deaf connected stopped untouched noReply
  | looping code stream length split reads =>
      refine .looping code (stream ++ piece) length ?_ (reads.arrive piece)
      rw [split, List.append_assoc]

theorem Hears.fill {count : ℕ} (hears : Hears received c) (ordered : Ordered c)
    (taken : c.act (.fill count) = some d) : Hears received d := by
  obtain ⟨kind, pending, -, may, within, rfl⟩ := act_fill taken
  cases hears with
  | awaiting awaits unseen untouched =>
      obtain rfl : kind = .validation := by
        rcases awaits with connecting | ⟨data, reading⟩
        · rw [ordered.connecting connecting] at pending
          cases pending
        · rw [pending] at reading
          cases reading
          rfl
      refine .awaiting (.inr ⟨_, rfl⟩) ?_ untouched
      rw [← unseen, Connection.unread, Connection.unread, pending]
      exact List.take_append_drop _ _
  | replying isClient connected stopped => rw [stopped] at pending; cases pending
  | deaf connected stopped => rw [stopped] at pending; cases pending
  | looping code stream length split reads =>
      exact .looping code stream length split (reads.fill pending may within)

/-- The handler of a read. -/
theorem Hears.readDone (hears : Hears received c) (ordered : Ordered c) (quiet : Quiet c)
    (whole : Handshake.GetsWholeCode c .readDone) (taken : c.act .readDone = some d) :
    Hears received d := by
  obtain ⟨kind, bytes, full, rfl⟩ := act_readDone taken
  have connected := ordered.connected_of_reading full
  cases hears with
  | replying isClient connected stopped => rw [stopped] at full; cases full
  | deaf connected stopped => rw [stopped] at full; cases full
  | looping code stream length split reads =>
      exact .looping code stream length split (reads.readDone full)
  | awaiting awaits unseen untouched =>
      obtain rfl : kind = .validation := by
        rcases awaits with connecting | ⟨data, reading⟩
        · exact absurd (connected.symm.trans connecting) (by decide)
        · rw [full] at reading
          cases reading
          rfl
      have length := Handshake.getsWholeCode_iff.mp whole bytes rfl full
      have split : received = bytes ++ c.inbox := by
        rw [← unseen, Connection.unread, full]
        rfl
      rcases c.server_or_client with isServer | isClient
      · simp only [Connection.readDone, validationRead, isServer]
        split
        · have started := reads_start (c := { c with
            validatonCodeIn := ofBytes (bytes ++ (toBytes c.validatonCodeIn).drop bytes.length) })
            ⟨connected, fun isClient => absurd (isServer.symm.trans isClient) (by decide)⟩ untouched
          refine .looping bytes c.inbox length split ?_
          rw [← isServer]
          exact started
        · exact .deaf rfl rfl untouched fun isClient => by cases isClient
      · simp only [Connection.readDone, validationRead, isClient]
        refine .replying rfl connected rfl bytes length split untouched ?_
        have noCode := (quiet isClient (.inr ⟨_, full⟩)).2
        simp only [writeValidation, startWrite, codeWrites, List.filter_append] at noCode ⊢
        rw [noCode]
        rfl

omit [FullLayout T] in
/-- Handing over bytes of a write does not change how many codes are being written. -/
theorem length_codeWrites_set {writing : List WriteOp} {index count : ℕ} {op : WriteOp}
    (found : writing[index]? = some op) :
    (codeWrites (writing.set index { op with rest := op.rest.drop count })).length =
      (codeWrites writing).length := by
  obtain ⟨before, after, parts, set, -⟩ := exists_split_at found
  rw [set, parts]
  simp only [codeWrites, List.filter_append, List.filter_cons]
  split <;> simp

/-- The handler of a write. The reply of a client starts the loop. -/
theorem Hears.writeDone {index : ℕ} (hears : Hears received c) (quiet : Quiet c)
    (taken : c.act (.writeDone index) = some d) : Hears received d := by
  obtain ⟨kind, found, rfl⟩ := act_writeDone taken
  let erased : Connection T := { c with writing := c.writing.eraseIdx index }
  by_cases ofMessage : kind = .validation
  · subst ofMessage
    have among : codeWrites c.writing ≠ [] := filter_ne_nil found rfl
    rcases c.server_or_client with isServer | isClient
    · have same : erased.settle (erased.writeDone .validation) = erased :=
        settle_validationWritten_server isServer
      rw [same]
      exact hears.congr (SameReads.eraseWrite c index) rfl fun isClient =>
        absurd (isServer.symm.trans isClient) (by decide)
    · have same : erased.settle (erased.writeDone .validation) = erased.readHeader :=
        settle_validationWritten_client isClient
      rw [same]
      cases hears with
      | awaiting awaits => exact absurd (quiet isClient awaits).2 among
      | deaf _ _ _ noReply => exact absurd (noReply isClient) among
      | looping code stream length split reads =>
          exact absurd rfl (reads.isOver.replied isClient _ (List.mem_of_getElem? found))
      | replying _ connected stopped code length split untouched oneReply =>
          obtain ⟨op, single⟩ := List.length_eq_one_iff.mp oneReply
          have noneLeft : codeWrites (c.writing.eraseIdx index) = [] :=
            filter_eraseIdx_only found rfl single
          have isOver : HandshakeOver erased := by
            refine ⟨connected, fun _ op member isCode => ?_⟩
            have left : op ∈ codeWrites (c.writing.eraseIdx index) :=
              List.mem_filter.mpr ⟨member, by simp [isCode]⟩
            rw [noneLeft] at left
            cases left
          refine .looping code c.inbox length split ?_
          have started := reads_start isOver untouched
          have noRead : ({ erased with reading := none } : Connection T) = erased := by
            rw [← stopped]
          rwa [noRead] at started
  · have only := OnlyWrites.settle_writeDone erased ofMessage
    have codes : codeWrites erased.writing = codeWrites c.writing :=
      filter_eraseIdx_other found (by simpa using ofMessage)
    have same := (SameReads.eraseWrite c index).trans
      (SameReads.settle_writeDone erased fun _ => ofMessage)
    obtain ⟨queue, writing, fault, kept, next⟩ := only
    refine hears.congr same ?_ fun _ => ?_
    · rw [next]
    · rw [next, kept, codes]

/-- The handler of a write that ended with an error. -/
theorem Hears.writeFail {index : ℕ} (hears : Hears received c) (ordered : Ordered c)
    (quiet : Quiet c) (taken : c.act (.writeFail index) = some d) : Hears received d := by
  obtain ⟨op, found, -, rfl⟩ := act_writeFail taken
  have erasedOrdered : Ordered { c with writing := c.writing.eraseIdx index } :=
    ordered.congr rfl rfl rfl
  have erasedQuiet : Quiet { c with writing := c.writing.eraseIdx index } :=
    quiet.congr rfl (fun awaits => awaits) rfl fun noCode => codeWrites_eraseIdx_eq_nil noCode index
  by_cases isReply : c.ownerType = .client ∧ op.kind = .validation
  · obtain ⟨isClient, isCode⟩ := isReply
    have among : codeWrites c.writing ≠ [] := filter_ne_nil found (by simp [isCode])
    cases hears with
    | awaiting awaits => exact absurd (quiet isClient awaits).2 among
    | deaf _ _ _ noReply => exact absurd (noReply isClient) among
    | looping code stream length split reads =>
        exact absurd isCode (reads.isOver.replied isClient _ (List.mem_of_getElem? found))
    | replying _ connected stopped code length split untouched oneReply =>
        obtain ⟨only, single⟩ := List.length_eq_one_iff.mp oneReply
        exact .deaf rfl stopped untouched fun _ =>
          filter_eraseIdx_only found (by simp [isCode]) single
  · refine Hears.close ?_ erasedOrdered erasedQuiet
    refine hears.congr (SameReads.eraseWrite c index) rfl fun isClient => ?_
    have other : op.kind ≠ .validation := fun isCode => isReply ⟨isClient, isCode⟩
    exact congrArg List.length (filter_eraseIdx_other found (by simpa using other))

/-- **Every step keeps an end where it is in what it receives.** -/
theorem Hears.step {event : IoEvent T} (hears : Hears received c) (ordered : Ordered c)
    (quiet : Quiet c) (orderly : Orderly c event) (taken : c.act event = some d) :
    Hears (received ++ event.arrived) d := by
  have nothing : ∀ {e : Connection T}, Hears received e → Hears (received ++ []) e := fun kept => by
    rwa [List.append_nil]
  cases event with
  | arrive piece => obtain ⟨-, rfl⟩ := act_arrive taken; exact hears.arrive piece
  | send msg =>
      cases taken
      exact nothing (hears.congr (.of_same rfl rfl rfl rfl rfl rfl rfl) rfl fun _ => rfl)
  | disconnect =>
      cases taken
      refine nothing ?_
      simp only [disconnect]
      split
      · exact hears.congr (.of_same rfl rfl rfl rfl rfl rfl rfl) rfl fun _ => rfl
      · exact hears
  | socketOpened =>
      obtain ⟨-, -, rfl⟩ := act_socketOpened taken
      exact nothing (hears.congr (.of_same rfl rfl rfl rfl rfl rfl rfl) rfl fun _ => rfl)
  | connected =>
      obtain ⟨connecting, -, rfl⟩ := act_connected taken
      refine nothing ?_
      cases hears with
      | awaiting awaits unseen untouched =>
          refine .awaiting (.inr ⟨none, rfl⟩) ?_ untouched
          rw [← unseen, Connection.unread, Connection.unread, ordered.connecting connecting]
          rfl
      | replying _ connected => exact absurd (connected.symm.trans connecting) (by decide)
      | deaf connected => exact absurd (connected.symm.trans connecting) (by decide)
      | looping _ _ _ _ reads =>
          exact absurd (reads.isOver.connected.symm.trans connecting) (by decide)
  | connectFailed =>
      obtain ⟨connecting, rfl⟩ := act_connectFailed taken
      refine nothing ?_
      cases hears with
      | awaiting awaits unseen untouched =>
          exact .deaf rfl (ordered.connecting connecting) untouched fun isClient =>
            (quiet isClient (.inl connecting)).2
      | replying _ connected => exact absurd (connected.symm.trans connecting) (by decide)
      | deaf connected => exact absurd (connected.symm.trans connecting) (by decide)
      | looping _ _ _ _ reads =>
          exact absurd (reads.isOver.connected.symm.trans connecting) (by decide)
  | fill count => exact nothing (hears.fill ordered taken)
  | readDone => exact nothing (hears.readDone ordered quiet orderly.2 taken)
  | readFail =>
      obtain ⟨kind, pending, rfl⟩ := act_readFail taken
      refine nothing ?_
      cases hears with
      | awaiting awaits unseen untouched =>
          refine .deaf rfl rfl untouched fun isClient => (quiet isClient awaits).2
      | replying _ _ stopped => rw [stopped] at pending; cases pending
      | deaf _ stopped => rw [stopped] at pending; cases pending
      | looping code stream length split reads =>
          obtain ⟨isOver, frames, wellFramed, pushed, phase⟩ := reads
          obtain ⟨rest, rfl⟩ : ∃ rest, stream = streamOf frames ++ rest := by
            cases phase <;> exact ⟨_, rfl⟩
          exact .looping code _ length split
            ⟨⟨rfl, isOver.replied⟩, frames, wellFramed, pushed, .ended frames rest rfl⟩
  | runPosted =>
      obtain ⟨lambda, rest, -, rfl⟩ := act_runPosted taken
      refine nothing ?_
      have same : Hears received { c with posted := rest } :=
        hears.congr (.of_same rfl rfl rfl rfl rfl rfl rfl) rfl fun _ => rfl
      cases lambda with
      | close => exact same.close (ordered.congr rfl rfl rfl) quiet
      | send msg =>
          have sameReads := SameReads.settle_runLambda { c with posted := rest } (.send msg)
          obtain ⟨queue, writing, fault, codes, next⟩ :=
            OnlyWrites.settle_runSend { c with posted := rest } msg
          refine same.congr sameReads ?_ fun _ => ?_
          · rw [next]
          · rw [next, codes]
  | transfer index count =>
      obtain ⟨op, found, -, -, -, rfl⟩ := act_transfer taken
      exact nothing (hears.congr (SameReads.transfer found) rfl fun _ =>
        length_codeWrites_set found)
  | writeDone index => exact nothing (hears.writeDone quiet taken)
  | writeFail index => exact nothing (hears.writeFail ordered quiet taken)

/-! ## The whole end -/

/-- What an end keeps that was given these messages and has received these bytes. -/
structure End (given : List (Message T)) (received : List UInt8) (c : Connection T) : Prop where
  writes : WriteInvariant given c
  ordered : Ordered c
  quiet : Quiet c
  speaks : Speaks c
  hears : Hears received c

/-- **Every step keeps an end.** -/
theorem End.step {given : List (Message T)} {event : IoEvent T} (whole : End given received c)
    (orderly : Orderly c event) (taken : c.step event = some d) :
    End (given ++ event.given) (received ++ event.arrived) d where
  writes := whole.writes.step taken
  ordered := whole.ordered.step whole.quiet (step_eq_some taken).2
  quiet := whole.quiet.step whole.speaks whole.ordered (step_eq_some taken).2
  speaks := whole.speaks.step whole.quiet orderly (step_eq_some taken).2
  hears := whole.hears.step whole.ordered whole.quiet orderly (step_eq_some taken).2

/-- `Send` is always possible. -/
theorem End.send {given : List (Message T)} (whole : End given received c) (msg : Message T) :
    End (given ++ [msg]) received (c.send msg) := by
  have moved : c.step (.send msg) = some (c.send msg) := by
    simp only [Connection.step, whole.writes.noFault, act]
  have orderly : Orderly c (.send msg) := ⟨trivial, trivial⟩
  have next := whole.step orderly moved
  simpa only [IoEvent.given, IoEvent.arrived, List.append_nil] using next

theorem End.foldl_send {given : List (Message T)} (whole : End given received c)
    (msgs : List (Message T)) : End (given ++ msgs) received (msgs.foldl Connection.send c) := by
  induction msgs generalizing given c with
  | nil => rwa [List.append_nil]
  | cons msg msgs ih =>
      have later := ih (whole.send msg)
      rwa [List.append_assoc, List.singleton_append] at later

theorem end_accept [Inhabited T] (clock : UInt64) (welcome : List (Message T)) (uid : UInt32) :
    End welcome [] (accept clock welcome uid) := by
  have writes := writeInvariant_accept clock welcome uid
  rw [accept_eq] at writes ⊢
  refine ⟨writes, .of_connected rfl, nofun, ?_, .awaiting (.inr ⟨none, rfl⟩) rfl ⟨rfl, rfl⟩⟩
  exact .code [] (toBytes clock) (FixedLayout.length_toBytes clock) rfl rfl rfl

theorem end_connect [Inhabited T] : End [] [] (connect : Connection T) := by
  refine ⟨⟨rfl, [], [], rfl, .idle, rfl⟩, ⟨fun _ => rfl, nofun⟩, fun _ _ => ⟨rfl, rfl⟩, ?_,
    .awaiting (.inl rfl) rfl ⟨rfl, rfl⟩⟩
  exact .silent [] (by simp [FixedLayout.size]) rfl rfl rfl

/-- What is handed over is only added to. -/
theorem exists_sent_of_act {event : IoEvent T} (taken : c.act event = some d) :
    ∃ more, d.sent = c.sent ++ more := by
  have same : ∀ {e : Connection T}, e.sent = c.sent → ∃ more, e.sent = c.sent ++ more :=
    fun equal => ⟨[], equal.trans (List.append_nil _).symm⟩
  cases event with
  | send msg => cases taken; exact same rfl
  | disconnect =>
      cases taken
      simp only [disconnect]
      split <;> exact same rfl
  | socketOpened => obtain ⟨-, -, rfl⟩ := act_socketOpened taken; exact same rfl
  | connected => obtain ⟨-, -, rfl⟩ := act_connected taken; exact same rfl
  | connectFailed => obtain ⟨-, rfl⟩ := act_connectFailed taken; exact same rfl
  | arrive piece => obtain ⟨-, rfl⟩ := act_arrive taken; exact same rfl
  | fill count => obtain ⟨kind, -, -, -, -, rfl⟩ := act_fill taken; exact same rfl
  | readFail => obtain ⟨kind, -, rfl⟩ := act_readFail taken; exact same rfl
  | readDone =>
      obtain ⟨kind, bytes, -, rfl⟩ := act_readDone taken
      refine same ?_
      cases kind with
      | body => rfl
      | header =>
          simp only [Connection.readDone, headerRead]
          split <;> rfl
      | validation =>
          simp only [Connection.readDone, validationRead]
          split
          · split <;> rfl
          · rfl
  | runPosted =>
      obtain ⟨lambda, rest, -, rfl⟩ := act_runPosted taken
      cases lambda with
      | close => exact same rfl
      | send msg =>
          obtain ⟨queue, writing, fault, -, next⟩ :=
            OnlyWrites.settle_runSend { c with posted := rest } msg
          rw [next]
          exact same rfl
  | transfer index count =>
      obtain ⟨op, -, -, -, -, rfl⟩ := act_transfer taken
      exact ⟨_, rfl⟩
  | writeDone index =>
      obtain ⟨kind, -, rfl⟩ := act_writeDone taken
      by_cases ofMessage : kind = .validation
      · subst ofMessage
        simp only [Connection.writeDone, validationWritten, settle]
        split <;> exact same rfl
      · obtain ⟨queue, writing, fault, -, next⟩ :=
          OnlyWrites.settle_writeDone { c with writing := c.writing.eraseIdx index } ofMessage
        rw [next]
        exact same rfl
  | writeFail index => obtain ⟨op, -, -, rfl⟩ := act_writeFail taken; exact same rfl

/-- What is pushed is only added to. -/
theorem exists_pushed_of_act {event : IoEvent T} (taken : c.act event = some d) :
    ∃ more, d.qMessagesIn = c.qMessagesIn ++ more := by
  have same : ∀ {e : Connection T}, e.qMessagesIn = c.qMessagesIn →
      ∃ more, e.qMessagesIn = c.qMessagesIn ++ more :=
    fun equal => ⟨[], equal.trans (List.append_nil _).symm⟩
  cases event with
  | send msg => cases taken; exact same rfl
  | disconnect =>
      cases taken
      simp only [disconnect]
      split <;> exact same rfl
  | socketOpened => obtain ⟨-, -, rfl⟩ := act_socketOpened taken; exact same rfl
  | connected => obtain ⟨-, -, rfl⟩ := act_connected taken; exact same rfl
  | connectFailed => obtain ⟨-, rfl⟩ := act_connectFailed taken; exact same rfl
  | arrive piece => obtain ⟨-, rfl⟩ := act_arrive taken; exact same rfl
  | fill count => obtain ⟨kind, -, -, -, -, rfl⟩ := act_fill taken; exact same rfl
  | readFail => obtain ⟨kind, -, rfl⟩ := act_readFail taken; exact same rfl
  | readDone =>
      obtain ⟨kind, bytes, -, rfl⟩ := act_readDone taken
      cases kind with
      | body => exact ⟨_, rfl⟩
      | header =>
          simp only [Connection.readDone, headerRead]
          split
          · exact same rfl
          · exact ⟨_, rfl⟩
      | validation =>
          simp only [Connection.readDone, validationRead]
          split
          · split <;> exact same rfl
          · exact same rfl
  | runPosted =>
      obtain ⟨lambda, rest, -, rfl⟩ := act_runPosted taken
      cases lambda with
      | close => exact same rfl
      | send msg =>
          exact same (SameReads.settle_runLambda { c with posted := rest } (.send msg)).queue
  | transfer index count => obtain ⟨op, -, -, -, -, rfl⟩ := act_transfer taken; exact same rfl
  | writeDone index =>
      obtain ⟨kind, -, rfl⟩ := act_writeDone taken
      by_cases ofMessage : kind = .validation
      · subst ofMessage
        simp only [Connection.writeDone, validationWritten, settle]
        split <;> exact same rfl
      · obtain ⟨queue, writing, fault, -, next⟩ :=
          OnlyWrites.settle_writeDone { c with writing := c.writing.eraseIdx index } ofMessage
        rw [next]
        exact same rfl
  | writeFail index => obtain ⟨op, -, -, rfl⟩ := act_writeFail taken; exact same rfl

/-! ## The socket -/

/-- A step leaves the socket as it is, closes it for good, or carries on the connect. -/
inductive SocketMoves (c d : Connection T) : Prop where
  | same (isOpen : d.isOpen = c.isOpen) (connecting : d.connecting = c.connecting)
  | closed (isDown : d.Down)
  | connects (connecting : c.connecting = true) (isOpen : d.isOpen = true ∨ d.isOpen = c.isOpen)

theorem socketMoves_of_act {event : IoEvent T} (taken : c.act event = some d) :
    SocketMoves c d := by
  cases event with
  | send msg => cases taken; exact .same rfl rfl
  | disconnect =>
      cases taken
      simp only [disconnect]
      split <;> exact .same rfl rfl
  | socketOpened =>
      obtain ⟨connecting, -, rfl⟩ := act_socketOpened taken
      exact .connects connecting (.inl rfl)
  | connected =>
      obtain ⟨connecting, isOpen, rfl⟩ := act_connected taken
      exact .connects connecting (.inl isOpen)
  | connectFailed =>
      obtain ⟨connecting, rfl⟩ := act_connectFailed taken
      exact .connects connecting (.inr rfl)
  | arrive piece => obtain ⟨-, rfl⟩ := act_arrive taken; exact .same rfl rfl
  | fill count => obtain ⟨kind, -, -, -, -, rfl⟩ := act_fill taken; exact .same rfl rfl
  | readFail => obtain ⟨kind, -, rfl⟩ := act_readFail taken; exact .closed ⟨rfl, rfl⟩
  | writeFail index => obtain ⟨op, -, -, rfl⟩ := act_writeFail taken; exact .closed ⟨rfl, rfl⟩
  | transfer index count =>
      obtain ⟨op, -, -, -, -, rfl⟩ := act_transfer taken
      exact .same rfl rfl
  | readDone =>
      obtain ⟨kind, bytes, -, rfl⟩ := act_readDone taken
      cases kind with
      | body => exact .same rfl rfl
      | header =>
          simp only [Connection.readDone, headerRead]
          split <;> exact .same rfl rfl
      | validation =>
          simp only [Connection.readDone, validationRead]
          split
          · split
            · exact .same rfl rfl
            · exact .closed ⟨rfl, rfl⟩
          · exact .same rfl rfl
  | runPosted =>
      obtain ⟨lambda, rest, -, rfl⟩ := act_runPosted taken
      cases lambda with
      | close => exact .closed ⟨rfl, rfl⟩
      | send msg =>
          obtain ⟨queue, writing, fault, -, next⟩ :=
            OnlyWrites.settle_runSend { c with posted := rest } msg
          rw [next]
          exact .same rfl rfl
  | writeDone index =>
      obtain ⟨kind, -, rfl⟩ := act_writeDone taken
      by_cases ofMessage : kind = .validation
      · subst ofMessage
        simp only [Connection.writeDone, validationWritten, settle]
        split <;> exact .same rfl rfl
      · obtain ⟨queue, writing, fault, -, next⟩ :=
          OnlyWrites.settle_writeDone { c with writing := c.writing.eraseIdx index } ofMessage
        rw [next]
        exact .same rfl rfl

omit [FullLayout T] in
/-- A socket that is closed for good stays closed. -/
theorem SocketMoves.down (moves : SocketMoves c d) (isDown : c.Down) : d.Down := by
  cases moves with
  | same isOpen connecting => exact ⟨isOpen.trans isDown.1, connecting.trans isDown.2⟩
  | closed isDown => exact isDown
  | connects connecting => exact absurd (connecting.symm.trans isDown.2) (by decide)

omit [FullLayout T] in
/-- A socket that was opened is open, or closed for good. -/
theorem SocketMoves.openOrDown (moves : SocketMoves c d) (before : c.isOpen = true ∨ c.Down) :
    d.isOpen = true ∨ d.Down := by
  rcases before with isOpen | isDown
  · cases moves with
    | same same => exact .inl (same.trans isOpen)
    | closed isDown => exact .inr isDown
    | connects _ stays =>
        exact .inl (stays.elim (fun opened => opened) fun same => same.trans isOpen)
  · exact .inr (moves.down isDown)

end Connection

end NetworkChat
