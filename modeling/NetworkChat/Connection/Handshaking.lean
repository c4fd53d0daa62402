import NetworkChat.Connection.Reply
import NetworkChat.Connection.ReadLoop
import NetworkChat.Foundation.Outstanding

/-!
# One end of the handshake

An end of the handshake first waits for the code of its peer, which it reads with
`async_read_some`; a client then writes its reply; and then the loop for messages
starts. `InStep` says that the end has taken exactly the eight bytes of the code from
what it has received: the loop stands in the stream that follows them.

The steps other than the handler of the code keep an end in step (`InStep.step`),
alive, and its codes what they are (`Alive.step`).
-/

set_option autoImplicit false

namespace NetworkChat

open Foundation

namespace Connection

variable {T : Type}

/-- An event without errors and without closing. What arrives is left to the peer. -/
def IoEvent.honest : IoEvent T → Bool
  | .disconnect => false
  | .connectFailed => false
  | .arrive _ => false
  | .readFail => false
  | .writeFail _ => false
  | _ => true

/-- Frames follow the code: no posted lambda runs before the own code is handed
over. -/
def FramesFollow (c : Connection T) : IoEvent T → Prop
  | .runPosted => FixedLayout.size UInt64 ≤ c.sent.length
  | _ => True

instance (c : Connection T) (event : IoEvent T) : Decidable (FramesFollow c event) := by
  apply IoEvent.casesOn (motive := fun event => Decidable (FramesFollow c event)) event
  all_goals
    intros
    unfold FramesFollow
    infer_instance

/-- The handler of `ReadValidation` runs. -/
def HandlesCode (c : Connection T) (event : IoEvent T) : Prop :=
  event = .readDone ∧ ∃ bytes, c.reading = some ⟨.validation, some bytes⟩

theorem filledCode_iff (c : Connection T) :
    (∃ op ∈ c.reading, op.kind = .validation ∧ op.data.isSome = true) ↔
      ∃ bytes, c.reading = some ⟨.validation, some bytes⟩ := by
  constructor
  · rintro ⟨⟨kind, data⟩, reading, rfl, full⟩
    obtain ⟨bytes, rfl⟩ := Option.isSome_iff_exists.mp full
    exact ⟨bytes, reading⟩
  · rintro ⟨bytes, reading⟩
    exact ⟨_, reading, rfl, rfl⟩

instance [DecidableEq T] (c : Connection T) (event : IoEvent T) : Decidable (HandlesCode c event) :=
  @instDecidableAnd _ _ inferInstance (decidable_of_iff _ (filledCode_iff c))

/-- The loop has read nothing yet. -/
def Untouched (c : Connection T) : Prop := c.msgBuff.body = [] ∧ c.qMessagesIn = []

/-- What an end has received, up to what its handlers have not seen, is the code of
the peer and nothing else until the loop starts, and the loop stands in the stream
behind the eight bytes of the code. -/
inductive InStep [FullLayout T] (received : List UInt8) (c : Connection T) : Prop where
  | awaiting (awaits : AwaitsCode c) (unseen : c.unread = received) (untouched : Untouched c)
  | replying (isClient : c.ownerType = .client) (connected : c.connecting = false)
      (stopped : c.reading = none) (code : List UInt8)
      (length : code.length = FixedLayout.size UInt64) (split : received = code ++ c.inbox)
      (untouched : Untouched c) (oneReply : ∃ op, codeWrites c.writing = [op])
  | looping (code stream : List UInt8) (length : code.length = FixedLayout.size UInt64)
      (split : received = code ++ stream) (reads : Reads stream c)
      (goesOn : c.reading.isSome = true)

/-- The end is open or about to be, will not be closed, and writes nothing as a
client before it has handled the code. -/
structure Alive (c : Connection T) : Prop where
  isOpen : c.isOpen = true ∨ c.connecting = true
  noClose : ∀ lambda ∈ c.posted, lambda ≠ .close
  order : c.connecting = true → c.reading = none
  quiet : c.ownerType = .client → AwaitsCode c →
    c.sent = [] ∧ c.writing = [] ∧ c.qMessagesOut = []

/-- The codes stay, the wait for the code goes on or is over as before, and bytes are
only added to those handed over. -/
structure Unmoved (c d : Connection T) : Prop where
  ownerType : d.ownerType = c.ownerType
  codeOut : d.validatonCodeOut = c.validatonCodeOut
  codeIn : d.validatonCodeIn = c.validatonCodeIn
  codeSum : d.validatonCodeSum = c.validatonCodeSum
  awaits : AwaitsCode d ↔ AwaitsCode c
  sent : ∃ more, d.sent = c.sent ++ more
  server : c.ownerType = .server → d.connecting = c.connecting ∧ d.isOpen = c.isOpen

theorem Alive.connected_of_reading {c : Connection T} {op : ReadOp} (alive : Alive c)
    (reading : c.reading = some op) : c.connecting = false := by
  cases connecting : c.connecting with
  | false => rfl
  | true => rw [alive.order connecting] at reading; cases reading

theorem not_awaits_of_loop {c : Connection T} (connected : c.connecting = false)
    (inLoop : ∀ data, c.reading ≠ some ⟨.validation, data⟩) : ¬ AwaitsCode c := by
  rintro (connecting | ⟨data, reading⟩)
  · exact absurd (connected.symm.trans connecting) (by decide)
  · exact inLoop data reading

/-- The codes, the read and the socket are what they were. -/
theorem Unmoved.of_same {c d : Connection T} (ownerType : d.ownerType = c.ownerType)
    (codeOut : d.validatonCodeOut = c.validatonCodeOut)
    (codeIn : d.validatonCodeIn = c.validatonCodeIn)
    (codeSum : d.validatonCodeSum = c.validatonCodeSum) (reading : d.reading = c.reading)
    (connecting : d.connecting = c.connecting) (isOpen : d.isOpen = c.isOpen)
    (sent : ∃ more, d.sent = c.sent ++ more) : Unmoved c d := by
  refine ⟨ownerType, codeOut, codeIn, codeSum, ?_, sent, fun _ => ⟨connecting, isOpen⟩⟩
  rw [AwaitsCode, AwaitsCode, connecting, reading]

theorem nothing_more {α : Type} (sent : List α) : ∃ more, sent = sent ++ more :=
  ⟨[], (List.append_nil sent).symm⟩

/-- The next read of the loop is started. -/
theorem Alive.startLoopRead {c d : Connection T} (alive : Alive c) (kind : ReadKind)
    (handled : ¬ AwaitsCode c) (connected : c.connecting = false) (inLoop : kind ≠ .validation)
    (reading : d.reading = some ⟨kind, none⟩) (connecting : d.connecting = c.connecting)
    (isOpen : d.isOpen = c.isOpen) (posted : d.posted = c.posted) (sent : d.sent = c.sent)
    (ownerType : d.ownerType = c.ownerType) (codeOut : d.validatonCodeOut = c.validatonCodeOut)
    (codeIn : d.validatonCodeIn = c.validatonCodeIn)
    (codeSum : d.validatonCodeSum = c.validatonCodeSum) : Alive d ∧ Unmoved c d := by
  have awaits : ¬ AwaitsCode d := by
    refine not_awaits_of_loop (connecting.trans connected) fun data same => ?_
    rw [reading] at same
    exact inLoop (ReadOp.mk.inj (Option.some.inj same)).1
  refine ⟨⟨?_, ?_, ?_, fun _ waits => absurd waits awaits⟩, ownerType, codeOut, codeIn, codeSum,
    iff_of_false awaits handled, sent ▸ nothing_more c.sent, fun _ => ⟨connecting, isOpen⟩⟩
  · rw [isOpen, connecting]
    exact alive.isOpen
  · rw [posted]
    exact alive.noClose
  · intro isConnecting
    exact absurd (connected.symm.trans (connecting.symm.trans isConnecting)) (by decide)

/-- Another message is posted. -/
theorem Alive.send {c : Connection T} (alive : Alive c) (msg : Message T) :
    Alive (c.send msg) ∧ Unmoved c (c.send msg) := by
  refine ⟨⟨alive.isOpen, ?_, alive.order, alive.quiet⟩,
    .of_same rfl rfl rfl rfl rfl rfl rfl (nothing_more c.sent)⟩
  intro lambda member
  rcases List.mem_append.mp member with old | new
  · exact alive.noClose lambda old
  · obtain rfl := List.mem_singleton.mp new
    nofun

variable [FullLayout T]

/-- The socket of a client that connects is opened. -/
theorem Alive.socketOpened {c d : Connection T} (alive : Alive c)
    (isClientOrConnected : c.ownerType = .server → c.connecting = false)
    (taken : c.act .socketOpened = some d) : Alive d ∧ Unmoved c d := by
  obtain ⟨connecting, -, rfl⟩ := act_socketOpened taken
  refine ⟨⟨.inr connecting, alive.noClose, alive.order, alive.quiet⟩, rfl, rfl, rfl, rfl, Iff.rfl,
    nothing_more c.sent, fun isServer => ?_⟩
  exact absurd ((isClientOrConnected isServer).symm.trans connecting) (by decide)

/-- The client is connected and waits for the code. -/
theorem Alive.connected {c d : Connection T} (alive : Alive c)
    (isClientOrConnected : c.ownerType = .server → c.connecting = false)
    (taken : c.act .connected = some d) : Alive d ∧ Unmoved c d := by
  obtain ⟨connecting, opened, rfl⟩ := act_connected taken
  refine ⟨⟨.inl opened, alive.noClose, nofun, ?_⟩, rfl, rfl, rfl, rfl, ?_, nothing_more c.sent,
    fun isServer => ?_⟩
  · exact fun isClient _ => alive.quiet isClient (.inl connecting)
  · exact iff_of_true (.inr ⟨none, rfl⟩) (.inl connecting)
  · exact absurd ((isClientOrConnected isServer).symm.trans connecting) (by decide)

/-- The wait for the code goes on while its read is filled. -/
theorem awaitsCode_fill {c d : Connection T} {count : ℕ} (taken : c.act (.fill count) = some d) :
    AwaitsCode d ↔ AwaitsCode c := by
  obtain ⟨kind, pending, -, -, -, rfl⟩ := act_fill taken
  refine or_congr Iff.rfl ⟨?_, ?_⟩
  · rintro ⟨data, reading⟩
    cases reading
    exact ⟨none, pending⟩
  · rintro ⟨data, reading⟩
    rw [pending] at reading
    cases reading
    exact ⟨_, rfl⟩

/-- The outstanding read takes what has arrived. -/
theorem Alive.fill {c d : Connection T} {count : ℕ} (alive : Alive c)
    (taken : c.act (.fill count) = some d) : Alive d ∧ Unmoved c d := by
  have awaits := awaitsCode_fill taken
  obtain ⟨kind, pending, opened, -, -, rfl⟩ := act_fill taken
  refine ⟨⟨.inl opened, alive.noClose, ?_, ?_⟩, rfl, rfl, rfl, rfl, awaits, nothing_more c.sent,
    fun _ => ⟨rfl, rfl⟩⟩
  · intro connecting
    rw [alive.order connecting] at pending
    cases pending
  · exact fun isClient waits => alive.quiet isClient (awaits.mp waits)

/-- A piece of a buffer is handed over. A client that waits for the code writes none. -/
theorem Alive.transfer {c d : Connection T} {index count : ℕ} (alive : Alive c)
    (taken : c.act (.transfer index count) = some d) : Alive d ∧ Unmoved c d := by
  obtain ⟨op, found, opened, -, -, rfl⟩ := act_transfer taken
  refine ⟨⟨.inl opened, alive.noClose, alive.order, ?_⟩,
    .of_same rfl rfl rfl rfl rfl rfl rfl ⟨_, rfl⟩⟩
  intro isClient awaits
  rw [(alive.quiet isClient awaits).2.1] at found
  cases found

/-- A lambda of `Send` runs once the own code is handed over. -/
theorem Alive.runPosted {c d : Connection T} (alive : Alive c)
    (follows : FramesFollow c .runPosted) (taken : c.act .runPosted = some d) :
    Alive d ∧ Unmoved c d := by
  obtain ⟨lambda, rest, posted, rfl⟩ := act_runPosted taken
  cases lambda with
  | close => exact absurd rfl (alive.noClose .close (posted ▸ List.mem_cons_self))
  | send msg =>
      obtain ⟨queue, writing, fault, -, same⟩ :=
        OnlyWrites.settle_runSend { c with posted := rest } msg
      rw [same]
      refine ⟨⟨alive.isOpen, ?_, alive.order, ?_⟩,
        .of_same rfl rfl rfl rfl rfl rfl rfl (nothing_more c.sent)⟩
      · exact fun lambda member => alive.noClose lambda (posted ▸ List.mem_cons_of_mem _ member)
      · intro isClient awaits
        have enough : FixedLayout.size UInt64 ≤ c.sent.length := follows
        rw [(alive.quiet isClient awaits).1] at enough
        exact absurd enough (by decide)

/-- A header or a body is handled, and the next read of the loop is started. -/
theorem Alive.readDone {c d : Connection T} (alive : Alive c)
    (otherHandler : ¬ HandlesCode c .readDone) (taken : c.act .readDone = some d) :
    Alive d ∧ Unmoved c d := by
  obtain ⟨kind, bytes, full, rfl⟩ := act_readDone taken
  have connected := alive.connected_of_reading full
  have notCode : kind ≠ .validation := by
    rintro rfl
    exact otherHandler ⟨rfl, bytes, full⟩
  have notAwaiting : ¬ AwaitsCode c := by
    refine not_awaits_of_loop connected fun data reading => ?_
    rw [full] at reading
    exact notCode (ReadOp.mk.inj (Option.some.inj reading)).1
  cases kind with
  | validation => exact absurd rfl notCode
  | body =>
      apply alive.startLoopRead .header notAwaiting connected (by decide) <;> rfl
  | header =>
      simp only [Connection.readDone, headerRead]
      split
      · apply alive.startLoopRead .body notAwaiting connected (by decide) <;> rfl
      · apply alive.startLoopRead .header notAwaiting connected (by decide) <;> rfl

/-- A write ends. The reply of a client starts the loop. -/
theorem Alive.writeDone {c d : Connection T} {index : ℕ} (alive : Alive c)
    (taken : c.act (.writeDone index) = some d) : Alive d ∧ Unmoved c d := by
  obtain ⟨kind, found, rfl⟩ := act_writeDone taken
  let erased : Connection T := { c with writing := c.writing.eraseIdx index }
  have writesSome : c.ownerType = .client → ¬ AwaitsCode c := by
    intro isClient awaits
    rw [(alive.quiet isClient awaits).2.1] at found
    cases found
  -- a write that starts no read leaves the end where it is
  have stays : ∀ {d : Connection T}, OnlyWrites erased d → Alive d ∧ Unmoved c d := by
    rintro _ ⟨queue, writing, fault, -, rfl⟩
    exact ⟨⟨alive.isOpen, alive.noClose, alive.order,
      fun isClient awaits => absurd awaits (writesSome isClient)⟩,
      .of_same rfl rfl rfl rfl rfl rfl rfl (nothing_more c.sent)⟩
  by_cases ofMessage : kind = .validation
  · subst ofMessage
    rcases c.server_or_client with isServer | isClient
    · rw [settle_validationWritten_server (c := erased) isServer]
      exact stays ⟨_, _, _, rfl, rfl⟩
    · rw [settle_validationWritten_client (c := erased) isClient]
      have done := writesSome isClient
      have connected : c.connecting = false := by
        cases connecting : c.connecting with
        | false => rfl
        | true => exact absurd (.inl connecting) done
      apply alive.startLoopRead .header done connected (by decide) <;> rfl
  · exact stays (OnlyWrites.settle_writeDone erased ofMessage)

/-- **Every step but the handler of the code keeps an end alive and its codes what
they are.** -/
theorem Alive.step {c d : Connection T} {event : IoEvent T} (alive : Alive c)
    (isClientOrConnected : c.ownerType = .server → c.connecting = false)
    (honest : event.honest = true) (follows : FramesFollow c event)
    (otherHandler : ¬ HandlesCode c event) (taken : c.act event = some d) :
    Alive d ∧ Unmoved c d := by
  cases event with
  | disconnect => cases honest
  | connectFailed => cases honest
  | arrive piece => cases honest
  | readFail => cases honest
  | writeFail index => cases honest
  | send msg => cases taken; exact alive.send msg
  | socketOpened => exact alive.socketOpened isClientOrConnected taken
  | connected => exact alive.connected isClientOrConnected taken
  | runPosted => exact alive.runPosted follows taken
  | fill count => exact alive.fill taken
  | readDone => exact alive.readDone otherHandler taken
  | transfer index count => exact alive.transfer taken
  | writeDone index => exact alive.writeDone taken

/-- **The code leads what is handed over, as long as frames follow it.** -/
theorem CodePhase.step {c d : Connection T} {event : IoEvent T} {code : List UInt8}
    (phase : CodePhase code c) (length : code.length = FixedLayout.size UInt64)
    (honest : event.honest = true) (follows : FramesFollow c event)
    (otherHandler : ¬ HandlesCode c event) (taken : c.act event = some d) : CodePhase code d := by
  cases event with
  | disconnect => cases honest
  | connectFailed => cases honest
  | readFail => cases honest
  | writeFail index => cases honest
  | arrive piece => cases honest
  | send msg => cases taken; exact phase.congr rfl rfl rfl
  | socketOpened => obtain ⟨-, -, rfl⟩ := act_socketOpened taken; exact phase.congr rfl rfl rfl
  | connected => obtain ⟨-, -, rfl⟩ := act_connected taken; exact phase.congr rfl rfl rfl
  | fill count => obtain ⟨kind, -, -, -, -, rfl⟩ := act_fill taken; exact phase.congr rfl rfl rfl
  | runPosted =>
      obtain ⟨lambda, rest, -, rfl⟩ := act_runPosted taken
      cases lambda with
      | close => exact phase.congr rfl rfl rfl
      | send msg =>
          have handedOver := phase.written_of_length (length.le.trans follows)
          exact .onlyWrites (c := { c with posted := rest }) handedOver
            (OnlyWrites.settle_runSend _ msg)
  | readDone =>
      obtain ⟨kind, bytes, full, rfl⟩ := act_readDone taken
      cases kind with
      | validation => exact absurd ⟨rfl, bytes, full⟩ otherHandler
      | body => exact phase.congr rfl rfl rfl
      | header =>
          simp only [Connection.readDone, headerRead]
          split
          · exact phase.congr rfl rfl rfl
          · exact phase.congr rfl rfl rfl
  | transfer index count =>
      obtain ⟨op, found, -, -, -, rfl⟩ := act_transfer taken
      exact phase.transfer found
  | writeDone index =>
      obtain ⟨kind, found, rfl⟩ := act_writeDone taken
      obtain ⟨more, bytes⟩ := phase.written_of_done found
      by_cases ofMessage : kind = .validation
      · subst ofMessage
        have erased : CodePhase code { c with writing := c.writing.eraseIdx index } :=
          .written more bytes
        rcases c.server_or_client with isServer | isClient
        · rwa [settle_validationWritten_server (c := { c with writing := c.writing.eraseIdx index })
            isServer]
        · rw [settle_validationWritten_client (c := { c with writing := c.writing.eraseIdx index })
            isClient]
          exact erased.congr rfl rfl rfl
      · exact .onlyWrites (c := { c with writing := c.writing.eraseIdx index }) ⟨more, bytes⟩
          (OnlyWrites.settle_writeDone _ ofMessage)

/-! ## Staying in step -/

/-- What the place in the stream does not depend on may change. -/
theorem InStep.congr {received : List UInt8} {c d : Connection T}
    (inStep : InStep received c) (same : SameReads c d) (connecting : d.connecting = c.connecting)
    (oneCode : c.ownerType = .client → (∃ op, codeWrites c.writing = [op]) →
      ∃ op, codeWrites d.writing = [op]) : InStep received d := by
  have unread : d.unread = c.unread := by rw [Connection.unread, same.reading, same.inbox]; rfl
  cases inStep with
  | awaiting awaits unseen untouched =>
      refine .awaiting ?_ (unread.trans unseen) ?_
      · rw [AwaitsCode, connecting, same.reading]
        exact awaits
      · rw [Untouched, same.buffer, same.queue]
        exact untouched
  | replying isClient connected stopped code length split untouched oneReply =>
      refine .replying (same.ownerType.trans isClient) (connecting.trans connected)
        (same.reading.trans stopped) code length ?_ ?_ (oneCode isClient oneReply)
      · rw [same.inbox]
        exact split
      · rw [Untouched, same.buffer, same.queue]
        exact untouched
  | looping code stream length split reads goesOn =>
      exact .looping code stream length split (reads.congr same) (same.reading.symm ▸ goesOn)

/-- A piece that arrives is the next that was received. -/
theorem InStep.arrive {received : List UInt8} {c : Connection T} (inStep : InStep received c)
    (piece : List UInt8) : InStep (received ++ piece) { c with inbox := c.inbox ++ piece } := by
  cases inStep with
  | awaiting awaits unseen untouched =>
      refine .awaiting awaits ?_ untouched
      rw [← unseen]
      exact (List.append_assoc _ _ _).symm
  | replying isClient connected stopped code length split untouched oneReply =>
      refine .replying isClient connected stopped code length ?_ untouched oneReply
      rw [split, List.append_assoc]
  | looping code stream length split reads goesOn =>
      refine .looping code (stream ++ piece) length ?_ (reads.arrive piece) goesOn
      rw [split, List.append_assoc]

/-- Filling the outstanding read moves no byte. -/
theorem InStep.fill {received : List UInt8} {c d : Connection T} {count : ℕ}
    (inStep : InStep received c) (alive : Alive c) (taken : c.act (.fill count) = some d) :
    InStep received d := by
  obtain ⟨kind, pending, -, may, within, rfl⟩ := act_fill taken
  cases inStep with
  | awaiting awaits unseen untouched =>
      have isCode : kind = .validation := by
        rcases awaits with connecting | ⟨data, reading⟩
        · rw [alive.order connecting] at pending
          cases pending
        · rw [pending] at reading
          cases reading
          rfl
      subst isCode
      refine .awaiting (.inr ⟨_, rfl⟩) ?_ untouched
      rw [← unseen, Connection.unread, Connection.unread, pending]
      exact List.take_append_drop _ _
  | replying isClient connected stopped =>
      rw [stopped] at pending
      cases pending
  | looping code stream length split reads goesOn =>
      exact .looping code stream length split (reads.fill pending may within) rfl

/-- The handler of a read of the loop. -/
theorem InStep.readDone {received : List UInt8} {c d : Connection T} (inStep : InStep received c)
    (alive : Alive c) (otherHandler : ¬ HandlesCode c .readDone)
    (taken : c.act .readDone = some d) : InStep received d := by
  obtain ⟨kind, bytes, full, rfl⟩ := act_readDone taken
  cases inStep with
  | awaiting awaits unseen untouched =>
      rcases awaits with connecting | ⟨data, reading⟩
      · rw [alive.order connecting] at full
        cases full
      · rw [full] at reading
        cases reading
        exact absurd ⟨rfl, bytes, full⟩ otherHandler
  | replying isClient connected stopped =>
      rw [stopped] at full
      cases full
  | looping code stream length split reads goesOn =>
      refine .looping code stream length split (reads.readDone full) ?_
      cases kind with
      | validation => exact absurd ⟨rfl, bytes, full⟩ otherHandler
      | body => rfl
      | header =>
          simp only [Connection.readDone, headerRead]
          split <;> rfl

/-- The code is handled while nothing of it has been seen before. -/
theorem InStep.untouched_of_code {received : List UInt8} {c : Connection T}
    {data : Option (List UInt8)}
    (inStep : InStep received c) (reading : c.reading = some ⟨.validation, data⟩) :
    c.unread = received ∧ Untouched c := by
  cases inStep with
  | awaiting awaits unseen untouched => exact ⟨unseen, untouched⟩
  | replying isClient connected stopped =>
      rw [stopped] at reading
      cases reading
  | looping code stream length split reads goesOn =>
      obtain ⟨-, frames, -, -, phase⟩ := reads
      cases phase with
      | header data inHeader => rw [inHeader] at reading; cases reading
      | body data inBody => rw [inBody] at reading; cases reading
      | ended rest noRead => rw [noRead] at reading; cases reading

/-- The loop starts where nothing but the code was read. -/
theorem reads_start {c : Connection T} (isOver : HandshakeOver c) (untouched : Untouched c) :
    Reads c.inbox ({ c with reading := none }.readHeader) := by
  refine ⟨⟨isOver.connected, isOver.replied⟩, [], nofun, untouched.2, ?_⟩
  exact .header (c := ({ c with reading := none } : Connection T).readHeader) [] none rfl nofun
    untouched.1

/-- The handler of a write. The reply of a client starts the loop. -/
theorem InStep.writeDone {received : List UInt8} {c d : Connection T} {index : ℕ}
    (inStep : InStep received c) (alive : Alive c) (taken : c.act (.writeDone index) = some d) :
    InStep received d := by
  obtain ⟨kind, found, rfl⟩ := act_writeDone taken
  let erased : Connection T := { c with writing := c.writing.eraseIdx index }
  by_cases ofMessage : kind = .validation
  · subst ofMessage
    rcases c.server_or_client with isServer | isClient
    · have same : erased.settle (erased.writeDone .validation) = erased :=
        settle_validationWritten_server isServer
      rw [same]
      refine inStep.congr (SameReads.eraseWrite c index) rfl fun isClient => ?_
      rw [isServer] at isClient
      cases isClient
    · have same : erased.settle (erased.writeDone .validation) = erased.readHeader :=
        settle_validationWritten_client isClient
      rw [same]
      cases inStep with
      | awaiting awaits =>
          rw [(alive.quiet isClient awaits).2.1] at found
          cases found
      | replying _ connected stopped code length split untouched oneReply =>
          obtain ⟨op, single⟩ := oneReply
          have noneLeft : codeWrites (c.writing.eraseIdx index) = [] :=
            filter_eraseIdx_only found rfl single
          have isOver : HandshakeOver erased := by
            refine ⟨connected, fun _ op member isCode => ?_⟩
            have among : op ∈ codeWrites (c.writing.eraseIdx index) :=
              List.mem_filter.mpr ⟨member, by simp [isCode]⟩
            rw [noneLeft] at among
            cases among
          exact .looping code c.inbox length split (reads_start isOver untouched) rfl
      | looping code stream length split reads =>
          exact absurd rfl (reads.isOver.replied isClient _ (List.mem_of_getElem? found))
  · have only := OnlyWrites.settle_writeDone erased ofMessage
    have codes : codeWrites erased.writing = codeWrites c.writing :=
      filter_eraseIdx_other found (by simpa using ofMessage)
    have same := (SameReads.eraseWrite c index).trans
      (SameReads.settle_writeDone erased fun _ => ofMessage)
    obtain ⟨queue, writing, fault, kept, next⟩ := only
    refine inStep.congr same ?_ fun _ single => ?_
    · rw [next]
    · rw [next, kept, codes]
      exact single

/-- **Every step but the handler of the code keeps an end in step.** -/
theorem InStep.step {received : List UInt8} {c d : Connection T} {event : IoEvent T}
    (inStep : InStep received c) (alive : Alive c) (honest : event.honest = true)
    (otherHandler : ¬ HandlesCode c event) (taken : c.act event = some d) : InStep received d := by
  cases event with
  | disconnect => cases honest
  | connectFailed => cases honest
  | readFail => cases honest
  | writeFail index => cases honest
  | arrive piece => cases honest
  | fill count => exact inStep.fill alive taken
  | readDone => exact inStep.readDone alive otherHandler taken
  | writeDone index => exact inStep.writeDone alive taken
  | send msg =>
      cases taken
      exact inStep.congr (.of_same rfl rfl rfl rfl rfl rfl rfl) rfl fun _ single => single
  | socketOpened =>
      obtain ⟨-, -, rfl⟩ := act_socketOpened taken
      exact inStep.congr (.of_same rfl rfl rfl rfl rfl rfl rfl) rfl fun _ single => single
  | connected =>
      obtain ⟨connecting, -, rfl⟩ := act_connected taken
      cases inStep with
      | awaiting awaits unseen untouched =>
          refine .awaiting (.inr ⟨none, rfl⟩) ?_ untouched
          rw [← unseen, Connection.unread, Connection.unread, alive.order connecting]
          rfl
      | replying _ connected => exact absurd (connected.symm.trans connecting) (by decide)
      | looping _ _ _ _ reads =>
          exact absurd (reads.isOver.connected.symm.trans connecting) (by decide)
  | runPosted =>
      obtain ⟨lambda, rest, posted, rfl⟩ := act_runPosted taken
      cases lambda with
      | close => exact absurd rfl (alive.noClose .close (posted ▸ List.mem_cons_self))
      | send msg =>
          let taken : Connection T := { c with posted := rest }
          have same := SameReads.settle_runLambda taken (.send msg)
          obtain ⟨queue, writing, fault, kept, next⟩ := OnlyWrites.settle_runSend taken msg
          refine inStep.congr ?_ ?_ fun _ single => ?_
          · exact ⟨same.ownerType, same.connecting, same.reading, same.inbox, same.buffer,
              same.queue, same.writes⟩
          · rw [next]
          · rw [next]
            exact kept ▸ single
  | transfer index count =>
      obtain ⟨op, found, -, -, -, rfl⟩ := act_transfer taken
      refine inStep.congr (SameReads.transfer found) rfl fun _ single => ?_
      obtain ⟨only, single⟩ := single
      by_cases isCode : op.kind = .validation
      · exact ⟨_, filter_set_only found (by simpa using isCode) single (by simpa using isCode)⟩
      · exact ⟨only, (filter_set_other found (by simpa using isCode) (by simpa using isCode)).trans
          single⟩

end Connection

end NetworkChat
