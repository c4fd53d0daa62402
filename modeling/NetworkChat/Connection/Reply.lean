import NetworkChat.Connection.CodeFirst

/-!
# The client's first eight bytes

A client answers the server's validation code with eight bytes, and the server reads
the first eight bytes of the stream as this answer. `Send` of the client asks for an
open socket only, and the socket is open before the connection is made, so a lambda
of `Send` may start the first header before the reply is written.

While no such lambda runs early, the client has written nothing, or its reply leads
what it has handed over (`ReplyPhase`), and so the reply comes first in every run
(`reply_first`). The code that is answered is the one that a handler read
(`codeIn_of_run`). A lambda that runs early can be followed by the byte that spoils the
reply (`early_lambda_breaks`).
-/

set_option autoImplicit false

namespace NetworkChat

open Foundation

namespace Connection

variable {T : Type}

/-- The reply to the code that was received: `Scramble(Validaton_code_in)`. -/
def reply (c : Connection T) : List UInt8 := toBytes (scramble c.validatonCodeIn)

/-- The bytes handed over begin with the reply, as far as they go: the first eight
are bytes of the reply, in its order, and what belongs to a message comes after
them. -/
def ReplyFirst (c : Connection T) : Prop :=
  c.sent.take (FixedLayout.size UInt64) <+: tagged .validation c.reply

/-- The lambda of `Send` that finds the queue empty runs after the reply is handed
over, or on a socket that is closed for good. -/
def SendsAfterReply (c : Connection T) : IoEvent T → Prop
  | .runPosted =>
      match c.posted, c.qMessagesOut with
      | .send _ :: _, [] =>
          FixedLayout.size UInt64 ≤ c.sent.length ∨ (c.isOpen = false ∧ c.connecting = false)
      | _, _ => True
  | _ => True

instance (c : Connection T) (event : IoEvent T) : Decidable (SendsAfterReply c event) := by
  apply IoEvent.casesOn (motive := fun event => Decidable (SendsAfterReply c event)) event
  all_goals
    intros
    unfold SendsAfterReply
  case runPosted =>
    exact match c.posted, c.qMessagesOut with
      | .send _ :: _, [] => inferInstanceAs (Decidable (_ ∨ _))
      | [], _ | .close :: _, _ | .send _ :: _, _ :: _ => instDecidableTrue
  all_goals infer_instance

theorem length_reply (c : Connection T) : c.reply.length = FixedLayout.size UInt64 :=
  FixedLayout.length_toBytes _

/-- The code has not been handled yet: the connection is being made, or the read of
the code is outstanding or filled. -/
def AwaitsCode (c : Connection T) : Prop :=
  c.connecting = true ∨ ∃ data, c.reading = some ⟨.validation, data⟩

/-- Where a client is with its reply. -/
inductive ReplyPhase (c : Connection T) : Prop where
  /-- Nothing was written. -/
  | waiting (noBytes : c.sent = []) (noWrites : c.writing = []) (noQueue : c.qMessagesOut = [])
  /-- The reply leads what was handed over. -/
  | replies (handled : ¬ AwaitsCode c) (phase : CodePhase c.reply c)
  /-- The socket is closed for good. -/
  | down (isDown : c.isOpen = false ∧ c.connecting = false)
      (first : c.sent = [] ∨ ¬ AwaitsCode c ∧ ReplyFirst c)

theorem replyFirst_of_sent_nil {c : Connection T} (noBytes : c.sent = []) : ReplyFirst c := by
  rw [ReplyFirst, noBytes, List.take_nil]
  exact List.nil_prefix

theorem ReplyFirst.of_codePhase {c : Connection T} (phase : CodePhase c.reply c) :
    ReplyFirst c := by
  have first := phase.take_prefix
  rwa [length_reply] at first

/-- In every phase the reply comes first. -/
theorem ReplyPhase.replyFirst {c : Connection T} (phase : ReplyPhase c) : ReplyFirst c := by
  cases phase with
  | waiting noBytes => exact replyFirst_of_sent_nil noBytes
  | replies _ phase => exact .of_codePhase phase
  | down _ first =>
      rcases first with noBytes | ⟨-, first⟩
      · exact replyFirst_of_sent_nil noBytes
      · exact first

/-- What a run of a client keeps. -/
structure ClientReply (c : Connection T) : Prop where
  isClient : c.ownerType = .client
  order : c.connecting = true → c.reading = none
  phase : ReplyPhase c

theorem clientReply_connect [Inhabited T] : ClientReply (connect : Connection T) :=
  ⟨rfl, fun _ => rfl, .waiting rfl rfl rfl⟩

/-- Closing the socket ends in the last phase. -/
theorem ReplyPhase.close {c d : Connection T} (phase : ReplyPhase c)
    (isDown : d.isOpen = false ∧ d.connecting = false)
    (codeIn : d.validatonCodeIn = c.validatonCodeIn)
    (sent : d.sent = c.sent) (handled : ¬ AwaitsCode c → ¬ AwaitsCode d) : ReplyPhase d := by
  refine .down isDown ?_
  have first : ReplyFirst c → ReplyFirst d := by
    intro first
    rw [ReplyFirst, reply, sent, codeIn]
    exact first
  rw [sent]
  cases phase with
  | waiting noBytes => exact .inl noBytes
  | replies done phase => exact .inr ⟨handled done, first (.of_codePhase phase)⟩
  | down _ before => exact before.imp_right fun both => ⟨handled both.1, first both.2⟩

/-- What the reply does not depend on may change. -/
theorem ReplyPhase.congr {c d : Connection T} (phase : ReplyPhase c)
    (isOpen : d.isOpen = c.isOpen) (connecting : d.connecting = c.connecting)
    (codeIn : d.validatonCodeIn = c.validatonCodeIn) (sent : d.sent = c.sent)
    (writing : d.writing = c.writing) (queue : d.qMessagesOut = c.qMessagesOut)
    (awaits : ¬ AwaitsCode c → ¬ AwaitsCode d) : ReplyPhase d := by
  have reply : d.reply = c.reply := by rw [Connection.reply, codeIn]; rfl
  cases phase with
  | waiting noBytes noWrites noQueue =>
      exact .waiting (sent.trans noBytes) (writing.trans noWrites) (queue.trans noQueue)
  | replies done phase =>
      refine .replies (awaits done) ?_
      rw [reply]
      exact phase.congr sent writing queue
  | down isDown first =>
      refine .down ⟨isOpen.trans isDown.1, connecting.trans isDown.2⟩ ?_
      rw [sent]
      refine first.imp_right fun both => ⟨awaits both.1, ?_⟩
      rw [ReplyFirst, sent, reply]
      exact both.2

/-- A handler of the write chain, once the reply is handed over or on a socket that
is closed for good. -/
theorem ReplyPhase.onlyWrites {c d : Connection T} (phase : ReplyPhase c)
    (only : OnlyWrites c d) (free : (∃ more, c.sent = tagged .validation c.reply ++ more) ∧
        ¬ AwaitsCode c ∨ (c.isOpen = false ∧ c.connecting = false)) : ReplyPhase d := by
  rcases free with ⟨handedOver, handled⟩ | isDown
  · have written := CodePhase.onlyWrites handedOver only
    obtain ⟨queue, writing, fault, -, rfl⟩ := only
    exact .replies handled written
  · obtain ⟨queue, writing, fault, -, rfl⟩ := only
    exact phase.close isDown rfl rfl fun handled => handled

variable [FullLayout T]

/-- A lambda of `Send` that does not run early. -/
theorem ReplyPhase.runSend {c : Connection T} {msg : Message T} {rest : List (Posted T)}
    (phase : ReplyPhase c) (posted : c.posted = .send msg :: rest)
    (after : SendsAfterReply c .runPosted) :
    ReplyPhase
      ({ c with posted := rest }.settle ({ c with posted := rest }.runLambda (.send msg))) := by
  have only := OnlyWrites.settle_runSend { c with posted := rest } msg
  have samePhase : ReplyPhase { c with posted := rest } :=
    phase.congr rfl rfl rfl rfl rfl rfl fun handled => handled
  refine samePhase.onlyWrites only ?_
  simp only [SendsAfterReply, posted] at after
  cases phase with
  | waiting noBytes noWrites noQueue =>
      rw [noQueue, noBytes] at after
      exact .inr (after.resolve_left (by decide))
  | replies handled phase =>
      cases queue : c.qMessagesOut with
      | nil =>
          rw [queue] at after
          refine after.imp_left fun enough => ⟨phase.written_of_length ?_, handled⟩
          rwa [length_reply]
      | cons front later =>
          cases phase with
          | writing _ _ _ _ _ noQueue => rw [queue] at noQueue; cases noQueue
          | written more bytes => exact .inl ⟨⟨more, bytes⟩, handled⟩
  | down isDown first => exact .inr isDown

/-- The handler of a filled read. The code can be handled only in the first phase,
or on a closed socket. -/
theorem ClientReply.readDone {c : Connection T} {kind : ReadKind} {bytes : List UInt8}
    (client : ClientReply c) (full : c.reading = some ⟨kind, some bytes⟩) :
    ClientReply ({ c with reading := none }.readDone kind bytes) := by
  obtain ⟨isClient, order, phase⟩ := client
  have connected : c.connecting = false := by
    cases connecting : c.connecting with
    | false => rfl
    | true => rw [order connecting] at full; cases full
  have loopHandles : ∀ d : Connection T, d.connecting = false →
      (∀ data, d.reading ≠ some ⟨.validation, data⟩) → ¬ AwaitsCode d := by
    rintro d isConnected inLoop (connecting | ⟨data, reading⟩)
    · exact absurd (isConnected.symm.trans connecting) (by decide)
    · exact inLoop data reading
  cases kind with
  | header =>
      simp only [Connection.readDone, headerRead]
      split
      · refine ⟨isClient, fun connecting => ?_, ?_⟩
        · exact absurd (connected.symm.trans connecting) (by decide)
        · exact phase.congr rfl rfl rfl rfl rfl rfl fun _ => loopHandles _ connected nofun
      · refine ⟨isClient, fun connecting => ?_, ?_⟩
        · exact absurd (connected.symm.trans connecting) (by decide)
        · exact phase.congr rfl rfl rfl rfl rfl rfl fun _ => loopHandles _ connected nofun
  | body =>
      refine ⟨isClient, fun connecting => ?_, ?_⟩
      · exact absurd (connected.symm.trans connecting) (by decide)
      · exact phase.congr rfl rfl rfl rfl rfl rfl fun _ => loopHandles _ connected nofun
  | validation =>
      have awaits : AwaitsCode c := .inr ⟨_, full⟩
      simp only [Connection.readDone, validationRead, isClient]
      refine ⟨rfl, fun _ => rfl, ?_⟩
      cases phase with
      | waiting noBytes noWrites noQueue =>
          refine .replies (loopHandles _ connected nofun) (.writing [] _ rfl noBytes ?_ noQueue)
          simp only [writeValidation, startWrite, noWrites]
          rfl
      | replies handled => exact absurd awaits handled
      | down isDown first =>
          exact .down isDown (first.imp_right fun both => absurd awaits both.1)

omit [FullLayout T] in
/-- Handing over the next bytes of a write. -/
theorem ReplyPhase.transfer {c : Connection T} {index count : ℕ} {op : WriteOp}
    (phase : ReplyPhase c) (found : c.writing[index]? = some op) (isOpen : c.isOpen = true) :
    ReplyPhase { c with
      writing := c.writing.set index { op with rest := op.rest.drop count },
      sent := c.sent ++ tagged op.kind (op.rest.take count) } := by
  cases phase with
  | waiting noBytes noWrites => rw [noWrites] at found; cases found
  | replies handled phase => exact .replies handled (phase.transfer found)
  | down isDown first => exact absurd (isDown.1.symm.trans isOpen) (by decide)

/-- The handler of a write of a message that handed over everything. -/
theorem ClientReply.messageWritten {c : Connection T} {index : ℕ} {kind : WriteKind}
    (client : ClientReply c) (found : c.writing[index]? = some ⟨kind, []⟩)
    (ofMessage : kind ≠ .validation) :
    ClientReply ({ c with writing := c.writing.eraseIdx index }.settle
      ({ c with writing := c.writing.eraseIdx index }.writeDone kind)) := by
  obtain ⟨isClient, order, phase⟩ := client
  have only := OnlyWrites.settle_writeDone { c with writing := c.writing.eraseIdx index } ofMessage
  have kept : ReplyPhase ({ c with writing := c.writing.eraseIdx index }.settle
      ({ c with writing := c.writing.eraseIdx index }.writeDone kind)) := by
    cases phase with
    | waiting noBytes noWrites => rw [noWrites] at found; cases found
    | replies done phase =>
        obtain ⟨more, bytes⟩ := phase.written_of_done found
        have erased : ReplyPhase { c with writing := c.writing.eraseIdx index } :=
          .replies done (.written more bytes)
        exact erased.onlyWrites only (.inl ⟨⟨more, bytes⟩, done⟩)
    | down isDown first =>
        have erased : ReplyPhase { c with writing := c.writing.eraseIdx index } :=
          .down isDown first
        exact erased.onlyWrites only (.inr isDown)
  obtain ⟨queue, writing, fault, -, same⟩ := only
  rw [same] at kept ⊢
  exact ⟨isClient, order, kept⟩

/-- The handler of the reply that is handed over: the loop starts. -/
theorem ClientReply.replyWritten {c : Connection T} {index : ℕ} (client : ClientReply c)
    (found : c.writing[index]? = some ⟨.validation, []⟩) :
    ClientReply ({ c with writing := c.writing.eraseIdx index }.settle
      ({ c with writing := c.writing.eraseIdx index }.writeDone .validation)) := by
  obtain ⟨isClient, order, phase⟩ := client
  simp only [Connection.writeDone, validationWritten, isClient, settle]
  have handled : ∀ d : Connection T, d.connecting = c.connecting →
      d.reading = some ⟨.header, none⟩ →
      ¬ AwaitsCode c → ¬ AwaitsCode d := by
    rintro d same inLoop handled (connecting | ⟨data, reading⟩)
    · exact handled (.inl (same.symm.trans connecting))
    · rw [inLoop] at reading
      cases reading
  cases phase with
  | waiting noBytes noWrites => rw [noWrites] at found; cases found
  | replies done phase =>
      obtain ⟨more, bytes⟩ := phase.written_of_done found
      exact ⟨rfl, fun connecting => absurd (.inl connecting) done,
        .replies (handled _ rfl rfl done) (.written more bytes)⟩
  | down isDown first =>
      refine ⟨rfl, fun connecting => ?_, ?_⟩
      · exact absurd (isDown.2.symm.trans connecting) (by decide)
      · exact .down isDown (first.imp_right fun both => ⟨handled _ rfl rfl both.1, both.2⟩)

/-- **While no lambda runs early, every step of a client keeps its phase.** -/
theorem ClientReply.step {c d : Connection T} {event : IoEvent T} (client : ClientReply c)
    (after : SendsAfterReply c event) (taken : c.step event = some d) : ClientReply d := by
  obtain ⟨-, taken⟩ := step_eq_some taken
  have ⟨isClient, order, phase⟩ := client
  have sameAwaits : ∀ d : Connection T, d.connecting = c.connecting → d.reading = c.reading →
      ¬ AwaitsCode c → ¬ AwaitsCode d := by
    intro d connecting reading
    rw [AwaitsCode, AwaitsCode, connecting, reading]
    exact fun handled => handled
  cases event with
  | send msg =>
      cases taken
      exact ⟨isClient, order, phase.congr rfl rfl rfl rfl rfl rfl (sameAwaits _ rfl rfl)⟩
  | disconnect =>
      cases taken
      simp only [disconnect]
      split
      · exact ⟨isClient, order, phase.congr rfl rfl rfl rfl rfl rfl (sameAwaits _ rfl rfl)⟩
      · exact client
  | socketOpened =>
      obtain ⟨connecting, -, rfl⟩ := act_socketOpened taken
      refine ⟨isClient, order, ?_⟩
      cases phase with
      | waiting noBytes noWrites noQueue => exact .waiting noBytes noWrites noQueue
      | replies done => exact absurd (.inl connecting) done
      | down isDown => exact absurd (isDown.2.symm.trans connecting) (by decide)
  | connected =>
      obtain ⟨connecting, -, rfl⟩ := act_connected taken
      refine ⟨isClient, nofun, ?_⟩
      cases phase with
      | waiting noBytes noWrites noQueue => exact .waiting noBytes noWrites noQueue
      | replies done => exact absurd (.inl connecting) done
      | down isDown => exact absurd (isDown.2.symm.trans connecting) (by decide)
  | connectFailed =>
      obtain ⟨connecting, rfl⟩ := act_connectFailed taken
      refine ⟨isClient, nofun, ?_⟩
      cases phase with
      | waiting noBytes noWrites noQueue => exact .waiting noBytes noWrites noQueue
      | replies done => exact absurd (.inl connecting) done
      | down isDown => exact absurd (isDown.2.symm.trans connecting) (by decide)
  | runPosted =>
      obtain ⟨lambda, rest, posted, rfl⟩ := act_runPosted taken
      cases lambda with
      | close =>
          refine ⟨isClient, nofun, phase.close ⟨rfl, rfl⟩ rfl rfl ?_⟩
          rintro handled (connecting | reading)
          · cases connecting
          · exact handled (.inr reading)
      | send msg =>
          have kept := phase.runSend posted after
          obtain ⟨queue, writing, fault, -, same⟩ :=
            OnlyWrites.settle_runSend { c with posted := rest } msg
          rw [same] at kept ⊢
          exact ⟨isClient, order, kept⟩
  | arrive piece =>
      obtain ⟨-, rfl⟩ := act_arrive taken
      exact ⟨isClient, order, phase.congr rfl rfl rfl rfl rfl rfl (sameAwaits _ rfl rfl)⟩
  | fill count =>
      obtain ⟨kind, pending, -, -, -, rfl⟩ := act_fill taken
      refine ⟨isClient, fun connecting => ?_, phase.congr rfl rfl rfl rfl rfl rfl ?_⟩
      · rw [order connecting] at pending
        cases pending
      · rintro handled (connecting | ⟨data, reading⟩)
        · exact handled (.inl connecting)
        · cases reading
          exact handled (.inr ⟨none, pending⟩)
  | readDone =>
      obtain ⟨kind, bytes, full, rfl⟩ := act_readDone taken
      exact client.readDone full
  | readFail =>
      obtain ⟨kind, -, rfl⟩ := act_readFail taken
      refine ⟨isClient, nofun, phase.close ⟨rfl, rfl⟩ rfl rfl ?_⟩
      rintro - (connecting | ⟨data, reading⟩)
      · cases connecting
      · cases reading
  | transfer index count =>
      obtain ⟨op, found, isOpen, -, -, rfl⟩ := act_transfer taken
      exact ⟨isClient, order, phase.transfer found isOpen⟩
  | writeDone index =>
      obtain ⟨kind, found, rfl⟩ := act_writeDone taken
      by_cases ofMessage : kind = .validation
      · subst ofMessage
        exact client.replyWritten found
      · exact client.messageWritten found ofMessage
  | writeFail index =>
      obtain ⟨op, -, -, rfl⟩ := act_writeFail taken
      refine ⟨isClient, nofun, phase.close ⟨rfl, rfl⟩ rfl rfl ?_⟩
      rintro handled (connecting | reading)
      · cases connecting
      · exact handled (.inr reading)

/-- **The reply comes first throughout every run in which no lambda of `Send` starts
the chain of writes before the reply is handed over.** -/
theorem reply_first [Inhabited T] {events : List (IoEvent T)}
    (after : Meets step SendsAfterReply connect events) :
    Throughout step ReplyFirst connect events := by
  have kept : Throughout step ClientReply connect events :=
    throughout_of_meets (fun (c : Connection T) _ _ client after taken => client.step after taken)
      clientReply_connect after
  exact kept.mono fun _ client => client.phase.replyFirst

/-- A command that the user gives after the chat has begun. -/
def commandAfterReply : List (IoEvent CustomMsgTypes) :=
  [.socketOpened, .connected, .arrive (toBytes (5 : UInt64)), .fill 8, .readDone, .transfer 0 8,
    .writeDone 0, .send (.ofType .clientList), .runPosted, .transfer 0 8]

theorem reply_first_commandAfterReply :
    Throughout step ReplyFirst connect commandAfterReply :=
  reply_first (by decide)

/-- A command that the user gives while the code is still on its way. -/
def commandBeforeReply : List (IoEvent CustomMsgTypes) :=
  [.socketOpened, .connected, .send (.ofType .clientList), .runPosted, .transfer 0 8]

/-- The header of the command is where the server reads the reply. -/
theorem command_before_reply :
    ∃ final, runFrom step connect commandBeforeReply = some final ∧ ¬ ReplyFirst final :=
  ⟨(runFrom step connect commandBeforeReply).get (by decide), (Option.some_get _).symm,
    by simp only [ReplyFirst]; decide⟩

/-! ## The code that is answered -/

/-- The handler of the code reads this one, if it has got all eight bytes. -/
def ReadsCode (code : UInt64) (c : Connection T) : IoEvent T → Prop
  | .readDone => ∃ bytes, c.reading = some ⟨.validation, some bytes⟩ ∧
      (bytes.length = FixedLayout.size UInt64 → bytes = toBytes code)
  | _ => False

omit [FullLayout T] in
/-- Eight bytes overwrite the whole of `Validaton_code_in`. -/
theorem codeIn_validationRead (c : Connection T) {bytes : List UInt8}
    (whole : bytes.length = FixedLayout.size UInt64) :
    bytes = toBytes (c.validationRead bytes).validatonCodeIn := by
  have code : (c.validationRead bytes).validatonCodeIn = ofBytes bytes := by
    have rest : (toBytes c.validatonCodeIn).drop bytes.length = [] := by
      rw [List.drop_of_length_le]
      rw [whole, FixedLayout.length_toBytes]
    simp only [validationRead, rest, List.append_nil]
    split
    · split <;> rfl
    · rfl
  rw [code, FullLayout.toBytes_ofBytes bytes whole]

/-- Only the handler of the code changes the field. -/
theorem codeIn_step {c d : Connection T} {event : IoEvent T} (taken : c.step event = some d) :
    d.validatonCodeIn = c.validatonCodeIn ∨ ReadsCode d.validatonCodeIn c event := by
  obtain ⟨-, taken⟩ := step_eq_some taken
  cases event with
  | send msg => cases taken; exact .inl rfl
  | disconnect =>
      cases taken
      simp only [disconnect]
      split <;> exact .inl rfl
  | socketOpened => obtain ⟨-, -, rfl⟩ := act_socketOpened taken; exact .inl rfl
  | connected => obtain ⟨-, -, rfl⟩ := act_connected taken; exact .inl rfl
  | connectFailed => obtain ⟨-, rfl⟩ := act_connectFailed taken; exact .inl rfl
  | runPosted =>
      obtain ⟨lambda, rest, -, rfl⟩ := act_runPosted taken
      cases lambda with
      | close => exact .inl rfl
      | send msg =>
          obtain ⟨queue, writing, fault, -, same⟩ :=
            OnlyWrites.settle_runSend { c with posted := rest } msg
          left
          rw [same]
  | arrive piece => obtain ⟨-, rfl⟩ := act_arrive taken; exact .inl rfl
  | fill count => obtain ⟨kind, -, -, -, -, rfl⟩ := act_fill taken; exact .inl rfl
  | readDone =>
      obtain ⟨kind, bytes, full, rfl⟩ := act_readDone taken
      cases kind with
      | validation => exact .inr ⟨bytes, full, codeIn_validationRead _⟩
      | header =>
          simp only [Connection.readDone, headerRead]
          split <;> exact .inl rfl
      | body => exact .inl rfl
  | readFail => obtain ⟨kind, -, rfl⟩ := act_readFail taken; exact .inl rfl
  | transfer index count => obtain ⟨op, -, -, -, -, rfl⟩ := act_transfer taken; exact .inl rfl
  | writeDone index =>
      obtain ⟨kind, -, rfl⟩ := act_writeDone taken
      left
      by_cases ofMessage : kind = .validation
      · subst ofMessage
        rcases c.server_or_client with isServer | isClient
        · rw [settle_validationWritten_server
            (c := { c with writing := c.writing.eraseIdx index }) isServer]
        · rw [settle_validationWritten_client
            (c := { c with writing := c.writing.eraseIdx index }) isClient]
          rfl
      · obtain ⟨queue, writing, fault, -, same⟩ :=
          OnlyWrites.settle_writeDone { c with writing := c.writing.eraseIdx index } ofMessage
        rw [same]
  | writeFail index => obtain ⟨op, -, -, rfl⟩ := act_writeFail taken; exact .inl rfl

/-- **The code that a client answers is the one that a handler read**, all eight bytes
of it if it got as many: a code other than the zero that the field begins with. -/
theorem codeIn_of_run [Inhabited T] {events : List (IoEvent T)} {final : Connection T}
    {code : UInt64} (run : runFrom step connect events = some final)
    (answered : final.validatonCodeIn = code) (begun : code ≠ 0) :
    Since step connect (ReadsCode code) (fun c => c.validatonCodeIn = code) events := by
  have keeps : ∀ (c : Connection T) (event : IoEvent T) (d : Connection T), True →
      c.step event = some d → True := fun _ _ _ _ _ => trivial
  refine since_of_run keeps ?_ trivial begun.symm run answered
  rintro c event d - taken other rfl
  exact (codeIn_step taken).resolve_left fun same => other same.symm

/-! ## An early lambda spoils the reply -/

omit [FullLayout T] in
/-- A byte of a message among the first eight is none of the reply. -/
theorem not_replyFirst_of_header {c : Connection T} {before : List (WriteKind × UInt8)}
    {byte : UInt8} (short : before.length < FixedLayout.size UInt64)
    (bytes : c.sent = before ++ [(.header, byte)]) : ¬ ReplyFirst c := by
  intro first
  have whole : c.sent.take (FixedLayout.size UInt64) = c.sent := by
    apply List.take_of_length_le
    rw [bytes, List.length_append, List.length_singleton]
    exact short
  rw [ReplyFirst, whole, bytes] at first
  have member : (WriteKind.header, byte) ∈ tagged .validation c.reply :=
    first.subset (by simp)
  obtain ⟨_, -, same⟩ := List.mem_map.mp member
  cases same

/-- An open client that starts a header before it has handed over eight bytes can
hand over the header at once. -/
theorem header_breaks {c : Connection T} {msg : Message T} {before : List WriteOp}
    (noFault : c.fault = none) (isOpen : c.isOpen = true)
    (short : c.sent.length < FixedLayout.size UInt64)
    (writing : c.writing = before ++ [⟨.header, toBytes msg.header⟩]) :
    ∃ final, c.step (.transfer before.length 1) = some final ∧ ¬ ReplyFirst final := by
  have length : (toBytes msg.header).length = FixedLayout.size (MessageHeader T) :=
    FixedLayout.length_toBytes _
  have positive : 0 < FixedLayout.size (MessageHeader T) := Nat.succ_pos _
  obtain ⟨byte, rest, split⟩ : ∃ byte rest, toBytes msg.header = byte :: rest := by
    cases bytes : toBytes msg.header with
    | nil => rw [bytes, List.length_nil] at length; omega
    | cons byte rest => exact ⟨byte, rest, rfl⟩
  have found : c.writing[before.length]? = some ⟨.header, byte :: rest⟩ := by
    rw [writing, split, List.getElem?_concat_length]
  obtain ⟨final, moved⟩ : ∃ final, c.step (.transfer before.length 1) = some final := by
    simp [step, noFault, act, found, isOpen]
  refine ⟨final, moved, ?_⟩
  obtain ⟨op, same, -, -, -, rfl⟩ := act_transfer (step_eq_some moved).2
  rw [found] at same
  cases same
  exact not_replyFirst_of_header short rfl

/-- **A lambda that runs early can be followed by bytes that spoil the reply.** -/
theorem early_lambda_breaks {c d : Connection T} {event : IoEvent T}
    (early : ¬ SendsAfterReply c event) (taken : c.step event = some d) :
    ∃ events final, runFrom step d events = some final ∧ ¬ ReplyFirst final := by
  obtain ⟨noFault, taken⟩ := step_eq_some taken
  cases event with
  | runPosted =>
      obtain ⟨lambda, rest, posted, rfl⟩ := act_runPosted taken
      cases lambda with
      | close => simp [SendsAfterReply, posted] at early
      | send msg =>
          have queue : c.qMessagesOut = [] := by
            cases queue : c.qMessagesOut with
            | nil => rfl
            | cons front later => simp [SendsAfterReply, posted, queue] at early
          simp only [SendsAfterReply, posted, queue, not_or, not_and, Nat.not_le] at early
          obtain ⟨short, notDown⟩ := early
          let started : Connection T := { c with
            posted := rest, qMessagesOut := [msg],
            writing := c.writing ++ [⟨.header, toBytes msg.header⟩] }
          have starts : ({ c with posted := rest } : Connection T).settle
              (({ c with posted := rest } : Connection T).runLambda (.send msg)) = started := by
            simp [runLambda, runSend, queue, writeHeader, startWrite, settle, started]
          rw [starts]
          by_cases isOpen : c.isOpen = true
          · obtain ⟨final, moved, broken⟩ := header_breaks (c := started) noFault isOpen short rfl
            exact ⟨[_], final, by rw [runFrom_cons moved]; rfl, broken⟩
          · have isClosed : c.isOpen = false := Bool.eq_false_iff.mpr isOpen
            have connecting : c.connecting = true := by simpa using notDown isClosed
            let opened : Connection T := { started with isOpen := true }
            have opens : started.step .socketOpened = some opened := by
              simp [step, started, noFault, act, connecting, isClosed, opened]
            obtain ⟨final, moved, broken⟩ := header_breaks (c := opened) noFault rfl short rfl
            exact ⟨[.socketOpened, _], final, by rw [runFrom_cons opens, runFrom_cons moved]; rfl,
              broken⟩
  | _ => exact absurd trivial early

end Connection

end NetworkChat
