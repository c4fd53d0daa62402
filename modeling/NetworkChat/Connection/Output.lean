import NetworkChat.Connection.OneWrite
import NetworkChat.Connection.ReadLoop
import NetworkChat.Connection.WriteChain

/-!
# The writes a connection starts

The log of a run keeps the buffers that the handlers hand to `async_write`. `ChainStep` says
once what a step can do to the queue, to the outstanding write and to this log. From it
follow three things.

* The buffers are the headers and bodies of the messages in the order of `Send`, and a
  message is popped when all its bytes are handed over (`Outputs.step`).
* After a write that failed nothing is started and nothing is handed over any more
  (`Stalled.step`).
* Once the write of the handshake has ended, every further write is that of a message
  (`HandshakeWritten.step`).

They meet in `writes_in_send_order`.
-/

set_option autoImplicit false

namespace NetworkChat

open Foundation

namespace Connection

variable {T : Type} [FullLayout T]

/-- The writes of a message: its header, and its body unless it is empty. -/
def writesOf (msg : Message T) : List WriteOp :=
  ⟨.header, toBytes msg.header⟩ :: if msg.body = [] then [] else [⟨.body, msg.body⟩]

/-- The write of the header of the front message. -/
def frontHeader : List (Message T) → List WriteOp
  | [] => []
  | msg :: _ => [⟨.header, toBytes msg.header⟩]

/-- The writes that a step starts: those behind the ones it has found, less the one that has
ended. -/
def handed (c : Connection T) (event : IoEvent T) : List WriteOp :=
  match c.step event with
  | none => []
  | some d =>
      match event with
      | .writeDone _ => d.writing.drop (c.writing.length - 1)
      | _ => d.writing.drop c.writing.length

/-- Those of headers and bodies. -/
def handedMessages (c : Connection T) (event : IoEvent T) : List WriteOp :=
  (c.handed event).filter WriteOp.ofMessage

theorem handed_eq {c d : Connection T} {event : IoEvent T} (taken : c.step event = some d)
    (notDone : ∀ index, event ≠ .writeDone index) :
    c.handed event = d.writing.drop c.writing.length := by
  simp only [handed, taken]

theorem handed_writeDone {c d : Connection T} {index : ℕ}
    (taken : c.step (.writeDone index) = some d)
    (within : index < c.writing.length) :
    c.handed (.writeDone index) = d.writing.drop (c.writing.eraseIdx index).length := by
  simp only [handed, taken]
  rw [← List.length_eraseIdx_add_one within, Nat.add_sub_cancel]

/-- An event that does not touch the chain starts at most the write of the handshake. -/
theorem writing_goesOn {c d : Connection T} {event : IoEvent T} (taken : c.act event = some d)
    (untouched : ¬ Touches c event) : c.writing <+: d.writing := by
  cases event with
  | send msg => exact absurd trivial untouched
  | transfer index count => exact absurd trivial untouched
  | writeDone index => exact absurd trivial untouched
  | writeFail index => exact absurd trivial untouched
  | disconnect =>
      cases taken
      simp only [disconnect]
      split <;> exact List.prefix_refl _
  | socketOpened => obtain ⟨-, -, rfl⟩ := act_socketOpened taken; exact List.prefix_refl _
  | connected => obtain ⟨-, -, rfl⟩ := act_connected taken; exact List.prefix_refl _
  | connectFailed => obtain ⟨-, rfl⟩ := act_connectFailed taken; exact List.prefix_refl _
  | runPosted =>
      obtain ⟨lambda, rest, posted, rfl⟩ := act_runPosted taken
      cases lambda with
      | send msg => exact absurd ⟨msg, rest, posted⟩ untouched
      | close => exact List.prefix_refl _
  | arrive piece => obtain ⟨-, rfl⟩ := act_arrive taken; exact List.prefix_refl _
  | fill count => obtain ⟨kind, -, -, -, -, rfl⟩ := act_fill taken; exact List.prefix_refl _
  | readFail => obtain ⟨kind, -, rfl⟩ := act_readFail taken; exact List.prefix_refl _
  | readDone =>
      obtain ⟨kind, bytes, -, rfl⟩ := act_readDone taken
      cases kind with
      | body => exact List.prefix_refl _
      | header =>
          simp only [Connection.readDone, headerRead]
          split <;> exact List.prefix_refl _
      | validation =>
          simp only [Connection.readDone, validationRead]
          split
          · split <;> exact List.prefix_refl _
          · exact List.prefix_append _ _

/-! ## What a step does to the chain -/

/-- What can happen to a queue and to its outstanding write, with the messages that are popped
and the writes that are started. -/
inductive Advance (fails : Prop) : List (Message T) → List WriteOp → List (Message T) →
    List WriteOp → List (Message T) → List WriteOp → Prop where
  | keep (queue : List (Message T)) (writes : List WriteOp) :
      Advance fails queue writes queue writes [] []
  | move (queue : List (Message T)) (kind : WriteKind) (before after : List UInt8) :
      Advance fails queue [⟨kind, before⟩] queue [⟨kind, after⟩] [] []
  | queued (front : Message T) (later : List (Message T)) (msg : Message T)
    (writes : List WriteOp) :
      Advance fails (front :: later) writes (front :: (later ++ [msg])) writes [] []
  | started (msg : Message T) :
      Advance fails [] [] [msg] (frontHeader [msg]) [] (frontHeader [msg])
  | body (msg : Message T) (later : List (Message T)) (nonempty : msg.body ≠ []) :
      Advance fails (msg :: later) [⟨.header, []⟩] (msg :: later) [⟨.body, msg.body⟩] []
        [⟨.body, msg.body⟩]
  | popped (msg : Message T) (later : List (Message T)) (kind : WriteKind)
      (whole : kind = .body ∨ kind = .header ∧ msg.body = []) :
      Advance fails (msg :: later) [⟨kind, []⟩] later (frontHeader later) [msg] (frontHeader later)
  | failed (queue : List (Message T)) (op : WriteOp) (isFailure : fails) :
      Advance fails queue [op] queue [] [] []

/-- A step of a connection advances the chain, and accounts for the messages. -/
structure ChainStep (c d : Connection T) (event : IoEvent T) (popped : List (Message T)) :
    Prop where
  advance : Advance (∃ index, event = .writeFail index) c.qMessagesOut c.messageWrites
    d.qMessagesOut d.messageWrites popped (c.handedMessages event)
  account : c.qMessagesOut ++ (postedMessages c.posted ++ event.given) =
    popped ++ (d.qMessagesOut ++ postedMessages d.posted)
  bytes : messageBytes c.sent <+: messageBytes d.sent
  still : c.messageWrites = [] → messageBytes d.sent = messageBytes c.sent

/-- What does not touch the chain leaves it where it is. -/
theorem ChainStep.of_untouched {c d : Connection T} {event : IoEvent T}
    (taken : c.step event = some d)
    (untouched : ¬ Touches c event) : ChainStep c d event [] := by
  obtain ⟨-, acted⟩ := step_eq_some taken
  have same := SameWrites.of_act acted untouched
  obtain ⟨more, writing⟩ := writing_goesOn acted untouched
  have noMessage : more.filter WriteOp.ofMessage = [] := by
    have writes := same.writes
    rw [messageWrites, messageWrites, ← writing, List.filter_append] at writes
    exact List.append_right_eq_self.mp writes
  have nothing : c.handedMessages event = [] := by
    rw [handedMessages, handed_eq taken, ← writing, List.drop_left, noMessage]
    rintro index rfl
    exact untouched trivial
  have notGiven : event.given = [] := by
    cases event with
    | send msg => exact absurd trivial untouched
    | _ => rfl
  refine ⟨?_, ?_, ?_, fun _ => same.bytes⟩
  · rw [same.queue, same.writes, nothing]
    exact .keep _ _
  · rw [same.queue, same.posted, notGiven, List.append_nil, List.nil_append]
  · rw [same.bytes]

/-! ## The handlers of the chain -/

theorem filter_frontHeader (queue : List (Message T)) :
    (frontHeader queue).filter WriteOp.ofMessage = frontHeader queue := by
  cases queue <;> rfl

/-- The lambda of `Send` that finds the queue empty starts the header. -/
theorem settle_runSend_idle {c : Connection T} {msg : Message T} (idle : c.qMessagesOut = []) :
    c.settle (c.runSend msg) =
      { c with qMessagesOut := [msg], writing := c.writing ++ frontHeader [msg] } := by
  cases c
  cases idle
  rfl

theorem settle_runSend_busy {c : Connection T} {msg front : Message T} {later : List (Message T)}
    (busy : c.qMessagesOut = front :: later) :
    c.settle (c.runSend msg) = { c with qMessagesOut := front :: (later ++ [msg]) } := by
  cases c
  cases busy
  rfl

/-- The front message is popped, and the header of the next one is started. -/
theorem settle_popAndContinue {c : Connection T} {msg : Message T} {later : List (Message T)}
    (queue : c.qMessagesOut = msg :: later) :
    c.settle c.popAndContinue =
      { c with qMessagesOut := later, writing := c.writing ++ frontHeader later } := by
  cases c
  cases queue
  cases later with
  | nil => simp [popAndContinue, settle, frontHeader]
  | cons next later => rfl

theorem settle_headerWritten {c : Connection T} {msg : Message T} {later : List (Message T)}
    (queue : c.qMessagesOut = msg :: later) (nonempty : msg.body ≠ []) :
    c.settle c.headerWritten = { c with writing := c.writing ++ [⟨.body, msg.body⟩] } := by
  have positive : 0 < msg.body.length := List.length_pos_of_ne_nil nonempty
  cases c
  cases queue
  simp only [headerWritten, if_pos positive]
  rfl

theorem headerWritten_of_empty {c : Connection T} {msg : Message T} {later : List (Message T)}
    (queue : c.qMessagesOut = msg :: later) (empty : msg.body = []) :
    c.headerWritten = c.popAndContinue := by
  simp [headerWritten, queue, empty]

/-- What a handler of the chain leaves behind. -/
structure Leaves (c d : Connection T) (queue : List (Message T)) (writing : List WriteOp)
    (posted : List (Posted T)) : Prop where
  queue : d.qMessagesOut = queue
  writing : d.writing = writing
  posted : d.posted = posted
  sent : d.sent = c.sent

/-- The lambda of `Send`. -/
theorem WriteInvariant.chainStep_runSend {given : List (Message T)} {c d : Connection T}
    {msg : Message T} {rest : List (Posted T)} (invariant : WriteInvariant given c)
    (taken : c.step .runPosted = some d) (posted : c.posted = .send msg :: rest) :
    ChainStep c d .runPosted [] := by
  obtain ⟨-, written, remaining, -, chain, -⟩ := invariant
  obtain ⟨-, acted⟩ := step_eq_some taken
  obtain ⟨_, _, same, moved⟩ := act_runPosted acted
  cases posted.symm.trans same
  have handed : c.handedMessages .runPosted = (d.writing.drop c.writing.length).filter
      WriteOp.ofMessage := by rw [handedMessages, handed_eq taken nofun]
  have taking : postedMessages c.posted = msg :: postedMessages rest := by rw [posted]; rfl
  cases queue : c.qMessagesOut with
  | nil =>
      rw [queue] at chain
      have noWrites : c.messageWrites = [] := by
        generalize c.messageWrites = writes at chain
        cases chain
        rfl
      have leaves : Leaves c d [msg] (c.writing ++ frontHeader [msg]) rest := by
        rw [moved, runLambda, settle_runSend_idle (c := { c with posted := rest }) queue]
        exact ⟨rfl, rfl, rfl, rfl⟩
      have started : d.messageWrites = frontHeader [msg] := by
        rw [messageWrites, leaves.writing, List.filter_append, ← messageWrites, noWrites,
          filter_frontHeader, List.nil_append]
      refine ⟨?_, ?_, ?_, fun _ => by rw [leaves.sent]⟩
      · rw [handed, leaves.queue, started, leaves.writing, List.drop_left, filter_frontHeader,
          queue,
          noWrites]
        exact .started msg
      · rw [queue, taking, leaves.queue, leaves.posted]
        simp [IoEvent.given]
      · rw [leaves.sent]
  | cons front later =>
      have leaves : Leaves c d (front :: (later ++ [msg])) c.writing rest := by
        rw [moved, runLambda, settle_runSend_busy (c := { c with posted := rest }) queue]
        exact ⟨rfl, rfl, rfl, rfl⟩
      refine ⟨?_, ?_, ?_, fun _ => by rw [leaves.sent]⟩
      · rw [handed, messageWrites, messageWrites, leaves.queue, leaves.writing, List.drop_length,
          List.filter_nil, queue]
        exact .queued front later msg _
      · rw [queue, taking, leaves.queue, leaves.posted]
        simp [IoEvent.given]
      · rw [leaves.sent]

/-- Handing over a piece of a write. -/
theorem WriteInvariant.chainStep_transfer {given : List (Message T)} {c d : Connection T}
    {index count : ℕ} (invariant : WriteInvariant given c)
    (taken : c.step (.transfer index count) = some d) :
    ChainStep c d (.transfer index count) [] := by
  obtain ⟨-, written, remaining, -, chain, -⟩ := invariant
  obtain ⟨-, acted⟩ := step_eq_some taken
  obtain ⟨op, found, -, -, -, rfl⟩ := act_transfer acted
  have nothing : c.handedMessages (.transfer index count) = [] := by
    rw [handedMessages, handed_eq taken nofun, List.drop_eq_nil_of_le, List.filter_nil]
    rw [List.length_set]
  refine ⟨?_, ?_, ?_, ?_⟩
  · rw [nothing, messageWrites, messageWrites]
    cases ofMessage : op.kind.ofMessage with
    | false =>
        rw [filter_set_other found ofMessage ofMessage]
        exact .keep _ _
    | true =>
        obtain ⟨only, single⟩ := chain.exists_single (filter_ne_nil found ofMessage)
        obtain rfl := eq_of_filter_singleton found ofMessage single
        have changed : (WriteOp.mk op.kind (op.rest.drop count)).ofMessage = true := ofMessage
        rw [filter_set_only found ofMessage single changed]
        rw [messageWrites] at single
        rw [single]
        exact .move _ _ _ _
  · simp [IoEvent.given]
  · rw [messageBytes_append]
    exact List.prefix_append _ _
  · intro noWrites
    have notOfMessage : op.kind.ofMessage = false := by
      cases ofMessage : op.kind.ofMessage with
      | false => rfl
      | true => exact absurd noWrites (filter_ne_nil found ofMessage)
    rw [messageBytes_append, messageBytes_tagged, notOfMessage]
    simp

/-- The write of the chain has ended, and its handler starts the next one. -/
theorem ChainStep.of_leaves {c d : Connection T} {index : ℕ} {kind : WriteKind}
    {popped queue : List (Message T)} {started : List WriteOp}
    (taken : c.step (.writeDone index) = some d) (found : c.writing[index]? = some ⟨kind, []⟩)
    (single : c.messageWrites = [⟨kind, []⟩]) (ofMessage : kind.ofMessage = true)
    (onlyMessages : started.filter WriteOp.ofMessage = started)
    (leaves : Leaves c d queue (c.writing.eraseIdx index ++ started) c.posted)
    (account : c.qMessagesOut = popped ++ queue)
    (advance : Advance (∃ other, IoEvent.writeDone (T := T) index = .writeFail other) c.qMessagesOut
      [⟨kind, []⟩] queue started popped started) :
    ChainStep c d (.writeDone index) popped := by
  have none := filter_eraseIdx_only found ofMessage single
  have within : index < c.writing.length := (List.getElem?_eq_some_iff.mp found).1
  have now : d.messageWrites = started := by
    rw [messageWrites, leaves.writing, List.filter_append, none, onlyMessages, List.nil_append]
  refine ⟨?_, ?_, ?_, fun _ => by rw [leaves.sent]⟩
  · rw [handedMessages, handed_writeDone taken within, leaves.writing, List.drop_left, onlyMessages,
      now, leaves.queue, single]
    exact advance
  · rw [leaves.queue, leaves.posted, account]
    simp [IoEvent.given]
  · rw [leaves.sent]

/-- The end of a write that handed over everything. -/
theorem WriteInvariant.chainStep_writeDone {given : List (Message T)} {c d : Connection T}
    {index : ℕ} (invariant : WriteInvariant given c) (taken : c.step (.writeDone index) = some d) :
    ∃ popped, ChainStep c d (.writeDone index) popped := by
  obtain ⟨-, written, remaining, -, chain, -⟩ := invariant
  obtain ⟨-, acted⟩ := step_eq_some taken
  obtain ⟨kind, found, moved⟩ := act_writeDone acted
  let erased : Connection T := { c with writing := c.writing.eraseIdx index }
  have pops : ∀ msg later, c.qMessagesOut = msg :: later → c.messageWrites = [⟨kind, []⟩] →
      kind = .body ∨ kind = .header ∧ msg.body = [] → d = erased.settle erased.popAndContinue →
        ChainStep c d (.writeDone index) [msg] := by
    intro msg later queue single whole moved
    have leaves : Leaves c d later (c.writing.eraseIdx index ++ frontHeader later) c.posted := by
      rw [moved, settle_popAndContinue (c := erased) queue]
      exact ⟨rfl, rfl, rfl, rfl⟩
    have ofMessage : kind.ofMessage = true := by rcases whole with rfl | ⟨rfl, -⟩ <;> rfl
    refine .of_leaves taken found single ofMessage (filter_frontHeader later) leaves queue ?_
    rw [queue]
    exact .popped msg later kind whole
  cases kind with
  | validation =>
      have within : index < c.writing.length := (List.getElem?_eq_some_iff.mp found).1
      have leaves : Leaves c d c.qMessagesOut (c.writing.eraseIdx index) c.posted := by
        rw [moved]
        simp only [Connection.writeDone, validationWritten, settle]
        split <;> exact ⟨rfl, rfl, rfl, rfl⟩
      refine ⟨[], ?_, ?_, ?_, fun _ => by rw [leaves.sent]⟩
      · rw [handedMessages, handed_writeDone taken within, leaves.writing, List.drop_length,
          List.filter_nil, leaves.queue, messageWrites, messageWrites, leaves.writing,
          filter_eraseIdx_other found rfl]
        exact .keep _ _
      · rw [leaves.queue, leaves.posted]
        simp [IoEvent.given]
      · rw [leaves.sent]
  | body =>
      obtain ⟨only, single⟩ := chain.exists_single (filter_ne_nil found rfl)
      obtain rfl := eq_of_filter_singleton found rfl single
      obtain ⟨msg, later, queue, -⟩ := (single ▸ chain).of_body
      exact ⟨[msg], pops msg later queue single (.inl rfl) moved⟩
  | header =>
      obtain ⟨only, single⟩ := chain.exists_single (filter_ne_nil found rfl)
      obtain rfl := eq_of_filter_singleton found rfl single
      obtain ⟨msg, later, queue, -⟩ := (single ▸ chain).of_header
      by_cases empty : msg.body = []
      · refine ⟨[msg], pops msg later queue single (.inr ⟨rfl, empty⟩) ?_⟩
        rw [moved, Connection.writeDone, headerWritten_of_empty (c := erased) queue empty]
      · have leaves : Leaves c d c.qMessagesOut
            (c.writing.eraseIdx index ++ [⟨.body, msg.body⟩]) c.posted := by
          rw [moved, Connection.writeDone, settle_headerWritten (c := erased) queue empty]
          exact ⟨rfl, rfl, rfl, rfl⟩
        refine ⟨[], .of_leaves taken found single rfl rfl leaves rfl ?_⟩
        rw [queue]
        exact .body msg later empty

/-- A write that fails starts nothing. -/
theorem handed_writeFail {c d : Connection T} {index : ℕ}
    (taken : c.step (.writeFail index) = some d) : c.handed (.writeFail index) = [] := by
  obtain ⟨-, acted⟩ := step_eq_some taken
  obtain ⟨op, found, -, rfl⟩ := act_writeFail acted
  rw [handed_eq taken nofun, List.drop_eq_nil_of_le]
  exact List.length_eraseIdx_le _ _

/-- The end of a write that failed. -/
theorem WriteInvariant.chainStep_writeFail {given : List (Message T)} {c d : Connection T}
    {index : ℕ} (invariant : WriteInvariant given c) (taken : c.step (.writeFail index) = some d) :
    ChainStep c d (.writeFail index) [] := by
  obtain ⟨-, written, remaining, -, chain, -⟩ := invariant
  obtain ⟨-, acted⟩ := step_eq_some taken
  obtain ⟨op, found, -, moved⟩ := act_writeFail acted
  have leaves : Leaves c d c.qMessagesOut (c.writing.eraseIdx index) c.posted := by
    rw [moved]
    exact ⟨rfl, rfl, rfl, rfl⟩
  have nothing : c.handedMessages (.writeFail index) = [] := by
    rw [handedMessages, handed_writeFail taken, List.filter_nil]
  refine ⟨?_, ?_, ?_, fun _ => by rw [leaves.sent]⟩
  · rw [nothing, leaves.queue, messageWrites, messageWrites, leaves.writing]
    cases ofMessage : op.kind.ofMessage with
    | false =>
        rw [filter_eraseIdx_other found ofMessage]
        exact .keep _ _
    | true =>
        obtain ⟨only, single⟩ := chain.exists_single (filter_ne_nil found ofMessage)
        rw [filter_eraseIdx_only found ofMessage single]
        rw [messageWrites] at single
        rw [single]
        exact .failed _ _ ⟨index, rfl⟩
  · rw [leaves.queue, leaves.posted]
    simp [IoEvent.given]
  · rw [leaves.sent]

/-- **Every step advances the chain.** -/
theorem WriteInvariant.chainStep {given : List (Message T)} {c d : Connection T} {event : IoEvent T}
    (invariant : WriteInvariant given c) (taken : c.step event = some d) :
    ∃ popped, ChainStep c d event popped := by
  by_cases touches : Touches c event
  · cases event with
    | send msg =>
        obtain ⟨-, acted⟩ := step_eq_some taken
        cases acted
        have nothing : c.handedMessages (.send msg) = [] := by
          rw [handedMessages, handed_eq taken nofun, send, List.drop_length, List.filter_nil]
        refine ⟨[], ?_, ?_, List.prefix_refl _, fun _ => rfl⟩
        · rw [nothing]
          exact .keep _ _
        · simp [IoEvent.given, send, postedMessages, Posted.message?]
    | runPosted =>
        obtain ⟨msg, rest, posted⟩ := touches
        exact ⟨[], invariant.chainStep_runSend taken posted⟩
    | transfer index count => exact ⟨[], invariant.chainStep_transfer taken⟩
    | writeDone index => exact invariant.chainStep_writeDone taken
    | writeFail index => exact ⟨[], invariant.chainStep_writeFail taken⟩
    | _ => exact touches.elim
  · exact ⟨[], .of_untouched taken touches⟩

/-! ## The order of the writes -/

/-- What was started of the front message. -/
inductive Progress (failed : Prop) : List (Message T) → List WriteOp → List WriteOp → Prop where
  | idle : Progress failed [] [] []
  | header (msg : Message T) (later : List (Message T)) (rest : List UInt8) :
      Progress failed (msg :: later) [⟨.header, rest⟩] (frontHeader [msg])
  | body (msg : Message T) (later : List (Message T)) (rest : List UInt8)
    (nonempty : msg.body ≠ []) :
      Progress failed (msg :: later) [⟨.body, rest⟩] (writesOf msg)
  | failed (msg : Message T) (later : List (Message T)) (front : List WriteOp)
      (isPart : front <+: writesOf msg) (isFailure : failed) :
        Progress failed (msg :: later) [] front

theorem Progress.mono {first second : Prop} (implies : first → second) {queue : List (Message T)}
    {writes front : List WriteOp} (progress : Progress first queue writes front) :
    Progress second queue writes front := by
  cases progress with
  | idle => exact .idle
  | header msg later rest => exact .header msg later rest
  | body msg later rest nonempty => exact .body msg later rest nonempty
  | failed msg later front isPart has => exact .failed msg later front isPart (implies has)

/-- A chain that has just started its front message. -/
theorem Progress.fresh (failed : Prop) (queue : List (Message T)) :
    Progress failed queue (frontHeader queue) (frontHeader queue) := by
  cases queue with
  | nil => exact .idle
  | cons msg later => exact .header msg later _

theorem writesOf_of_empty {msg : Message T} (empty : msg.body = []) :
    writesOf msg = frontHeader [msg] := by
  rw [writesOf, if_pos empty]
  rfl

theorem writesOf_of_nonempty {msg : Message T} (nonempty : msg.body ≠ []) :
    writesOf msg = frontHeader [msg] ++ [⟨.body, msg.body⟩] := by
  rw [writesOf, if_neg nonempty]
  rfl

/-- What was started is part of the writes of the front message. -/
theorem Progress.isPart {failed : Prop} {queue : List (Message T)} {writes front : List WriteOp}
    (progress : Progress failed queue writes front) :
    front <+: (queue.take 1).flatMap writesOf := by
  cases progress with
  | idle => exact List.prefix_refl _
  | header msg later rest =>
      simp only [List.take_succ_cons, List.take_zero, List.flatMap_cons, List.flatMap_nil,
        List.append_nil]
      by_cases empty : msg.body = []
      · rw [writesOf_of_empty empty]
      · rw [writesOf_of_nonempty empty]
        exact List.prefix_append _ _
  | body msg later rest nonempty => simp
  | failed msg later front isPart => simpa using isPart

/-- When no write has failed, a queue is not empty exactly when a write is outstanding. -/
theorem Progress.busy_iff {failed : Prop} {queue : List (Message T)} {writes front : List WriteOp}
    (progress : Progress failed queue writes front) (noFailure : ¬ failed) :
    queue ≠ [] ↔ writes.length = 1 := by
  cases progress with
  | idle => exact iff_of_false (fun busy => busy rfl) (by decide)
  | header => exact iff_of_true (List.cons_ne_nil _ _) rfl
  | body => exact iff_of_true (List.cons_ne_nil _ _) rfl
  | failed _ _ _ _ isFailure => exact absurd isFailure noFailure

/-- As the chain advances, the writes started stay those of the messages in their order. -/
theorem Progress.advance {failed fails : Prop} {queue next popped : List (Message T)}
    {writes after front started : List WriteOp} (progress : Progress failed queue writes front)
    (advance : Advance fails queue writes next after popped started) :
    ∃ now, front ++ started = popped.flatMap writesOf ++ now ∧
      Progress (failed ∨ fails) next after now := by
  cases advance with
  | keep => exact ⟨front, List.append_nil _, progress.mono .inl⟩
  | move _ kind before rest =>
      refine ⟨front, List.append_nil _, ?_⟩
      cases progress with
      | header msg later => exact .header msg later rest
      | body msg later _ nonempty => exact .body msg later rest nonempty
  | queued first later msg =>
      refine ⟨front, List.append_nil _, ?_⟩
      cases progress with
      | header _ _ rest => exact .header first _ rest
      | body _ _ rest nonempty => exact .body first _ rest nonempty
      | failed _ _ _ isPart isFailure => exact .failed first _ front isPart (.inl isFailure)
  | started msg =>
      cases progress with
      | idle => exact ⟨frontHeader [msg], rfl, .fresh _ [msg]⟩
  | body msg later nonempty =>
      cases progress with
      | header =>
          exact ⟨writesOf msg, (writesOf_of_nonempty nonempty).symm, .body msg later _ nonempty⟩
  | popped msg later kind whole =>
      have wrote : front = writesOf msg := by
        rcases whole with rfl | ⟨rfl, empty⟩
        · cases progress with
          | body => rfl
        · cases progress with
          | header => exact (writesOf_of_empty empty).symm
      exact ⟨frontHeader next, by rw [wrote]; simp, .fresh _ next⟩
  | failed _ op isFailure =>
      refine ⟨front, List.append_nil _, ?_⟩
      have part := progress.isPart
      cases progress with
      | header msg later => exact .failed msg later _ (by simpa using part) (.inr isFailure)
      | body msg later => exact .failed msg later _ (List.prefix_refl _) (.inr isFailure)

/-- The writes started are those of the messages given, in their order, and the messages that
were popped are handed over. -/
structure Outputs (failed : Prop) (given : List (Message T)) (log : List WriteOp)
    (c : Connection T) : Prop where
  ordered : ∃ done front, given = done ++ (c.qMessagesOut ++ postedMessages c.posted) ∧
    log.filter WriteOp.ofMessage = done.flatMap writesOf ++ front ∧
      Progress failed c.qMessagesOut c.messageWrites front ∧
        messageStream done <+: messageBytes c.sent

/-- When the last write of the front message has ended, all of the message is handed over. -/
theorem WriteInvariant.written_of_ended {given done later : List (Message T)} {msg : Message T}
    {c : Connection T} {kind : WriteKind} (invariant : WriteInvariant given c)
    (splits : given = done ++ (c.qMessagesOut ++ postedMessages c.posted))
    (queue : c.qMessagesOut = msg :: later) (ended : c.messageWrites = [⟨kind, []⟩])
    (whole : kind = .body ∨ kind = .header ∧ msg.body = []) :
    messageBytes c.sent = messageStream (done ++ [msg]) := by
  obtain ⟨-, written, remaining, account, chain, bytes⟩ := invariant
  rw [List.append_assoc] at account
  obtain rfl : written = done := List.append_cancel_right (account.symm.trans splits)
  rw [ended] at chain
  have left : remaining = messageStream later := by
    rcases whole with rfl | ⟨rfl, empty⟩
    · obtain ⟨other, after, same, rfl⟩ := chain.of_body
      cases queue.symm.trans same
      exact List.nil_append _
    · obtain ⟨other, after, same, rfl⟩ := chain.of_header
      cases queue.symm.trans same
      rw [empty]
      rfl
  rw [left, queue, ← List.singleton_append, ← List.append_assoc, messageStream_append] at bytes
  exact (List.append_cancel_right bytes).symm

/-- **Every step keeps the order of the writes.** -/
theorem Outputs.step {failed : Prop} {given : List (Message T)} {log : List WriteOp}
    {c d : Connection T} {event : IoEvent T} (outputs : Outputs failed given log c)
    (writes : WriteInvariant given c) (taken : c.step event = some d) :
    Outputs (failed ∨ ∃ index, event = .writeFail index) (given ++ event.given)
      (log ++ c.handed event) d := by
  obtain ⟨done, front, splits, ordered, progress, written⟩ := outputs
  obtain ⟨popped, advance, account, bytes, -⟩ := writes.chainStep taken
  obtain ⟨now, sameOrder, progressed⟩ := progress.advance advance
  refine ⟨done ++ popped, now, ?_, ?_, progressed, ?_⟩
  · rw [splits, List.append_assoc, List.append_assoc, account, List.append_assoc]
  · rw [List.filter_append, ordered, ← handedMessages, List.append_assoc, sameOrder,
      List.flatMap_append, List.append_assoc]
  · refine List.IsPrefix.trans ?_ bytes
    generalize queue : c.qMessagesOut = before at advance
    generalize ended : c.messageWrites = outstanding at advance
    generalize d.qMessagesOut = next, d.messageWrites = after, c.handedMessages event = started
      at advance
    cases advance with
    | popped msg later kind whole =>
        rw [writes.written_of_ended splits queue ended whole]
    | _ => simpa using written

/-! ## After a write that failed -/

/-- A queue that no write works on. -/
structure Stalled (c : Connection T) : Prop where
  waits : c.qMessagesOut ≠ []
  noWrites : c.messageWrites = []

/-- **Nothing is started and nothing is handed over any more.** -/
theorem Stalled.step {given : List (Message T)} {c d : Connection T} {event : IoEvent T}
    (stalled : Stalled c) (writes : WriteInvariant given c) (taken : c.step event = some d) :
    Stalled d ∧ c.handedMessages event = [] ∧ messageBytes d.sent = messageBytes c.sent := by
  obtain ⟨waits, noWrites⟩ := stalled
  obtain ⟨popped, advance, -, -, still⟩ := writes.chainStep taken
  suffices rest : Stalled d ∧ c.handedMessages event = [] from ⟨rest.1, rest.2, still noWrites⟩
  generalize c.qMessagesOut = before at advance waits
  rw [noWrites] at advance
  have halts : d.qMessagesOut ≠ [] ∧ d.messageWrites = [] ∧ c.handedMessages event = [] := by
    generalize d.qMessagesOut = next, d.messageWrites = after, c.handedMessages event = started
      at advance
    cases advance with
    | keep => exact ⟨waits, rfl, rfl⟩
    | queued first later msg => exact ⟨List.cons_ne_nil _ _, rfl, rfl⟩
    | started => exact absurd rfl waits
  exact ⟨⟨halts.1, halts.2.1⟩, halts.2.2⟩

/-- The write of a message that fails stalls its queue. -/
theorem stalled_of_writeFail {given : List (Message T)} {c d : Connection T} {index : ℕ}
    (writes : WriteInvariant given c) (onlyMessages : ∀ op ∈ c.writing, op.ofMessage = true)
    (taken : c.step (.writeFail index) = some d) : Stalled d := by
  obtain ⟨-, written, remaining, -, chain, -⟩ := writes
  obtain ⟨-, acted⟩ := step_eq_some taken
  obtain ⟨op, found, -, rfl⟩ := act_writeFail acted
  have ofMessage := onlyMessages op (List.mem_of_getElem? found)
  obtain ⟨only, single⟩ := chain.exists_single (filter_ne_nil found ofMessage)
  refine ⟨?_, filter_eraseIdx_only found ofMessage single⟩
  intro idle
  change c.qMessagesOut = [] at idle
  rw [single, idle] at chain
  cases chain

/-! ## After the handshake -/

/-- The write of the handshake has ended, and no other one will be started. -/
structure HandshakeWritten (c : Connection T) : Prop where
  connected : c.connecting = false
  ended : ∀ op ∈ c.writing, op.ofMessage = true
  answered : c.ownerType = .client → ∀ data, c.reading ≠ some ⟨.validation, data⟩

omit [FullLayout T] in
theorem HandshakeWritten.messageWrites_eq {c : Connection T} (written : HandshakeWritten c) :
    c.messageWrites = c.writing :=
  List.filter_eq_self.mpr written.ended

omit [FullLayout T] in
theorem HandshakeWritten.handshakeOver {c : Connection T} (written : HandshakeWritten c) :
    HandshakeOver c := by
  refine ⟨written.connected, ?_⟩
  intro isClient op member isCode
  have ofMessage := written.ended op member
  rw [WriteOp.ofMessage, isCode] at ofMessage
  cases ofMessage

omit [FullLayout T] in
theorem HandshakeWritten.congr {c d : Connection T} (written : HandshakeWritten c)
    (same : SameReads c d) : HandshakeWritten d := by
  refine ⟨same.connecting written.connected, ?_, ?_⟩
  · intro op member
    cases kind : op.kind with
    | header => rw [WriteOp.ofMessage, kind]; rfl
    | body => rw [WriteOp.ofMessage, kind]; rfl
    | validation =>
        obtain ⟨old, among, isCode⟩ := same.writes op member kind
        have ofMessage := written.ended old among
        rw [WriteOp.ofMessage, isCode] at ofMessage
        cases ofMessage
  · intro isClient data
    rw [same.reading]
    exact written.answered (same.ownerType.symm.trans isClient) data

/-- No handler of a read starts a write any more. -/
theorem HandshakeWritten.readDone {c : Connection T} {kind : ReadKind} {bytes : List UInt8}
    (written : HandshakeWritten c) (full : c.reading = some ⟨kind, some bytes⟩) :
    HandshakeWritten ({ c with reading := none }.readDone kind bytes) := by
  cases kind with
  | body => exact ⟨written.connected, written.ended, by intro _ _ reading; cases reading⟩
  | header =>
      simp only [Connection.readDone, headerRead]
      split <;> exact ⟨written.connected, written.ended, by intro _ _ reading; cases reading⟩
  | validation =>
      cases owner : c.ownerType with
      | client => exact absurd full (written.answered owner _)
      | server =>
          simp only [Connection.readDone, validationRead]
          split
          · exact ⟨written.connected, written.ended, by intro _ _ reading; cases reading⟩
          · exact ⟨rfl, written.ended, by intro _ _ reading; cases reading⟩

theorem HandshakeWritten.step {c d : Connection T} {event : IoEvent T}
    (written : HandshakeWritten c)
    (taken : c.step event = some d) : HandshakeWritten d := by
  obtain ⟨-, acted⟩ := step_eq_some taken
  have isOver := written.handshakeOver
  cases event with
  | arrive piece =>
      obtain ⟨-, rfl⟩ := act_arrive acted
      exact ⟨written.connected, written.ended, written.answered⟩
  | fill count =>
      obtain ⟨kind, pending, -, -, -, rfl⟩ := act_fill acted
      refine ⟨written.connected, written.ended, ?_⟩
      intro isClient data reading
      cases reading
      exact written.answered isClient none pending
  | readDone =>
      obtain ⟨kind, bytes, full, rfl⟩ := act_readDone acted
      exact written.readDone full
  | readFail =>
      obtain ⟨kind, -, rfl⟩ := act_readFail acted
      exact ⟨rfl, written.ended, nofun⟩
  | _ => exact written.congr (SameReads.of_act isOver acted not_false)

/-- The writes that a step starts are those of messages. -/
theorem HandshakeWritten.handed_ofMessage {c d : Connection T} {event : IoEvent T}
    (written : HandshakeWritten c) (taken : c.step event = some d) :
    ∀ op ∈ c.handed event, op.ofMessage = true := by
  intro op member
  refine (written.step taken).ended op ?_
  simp only [handed, taken] at member
  split at member
  · exact List.mem_of_mem_drop member
  · exact List.mem_of_mem_drop member

/-! ## Runs -/

theorem Begins.writeInvariant [Inhabited T] {c : Connection T} (begins : Begins c) :
    WriteInvariant (postedMessages c.posted) c := by
  cases begins with
  | connecting => exact ⟨rfl, [], [], rfl, .idle, rfl⟩
  | accepted clock welcome uid =>
      have writes := writeInvariant_accept clock welcome uid
      rwa [accept_eq, postedMessages_map_send] at *

theorem Begins.outputs [Inhabited T] {c : Connection T} (begins : Begins c) :
    Outputs False (postedMessages c.posted) c.writing c := by
  cases begins with
  | connecting => exact ⟨[], [], rfl, rfl, .idle, List.nil_prefix⟩
  | accepted clock welcome uid =>
      rw [accept_eq]
      exact ⟨[], [], rfl, rfl, .idle, List.nil_prefix⟩

/-- What a run with a log keeps. -/
theorem outputs_of_run [Inhabited T] {start c : Connection T} {events : List (IoEvent T)}
    {log : List WriteOp} (begins : Begins start)
    (run : runFrom (logged step handed) (start, start.writing) events = some (c, log)) :
    WriteInvariant (postedMessages start.posted ++ events.flatMap IoEvent.given) c ∧
      Outputs (∃ index, .writeFail index ∈ events)
        (postedMessages start.posted ++ events.flatMap IoEvent.given) log c := by
  let holds (past : List (IoEvent T)) (state : Connection T × List WriteOp) : Prop :=
    WriteInvariant (postedMessages start.posted ++ past.flatMap IoEvent.given) state.1 ∧
      Outputs (∃ index, .writeFail index ∈ past)
        (postedMessages start.posted ++ past.flatMap IoEvent.given) state.2 state.1
  have keeps : ∀ past state event next, holds past state →
      logged step handed state event = some next → holds (past ++ [event]) next := by
    rintro past state event next ⟨writes, outputs⟩ taken
    obtain ⟨moved, written⟩ := logged_eq_some taken
    have given : postedMessages start.posted ++ (past ++ [event]).flatMap IoEvent.given =
        postedMessages start.posted ++ past.flatMap IoEvent.given ++ event.given := by
      rw [List.flatMap_append, List.flatMap_singleton, List.append_assoc]
    have after := outputs.step writes moved
    have failed : ((∃ index, .writeFail index ∈ past) ∨ ∃ index, event = .writeFail index) →
        ∃ index, .writeFail index ∈ past ++ [event] := by
      rintro (⟨index, member⟩ | ⟨index, rfl⟩)
      · exact ⟨index, List.mem_append_left _ member⟩
      · exact ⟨index, by simp⟩
    obtain ⟨done, front, splits, ordered, progress, bytes⟩ := after
    refine ⟨?_, ?_⟩
    · rw [given]
      exact writes.step moved
    · rw [given, written]
      exact ⟨done, front, splits, ordered, progress.mono failed, bytes⟩
  have initially : holds [] (start, start.writing) := by
    refine ⟨?_, ?_⟩
    · rw [List.flatMap_nil, List.append_nil]
      exact begins.writeInvariant
    · obtain ⟨done, front, splits, ordered, progress, bytes⟩ := begins.outputs
      rw [List.flatMap_nil, List.append_nil]
      exact ⟨done, front, splits, ordered, progress.mono False.elim, bytes⟩
  exact history_invariant_of_run keeps initially run

/-- After the handshake a run starts writes of messages only. -/
theorem HandshakeWritten.run {begun c : Connection T} {events : List (IoEvent T)}
    {first log : List WriteOp} (written : HandshakeWritten begun)
    (run : runFrom (logged Connection.step handed) (begun, first) events = some (c, log)) :
    HandshakeWritten c ∧ ∃ more, log = first ++ more ∧ ∀ op ∈ more, op.ofMessage = true := by
  let holds (state : Connection T × List WriteOp) : Prop :=
    HandshakeWritten state.1 ∧ ∃ more, state.2 = first ++ more ∧ ∀ op ∈ more, op.ofMessage = true
  have keeps : ∀ state event next, holds state →
      logged Connection.step handed state event = some next →
      holds next := by
    rintro state event next ⟨written, more, splits, messages⟩ taken
    obtain ⟨moved, noted⟩ := logged_eq_some taken
    refine ⟨written.step moved, more ++ state.1.handed event, ?_, ?_⟩
    · rw [noted, splits, List.append_assoc]
    · intro op member
      rcases List.mem_append.mp member with old | new
      · exact messages op old
      · exact written.handed_ofMessage moved op new
  exact invariant_of_run keeps
    (⟨written, [], (List.append_nil _).symm, nofun⟩ : holds (begun, first)) run

/-- A run of a stalled connection starts no write of a message, and hands nothing over. -/
theorem Stalled.run {given : List (Message T)} {begun c : Connection T} {events : List (IoEvent T)}
    {first log : List WriteOp} (stalled : Stalled begun) (writes : WriteInvariant given begun)
    (run : runFrom (logged Connection.step handed) (begun, first) events = some (c, log)) :
    log.filter WriteOp.ofMessage = first.filter WriteOp.ofMessage ∧
      messageBytes c.sent = messageBytes begun.sent := by
  let holds (state : Connection T × List WriteOp) : Prop :=
    Stalled state.1 ∧ (∃ given, WriteInvariant given state.1) ∧
      state.2.filter WriteOp.ofMessage = first.filter WriteOp.ofMessage ∧
        messageBytes state.1.sent = messageBytes begun.sent
  have keeps : ∀ state event next, holds state →
      logged Connection.step handed state event = some next →
      holds next := by
    rintro state event next ⟨stalled, ⟨given, writes⟩, sameWrites, sameBytes⟩ taken
    obtain ⟨moved, noted⟩ := logged_eq_some taken
    obtain ⟨still, nothing, bytes⟩ := stalled.step writes moved
    refine ⟨still, ⟨_, writes.step moved⟩, ?_, bytes.trans sameBytes⟩
    rw [noted, List.filter_append, ← handedMessages, nothing, List.append_nil, sameWrites]
  exact (invariant_of_run keeps
    (⟨stalled, ⟨given, writes⟩, rfl, rfl⟩ : holds (begun, first)) run).2.2

/-- **After the handshake the headers and bodies of the messages are written in the order of
`Send`, each once and whole.** The buffers handed to `async_write` are those of the messages
that were popped and the first ones of the front message; what was popped is handed over to its
last byte; no handler meets an empty queue; without a failed write the queue is not empty
exactly when one write is outstanding; and after a failed write nothing more is started or
handed over. -/
theorem writes_in_send_order [Inhabited T] {start begun c : Connection T}
    {before after : List (IoEvent T)} {first log : List WriteOp} (begins : Begins start)
    (handshake : runFrom (logged step handed) (start, start.writing) before = some (begun, first))
    (written : HandshakeWritten begun)
    (run : runFrom (logged step handed) (begun, first) after = some (c, log)) :
    c.fault = none ∧
    (∃ done front,
      postedMessages start.posted ++ (before ++ after).flatMap IoEvent.given =
        done ++ (c.qMessagesOut ++ postedMessages c.posted) ∧
      log.filter WriteOp.ofMessage = done.flatMap writesOf ++ front ∧
      front <+: (c.qMessagesOut.take 1).flatMap writesOf ∧
      messageStream done <+: messageBytes c.sent) ∧
    (∃ more, log = first ++ more ∧ ∀ op ∈ more, op.ofMessage = true) ∧
    ((∀ index, .writeFail index ∉ before ++ after) →
      (c.qMessagesOut ≠ [] ↔ c.writing.length = 1)) ∧
    ∀ index later e more,
      runFrom (logged step handed) (c, log) (.writeFail index :: later) = some (e, more) →
        more = log ∧ messageBytes e.sent = messageBytes c.sent := by
  obtain ⟨writes, ⟨done, front, splits, ordered, progress, bytes⟩⟩ :=
    outputs_of_run begins (runFrom_trans handshake run)
  obtain ⟨stillWritten, onlyMessages⟩ := written.run run
  refine ⟨writes.noFault, ⟨done, front, splits, ordered, progress.isPart, bytes⟩, onlyMessages,
    ?_, ?_⟩
  · intro noFailure
    rw [← stillWritten.messageWrites_eq]
    exact progress.busy_iff fun ⟨index, member⟩ => noFailure index member
  · intro index later e more failing
    obtain ⟨next, taken, rest⟩ := runFrom_cons_eq_some failing
    obtain ⟨d, noted⟩ := next
    obtain ⟨moved, rfl⟩ := logged_eq_some taken
    have stalled := stalled_of_writeFail writes stillWritten.ended moved
    obtain ⟨sameWrites, sameBytes⟩ := stalled.run (writes.step moved) rest
    obtain ⟨-, extra, rfl, messages⟩ := stillWritten.run failing
    rw [handed_writeFail moved, List.append_nil, List.filter_append,
      List.filter_eq_self.mpr messages] at sameWrites
    rw [List.append_right_eq_self.mp sameWrites, List.append_nil, sameBytes]
    obtain ⟨-, acted⟩ := step_eq_some moved
    obtain ⟨op, -, -, rfl⟩ := act_writeFail acted
    exact ⟨rfl, rfl⟩

/-- The code is written. -/
def codeWritten : List (IoEvent CustomMsgTypes) := [.transfer 0 8, .writeDone 0]

/-- The connection and its log then. -/
def afterCode : Connection CustomMsgTypes × List WriteOp :=
  (runFrom (logged step handed) (welcomed, welcomed.writing) codeWritten).get (by decide)

/-- A message without a body. -/
def closeMsg : Message CustomMsgTypes := .ofType .closeClient

/-- The welcome and a message that is sent behind it are written. -/
def welcomeWritten : List (IoEvent CustomMsgTypes) :=
  [.runPosted, .transfer 0 8, .send closeMsg, .writeDone 0, .runPosted, .transfer 0 3,
    .transfer 0 1, .writeDone 0, .transfer 0 8, .writeDone 0]

def afterWelcome : Connection CustomMsgTypes × List WriteOp :=
  (runFrom (logged step handed) afterCode welcomeWritten).get (by decide)

theorem welcome_in_order :
    messageBytes afterWelcome.1.sent =
        messageStream [(Message.ofType .serverAccept).push (10000 : UInt32), closeMsg] ∧
      (afterWelcome.1.qMessagesOut ≠ [] ↔ afterWelcome.1.writing.length = 1) ∧
        ∃ (done : List (Message CustomMsgTypes)) (front : List WriteOp),
          afterWelcome.2.filter WriteOp.ofMessage = done.flatMap writesOf ++ front ∧
            messageStream done <+: messageBytes afterWelcome.1.sent := by
  have handshake : runFrom (logged step handed) (welcomed, welcomed.writing) codeWritten =
      some (afterCode.1, afterCode.2) := (Option.some_get (by decide)).symm
  have run : runFrom (logged step handed) (afterCode.1, afterCode.2) welcomeWritten =
      some (afterWelcome.1, afterWelcome.2) := (Option.some_get (by decide)).symm
  have written : HandshakeWritten afterCode.1 := ⟨rfl, by decide, nofun⟩
  obtain ⟨-, ⟨done, front, -, ordered, -, bytes⟩, -, busy, -⟩ :=
    writes_in_send_order (.accepted _ _ _) handshake written run
  exact ⟨by decide, busy (by simp [codeWritten, welcomeWritten]), done, front, ordered, bytes⟩

end Connection

end NetworkChat
