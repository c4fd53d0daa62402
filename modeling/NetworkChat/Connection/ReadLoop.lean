import NetworkChat.Connection.Handlers
import NetworkChat.Foundation.Framing

/-!
# The read loop

`ReadHeader`, `ReadBody` and `AddToIncomimgMessageQueue` call each other for ever
and share the one buffer `m_msgBuff`. A header that declares an empty body goes
to the queue at once, together with the body the buffer holds, which is that of
the last message that had one. `receive` is what the loop makes of a list of
frames.

`Reads` says where the loop is in the stream that follows the handshake: the
stream is the frames that were pushed, the header of a frame whose body is being
read, and the bytes not yet handled. Every event of the connection keeps it
(`Reads.step`), so how the stream was cut into pieces never shows.
-/

set_option autoImplicit false

namespace NetworkChat

open Foundation

variable {T : Type}

/-- The length of the body that a header declares. -/
def MessageHeader.declared (header : MessageHeader T) : ℕ := header.size.toNat

/-- The body that `m_msgBuff` holds after the loop has read the frames. -/
def bufferAfter : List UInt8 → List (Frame (MessageHeader T)) → List UInt8
  | buffer, [] => buffer
  | buffer, frame :: frames => bufferAfter (if frame.2 = [] then buffer else frame.2) frames

/-- The messages the loop pushes for the frames: an empty body is replaced by
what the buffer holds. -/
def receive : List UInt8 → List (Frame (MessageHeader T)) → List (Message T)
  | _, [] => []
  | buffer, frame :: frames =>
      let body := if frame.2 = [] then buffer else frame.2
      ⟨frame.1, body⟩ :: receive body frames

theorem receive_concat (buffer : List UInt8) (frames : List (Frame (MessageHeader T)))
    (frame : Frame (MessageHeader T)) :
    receive buffer (frames ++ [frame]) = receive buffer frames ++
      [⟨frame.1, if frame.2 = [] then bufferAfter buffer frames else frame.2⟩] := by
  induction frames generalizing buffer with
  | nil => rfl
  | cons first frames ih => simp only [List.cons_append, receive, bufferAfter, ih]

theorem bufferAfter_concat (buffer : List UInt8) (frames : List (Frame (MessageHeader T)))
    (frame : Frame (MessageHeader T)) :
    bufferAfter buffer (frames ++ [frame]) =
      if frame.2 = [] then bufferAfter buffer frames else frame.2 := by
  induction frames generalizing buffer with
  | nil => rfl
  | cons first frames ih => simp only [List.cons_append, bufferAfter, ih]

/-- The loop pushes one message for each frame, with the header of the frame. -/
theorem map_header_receive (buffer : List UInt8) (frames : List (Frame (MessageHeader T))) :
    (receive buffer frames).map Message.header = frames.map Prod.fst := by
  induction frames generalizing buffer with
  | nil => rfl
  | cons frame frames ih => simp only [receive, List.map_cons, ih]

theorem length_receive (buffer : List UInt8) (frames : List (Frame (MessageHeader T))) :
    (receive buffer frames).length = frames.length := by
  have headers := congrArg List.length (map_header_receive buffer frames)
  simpa only [List.length_map] using headers

theorem receive_append (buffer : List UInt8) (first second : List (Frame (MessageHeader T))) :
    receive buffer (first ++ second) =
      receive buffer first ++ receive (bufferAfter buffer first) second := by
  induction first generalizing buffer with
  | nil => rfl
  | cons frame first ih => simp only [List.cons_append, receive, bufferAfter, ih]

namespace Connection

/-- The bytes that have arrived and that no handler has seen. -/
def unread (c : Connection T) : List UInt8 :=
  (c.reading.bind ReadOp.data).getD [] ++ c.inbox

/-- The bytes an event brings. -/
def IoEvent.arrived : IoEvent T → List UInt8
  | .arrive piece => piece
  | _ => []

/-- No handshake step is left that would start a read: the connection is made,
and a client's own validation code is written. -/
structure HandshakeOver (c : Connection T) : Prop where
  connected : c.connecting = false
  replied : c.ownerType = .client → ∀ op ∈ c.writing, op.kind ≠ .validation

/-- The members the loop works on are the same, and no validation write is
new. -/
structure SameReads (c d : Connection T) : Prop where
  ownerType : d.ownerType = c.ownerType
  connecting : c.connecting = false → d.connecting = false
  reading : d.reading = c.reading
  inbox : d.inbox = c.inbox
  buffer : d.msgBuff = c.msgBuff
  queue : d.qMessagesIn = c.qMessagesIn
  writes : ∀ op ∈ d.writing, op.kind = .validation → ∃ old ∈ c.writing, old.kind = .validation

theorem HandshakeOver.congr {c d : Connection T} (isOver : HandshakeOver c)
    (ownerType : d.ownerType = c.ownerType)
    (connecting : c.connecting = false → d.connecting = false)
    (writes : ∀ op ∈ d.writing, op.kind = .validation →
      ∃ old ∈ c.writing, old.kind = .validation) : HandshakeOver d := by
  refine ⟨connecting isOver.connected, ?_⟩
  intro isClient op member isValidation
  obtain ⟨old, oldMember, oldValidation⟩ := writes op member isValidation
  exact isOver.replied (ownerType ▸ isClient) old oldMember oldValidation

theorem validation_kept (ops : List WriteOp) :
    ∀ op ∈ ops, op.kind = .validation → ∃ old ∈ ops, old.kind = .validation :=
  fun op member isValidation => ⟨op, member, isValidation⟩

/-- What the loop works on is the same, and so are the writes. -/
theorem SameReads.of_same {c d : Connection T} (ownerType : d.ownerType = c.ownerType)
    (connecting : d.connecting = c.connecting) (reading : d.reading = c.reading)
    (inbox : d.inbox = c.inbox) (buffer : d.msgBuff = c.msgBuff)
    (queue : d.qMessagesIn = c.qMessagesIn) (writing : d.writing = c.writing) : SameReads c d where
  ownerType := ownerType
  connecting made := connecting.trans made
  reading := reading
  inbox := inbox
  buffer := buffer
  queue := queue
  writes op member isValidation := ⟨op, writing ▸ member, isValidation⟩

theorem SameReads.refl (c : Connection T) : SameReads c c :=
  .of_same rfl rfl rfl rfl rfl rfl rfl

theorem SameReads.trans {c d e : Connection T} (first : SameReads c d) (second : SameReads d e) :
    SameReads c e where
  ownerType := second.ownerType.trans first.ownerType
  connecting made := second.connecting (first.connecting made)
  reading := second.reading.trans first.reading
  inbox := second.inbox.trans first.inbox
  buffer := second.buffer.trans first.buffer
  queue := second.queue.trans first.queue
  writes op member isValidation := by
    obtain ⟨middle, middleMember, middleValidation⟩ := second.writes op member isValidation
    exact first.writes middle middleMember middleValidation

/-- Starting to write a header or a body. -/
theorem SameReads.startWrite (c : Connection T) {kind : WriteKind} (bytes : List UInt8)
    (notValidation : kind ≠ .validation) : SameReads c (c.startWrite kind bytes) := by
  refine ⟨rfl, fun made => made, rfl, rfl, rfl, rfl, ?_⟩
  intro op member isValidation
  rcases List.mem_append.mp member with old | new
  · exact ⟨op, old, isValidation⟩
  · obtain rfl := List.mem_singleton.mp new
    exact absurd isValidation notValidation

theorem SameReads.eraseWrite (c : Connection T) (index : ℕ) :
    SameReads c { c with writing := c.writing.eraseIdx index } :=
  ⟨rfl, fun made => made, rfl, rfl, rfl, rfl,
    fun op member isValidation => ⟨op, List.mem_of_mem_eraseIdx member, isValidation⟩⟩

/-- Handing over the next bytes of a write. -/
theorem SameReads.transfer {c : Connection T} {index count : ℕ} {op : WriteOp}
    (found : c.writing[index]? = some op) :
    SameReads c { c with
      writing := c.writing.set index { op with rest := op.rest.drop count },
      sent := c.sent ++ tagged op.kind (op.rest.take count) } := by
  refine ⟨rfl, fun made => made, rfl, rfl, rfl, rfl, ?_⟩
  intro other member isValidation
  rcases List.mem_or_eq_of_mem_set member with old | rfl
  · exact ⟨other, old, isValidation⟩
  · exact ⟨op, List.mem_of_getElem? found, isValidation⟩

theorem SameReads.closeSocket (c : Connection T) : SameReads c c.closeSocket :=
  ⟨rfl, fun _ => rfl, rfl, rfl, rfl, rfl, validation_kept _⟩

theorem length_resizeVector (bytes : List UInt8) (length : ℕ) :
    (resizeVector bytes length).length = length := by
  rw [resizeVector, List.length_append, List.length_take, List.length_replicate]
  omega

theorem size_pos_iff (header : MessageHeader T) : 0 < header.size ↔ 0 < header.declared := by
  rw [UInt32.lt_iff_toNat_lt]
  rfl

variable [FullLayout T]

/-- Where the loop is: waiting for a header, waiting for a body, or ended by an
error. -/
inductive ReadPhase (c : Connection T) : List (Frame (MessageHeader T)) → List UInt8 → Prop where
  | header (frames : List (Frame (MessageHeader T))) (data : Option (List UInt8))
      (reading : c.reading = some ⟨.header, data⟩)
      (filled : ∀ bytes, data = some bytes → bytes.length = FixedLayout.size (MessageHeader T))
      (buffer : c.msgBuff.body = bufferAfter [] frames) :
      ReadPhase c frames (streamOf frames ++ c.unread)
  | body (frames : List (Frame (MessageHeader T))) (data : Option (List UInt8))
      (reading : c.reading = some ⟨.body, data⟩)
      (filled : ∀ bytes, data = some bytes → bytes.length = c.msgBuff.body.length)
      (nonempty : 0 < c.msgBuff.header.declared)
      (resized : c.msgBuff.body.length = c.msgBuff.header.declared) :
      ReadPhase c frames (streamOf frames ++ (toBytes c.msgBuff.header ++ c.unread))
  | ended (frames : List (Frame (MessageHeader T))) (rest : List UInt8)
      (reading : c.reading = none) : ReadPhase c frames (streamOf frames ++ rest)

/-- The loop has pushed what it makes of the complete frames, and stands behind
them in the stream. -/
structure Reads (stream : List UInt8) (c : Connection T) : Prop where
  isOver : HandshakeOver c
  stands : ∃ frames, (∀ frame ∈ frames, WellFramed MessageHeader.declared frame) ∧
    c.qMessagesIn = receive [] frames ∧ ReadPhase c frames stream

theorem Reads.congr {stream : List UInt8} {c d : Connection T} (reads : Reads stream c)
    (same : SameReads c d) : Reads stream d := by
  obtain ⟨isOver, frames, wellFramed, pushed, phase⟩ := reads
  refine ⟨isOver.congr same.ownerType same.connecting same.writes, frames, wellFramed,
    same.queue.trans pushed, ?_⟩
  have unread : d.unread = c.unread := by rw [Connection.unread, same.reading, same.inbox]; rfl
  cases phase with
  | header data reading filled buffer =>
      rw [← unread]
      exact .header frames data (same.reading.trans reading) filled (same.buffer ▸ buffer)
  | body data reading filled nonempty resized =>
      rw [← unread, ← same.buffer]
      rw [← same.buffer] at filled nonempty resized
      exact .body frames data (same.reading.trans reading) filled nonempty resized
  | ended rest reading => exact .ended frames rest (same.reading.trans reading)

/-! ## The handlers of the loop -/

/-- The handler of `ReadHeader` takes a header off the stream, and pushes it when
it declares no body. -/
theorem Reads.headerRead {frames : List (Frame (MessageHeader T))} {c : Connection T}
    {bytes : List UInt8} (isOver : HandshakeOver c)
    (wellFramed : ∀ frame ∈ frames, WellFramed MessageHeader.declared frame)
    (pushed : c.qMessagesIn = receive [] frames)
    (length : bytes.length = FixedLayout.size (MessageHeader T))
    (buffer : c.msgBuff.body = bufferAfter [] frames) :
    Reads (streamOf frames ++ (bytes ++ c.inbox)) (c.headerRead bytes) := by
  have written : toBytes (ofBytes bytes : MessageHeader T) = bytes :=
    FullLayout.toBytes_ofBytes bytes length
  have onStream : bytes ++ c.inbox = toBytes (ofBytes bytes : MessageHeader T) ++ c.inbox := by
    rw [written]
  rw [onStream]
  by_cases declares : 0 < (ofBytes bytes : MessageHeader T).size
  · simp only [Connection.headerRead, if_pos declares]
    refine ⟨⟨isOver.connected, isOver.replied⟩, frames, wellFramed, pushed, ?_⟩
    exact .body frames none rfl nofun ((size_pos_iff _).mp declares) (length_resizeVector _ _)
  · simp only [Connection.headerRead, if_neg declares]
    have empty : (ofBytes bytes : MessageHeader T).declared = 0 :=
      Nat.eq_zero_of_not_pos fun positive => declares ((size_pos_iff _).mpr positive)
    let frame : Frame (MessageHeader T) := (ofBytes bytes, [])
    have onStream : streamOf frames ++ (toBytes (ofBytes bytes : MessageHeader T) ++ c.inbox) =
        streamOf (frames ++ [frame]) ++ c.inbox := by
      simp [frame, frameBytes]
    rw [onStream]
    refine ⟨⟨isOver.connected, isOver.replied⟩, frames ++ [frame], ?_, ?_, ?_⟩
    · simpa [or_imp, forall_and, frame, WellFramed, empty] using wellFramed
    · rw [receive_concat, ← pushed]
      simp [frame, addToIncomimgMessageQueue, readHeader, startRead, buffer]
    · refine .header _ none rfl nofun ?_
      rw [bufferAfter_concat]
      exact buffer

/-- The handler of `ReadBody` takes a body off the stream and pushes its
message. -/
theorem Reads.bodyRead {frames : List (Frame (MessageHeader T))} {c : Connection T}
    {bytes : List UInt8} (isOver : HandshakeOver c)
    (wellFramed : ∀ frame ∈ frames, WellFramed MessageHeader.declared frame)
    (pushed : c.qMessagesIn = receive [] frames)
    (nonempty : 0 < c.msgBuff.header.declared)
    (length : bytes.length = c.msgBuff.header.declared) :
    Reads (streamOf frames ++ (toBytes c.msgBuff.header ++ (bytes ++ c.inbox)))
      (c.bodyRead bytes) := by
  let frame : Frame (MessageHeader T) := (c.msgBuff.header, bytes)
  have notEmpty : bytes ≠ [] := by
    rintro rfl
    exact absurd length.symm nonempty.ne'
  have onStream : streamOf frames ++ (toBytes c.msgBuff.header ++ (bytes ++ c.inbox)) =
      streamOf (frames ++ [frame]) ++ c.inbox := by
    simp [frame, frameBytes]
  rw [onStream]
  refine ⟨⟨isOver.connected, isOver.replied⟩, frames ++ [frame], ?_, ?_, ?_⟩
  · simp only [List.mem_append, List.mem_singleton, or_imp, forall_and, forall_eq]
    exact ⟨wellFramed, length⟩
  · rw [receive_concat, ← pushed, if_neg notEmpty]
    rfl
  · refine .header _ none rfl (by simp) ?_
    rw [bufferAfter_concat, if_neg notEmpty]
    rfl

/-! ## Steps -/

/-- Starting the next message, or stopping for want of one. -/
theorem SameReads.settle_writeHeader {c d : Connection T} (same : SameReads c d) :
    SameReads c (c.settle d.writeHeader) := by
  simp only [writeHeader]
  split
  · exact .of_same rfl rfl rfl rfl rfl rfl rfl
  · exact same.trans (SameReads.startWrite d _ (by decide))

theorem SameReads.settle_popAndContinue (c : Connection T) :
    SameReads c (c.settle c.popAndContinue) := by
  simp only [popAndContinue]
  split
  · exact .of_same rfl rfl rfl rfl rfl rfl rfl
  · split
    · exact .of_same rfl rfl rfl rfl rfl rfl rfl
    · exact SameReads.settle_writeHeader (.of_same rfl rfl rfl rfl rfl rfl rfl)

/-- The handlers of the write chain leave the loop alone. -/
theorem SameReads.settle_writeDone (c : Connection T) {kind : WriteKind}
    (notReply : c.ownerType = .client → kind ≠ .validation) :
    SameReads c (c.settle (c.writeDone kind)) := by
  cases kind with
  | validation =>
      simp only [Connection.writeDone, validationWritten]
      split
      · rename_i isClient
        exact absurd rfl (notReply isClient)
      · exact .of_same rfl rfl rfl rfl rfl rfl rfl
  | header =>
      simp only [Connection.writeDone, headerWritten]
      split
      · exact .of_same rfl rfl rfl rfl rfl rfl rfl
      · split
        · simp only [writeBody]
          split
          · exact .of_same rfl rfl rfl rfl rfl rfl rfl
          · exact SameReads.startWrite c _ (by decide)
        · exact SameReads.settle_popAndContinue c
  | body => exact SameReads.settle_popAndContinue c

theorem SameReads.settle_runLambda (c : Connection T) (lambda : Posted T) :
    SameReads c (c.settle (c.runLambda lambda)) := by
  cases lambda with
  | close => exact SameReads.closeSocket c
  | send msg =>
      simp only [runLambda, runSend]
      split
      · exact .of_same rfl rfl rfl rfl rfl rfl rfl
      · exact SameReads.settle_writeHeader (.of_same rfl rfl rfl rfl rfl rfl rfl)

/-- The event brings bytes, fills a read or ends one. -/
def IoEvent.feeds : IoEvent T → Prop
  | .arrive _ => True
  | .fill _ => True
  | .readDone => True
  | .readFail => True
  | _ => False

/-- Every event that brings no bytes and handles no read leaves the loop alone. -/
theorem SameReads.of_act {c d : Connection T} {event : IoEvent T} (isOver : HandshakeOver c)
    (taken : c.act event = some d) (notFed : ¬ event.feeds) : SameReads c d := by
  have notConnecting : ¬ c.connecting = true := by simp [isOver.connected]
  cases event with
  | arrive piece => exact absurd trivial notFed
  | fill count => exact absurd trivial notFed
  | readDone => exact absurd trivial notFed
  | readFail => exact absurd trivial notFed
  | send msg => cases taken; exact .of_same rfl rfl rfl rfl rfl rfl rfl
  | disconnect =>
      cases taken
      simp only [disconnect]
      split <;> exact .of_same rfl rfl rfl rfl rfl rfl rfl
  | socketOpened => exact absurd (act_socketOpened taken).1 notConnecting
  | connected => exact absurd (act_connected taken).1 notConnecting
  | connectFailed => exact absurd (act_connectFailed taken).1 notConnecting
  | runPosted =>
      obtain ⟨lambda, rest, -, rfl⟩ := act_runPosted taken
      have same := SameReads.settle_runLambda { c with posted := rest } lambda
      exact ⟨same.ownerType, same.connecting, same.reading, same.inbox, same.buffer, same.queue,
        same.writes⟩
  | transfer index count =>
      obtain ⟨op, found, -, -, -, rfl⟩ := act_transfer taken
      exact SameReads.transfer found
  | writeDone index =>
      obtain ⟨kind, found, rfl⟩ := act_writeDone taken
      refine (SameReads.eraseWrite c index).trans (SameReads.settle_writeDone _ ?_)
      intro isClient
      exact isOver.replied isClient _ (List.mem_of_getElem? found)
  | writeFail index =>
      obtain ⟨op, -, -, rfl⟩ := act_writeFail taken
      exact (SameReads.eraseWrite c index).trans (SameReads.closeSocket _)

/-- A piece that arrives is appended to the stream. -/
theorem Reads.arrive {stream : List UInt8} {c : Connection T} (reads : Reads stream c)
    (piece : List UInt8) : Reads (stream ++ piece) { c with inbox := c.inbox ++ piece } := by
  obtain ⟨isOver, frames, wellFramed, pushed, phase⟩ := reads
  refine ⟨⟨isOver.connected, isOver.replied⟩, frames, wellFramed, pushed, ?_⟩
  have unread : ({ c with inbox := c.inbox ++ piece }).unread = c.unread ++ piece :=
    (List.append_assoc _ _ _).symm
  cases phase with
  | header data reading filled buffer =>
      rw [List.append_assoc, ← unread]
      exact .header frames data reading filled buffer
  | body data reading filled nonempty resized =>
      rw [List.append_assoc, List.append_assoc, ← unread]
      exact .body (c := { c with inbox := c.inbox ++ piece }) frames data reading filled nonempty
        resized
  | ended rest reading =>
      rw [List.append_assoc]
      exact .ended frames (rest ++ piece) reading

/-- Filling the outstanding read moves no byte of the stream. -/
theorem Reads.fill {stream : List UInt8} {c : Connection T} {kind : ReadKind} {count : ℕ}
    (reads : Reads stream c) (pending : c.reading = some ⟨kind, none⟩)
    (may : c.mayFill count kind = true) (within : count ≤ c.inbox.length) :
    Reads stream { c with
      reading := some ⟨kind, some (c.inbox.take count)⟩, inbox := c.inbox.drop count } := by
  obtain ⟨isOver, frames, wellFramed, pushed, phase⟩ := reads
  let after : Connection T := { c with
    reading := some ⟨kind, some (c.inbox.take count)⟩, inbox := c.inbox.drop count }
  have unread : after.unread = c.unread := by simp [Connection.unread, pending, after]
  suffices moved : ReadPhase after frames stream from
    ⟨⟨isOver.connected, isOver.replied⟩, frames, wellFramed, pushed, moved⟩
  have length : (c.inbox.take count).length = count := by
    rw [List.length_take]
    omega
  cases phase with
  | header data reading filled buffer =>
      rw [pending] at reading
      cases reading
      rw [← unread]
      refine .header frames _ rfl ?_ buffer
      rintro bytes ⟨⟩
      exact length.trans (of_decide_eq_true may)
  | body data reading filled nonempty resized =>
      rw [pending] at reading
      cases reading
      rw [← unread]
      refine .body frames _ rfl ?_ nonempty resized
      rintro bytes ⟨⟩
      exact length.trans (of_decide_eq_true may)
  | ended rest reading =>
      rw [pending] at reading
      cases reading

/-- The handler of a filled read. -/
theorem Reads.readDone {stream : List UInt8} {c : Connection T} {kind : ReadKind}
    {bytes : List UInt8} (reads : Reads stream c) (full : c.reading = some ⟨kind, some bytes⟩) :
    Reads stream ({ c with reading := none }.readDone kind bytes) := by
  obtain ⟨isOver, frames, wellFramed, pushed, phase⟩ := reads
  let handled : Connection T := { c with reading := none }
  have isOver : HandshakeOver handled := ⟨isOver.connected, isOver.replied⟩
  have unread : c.unread = bytes ++ handled.inbox := by simp [Connection.unread, full, handled]
  cases phase with
  | header data reading filled buffer =>
      rw [full] at reading
      cases reading
      rw [unread]
      exact Reads.headerRead isOver wellFramed pushed (filled bytes rfl) buffer
  | body data reading filled nonempty resized =>
      rw [full] at reading
      cases reading
      rw [unread]
      have done := Reads.bodyRead isOver wellFramed pushed nonempty
        ((filled bytes rfl).trans resized)
      exact done
  | ended rest reading =>
      rw [full] at reading
      cases reading

/-- **Every event keeps the place of the loop in the stream.** -/
theorem Reads.step {stream : List UInt8} {c d : Connection T} {event : IoEvent T}
    (reads : Reads stream c) (taken : c.step event = some d) :
    Reads (stream ++ event.arrived) d := by
  obtain ⟨-, taken⟩ := step_eq_some taken
  cases event with
  | arrive piece =>
      obtain ⟨-, rfl⟩ := act_arrive taken
      exact reads.arrive piece
  | fill count =>
      obtain ⟨kind, pending, -, may, within, rfl⟩ := act_fill taken
      change Reads (stream ++ []) _
      rw [List.append_nil]
      exact reads.fill pending may within
  | readDone =>
      obtain ⟨kind, bytes, full, rfl⟩ := act_readDone taken
      change Reads (stream ++ []) _
      rw [List.append_nil]
      exact reads.readDone full
  | readFail =>
      obtain ⟨kind, pending, rfl⟩ := act_readFail taken
      change Reads (stream ++ []) _
      rw [List.append_nil]
      obtain ⟨isOver, frames, wellFramed, pushed, phase⟩ := reads
      obtain ⟨rest, rfl⟩ : ∃ rest, stream = streamOf frames ++ rest := by
        cases phase <;> exact ⟨_, rfl⟩
      exact ⟨⟨rfl, isOver.replied⟩, frames, wellFramed, pushed, .ended frames rest rfl⟩
  | _ =>
      change Reads (stream ++ []) d
      rw [List.append_nil]
      exact reads.congr (SameReads.of_act reads.isOver taken not_false)

end Connection

end NetworkChat
