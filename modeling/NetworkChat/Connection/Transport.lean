import NetworkChat.Connection.WriteChain
import NetworkChat.Connection.ReadLoop

/-!
# Two connections and the bytes between them

A `Link` is the direction from one connection to its peer after the handshake: the
sender, the bytes on their way and the receiver. TCP keeps the order of the bytes
and hands them over in pieces of any size; nothing fails.

The link carries what `Send` was given (`Carries`): the sender's account of its
writes and the receiver's place in the stream meet in the bytes on their way. Once
nothing is left to do, the receiver has pushed what its loop makes of the frames
(`Carries.delivered`), and that is what was sent exactly when no message with
an empty body comes after one that has a body (`receive_eq_iff`).
-/

set_option autoImplicit false

namespace NetworkChat

open Foundation

variable {T : Type}

/-! ## What the loop makes of the frames sent -/

/-- No message with an empty body comes after one that has a body. -/
def EmptyBodiesFirst (msgs : List (Message T)) : Prop :=
  msgs.Pairwise fun earlier later => later.body = [] → earlier.body = []

instance (msgs : List (Message T)) : Decidable (EmptyBodiesFirst msgs) := by
  unfold EmptyBodiesFirst
  infer_instance

/-- **The loop pushes what was sent exactly when every empty body meets an empty
buffer.** -/
theorem receive_map_frame_eq_iff (buffer : List UInt8) (msgs : List (Message T)) :
    receive buffer (msgs.map Message.frame) = msgs ↔
      (∀ msg ∈ msgs, msg.body = [] → buffer = []) ∧ EmptyBodiesFirst msgs := by
  induction msgs generalizing buffer with
  | nil => simp [receive, EmptyBodiesFirst]
  | cons msg msgs ih =>
      have head : (if msg.body = [] then buffer else msg.body) = msg.body ↔
          (msg.body = [] → buffer = []) := by
        by_cases empty : msg.body = [] <;> simp [empty]
      simp only [List.map_cons, receive, Message.frame, List.cons.injEq, EmptyBodiesFirst,
        List.pairwise_cons, List.forall_mem_cons]
      rw [show (⟨msg.header, if msg.body = [] then buffer else msg.body⟩ : Message T) = msg ↔
        (msg.body = [] → buffer = []) from by rw [← head]; cases msg; simp]
      constructor
      · rintro ⟨first, rest⟩
        rw [head.mpr first] at rest
        obtain ⟨laterEmpty, ordered⟩ := (ih msg.body).mp rest
        exact ⟨⟨first, fun later member empty => first (laterEmpty later member empty)⟩,
          laterEmpty, ordered⟩
      · rintro ⟨⟨first, -⟩, laterEmpty, ordered⟩
        refine ⟨first, ?_⟩
        rw [head.mpr first]
        exact (ih msg.body).mpr ⟨laterEmpty, ordered⟩

/-- From an empty buffer, the order of the empty bodies decides. -/
theorem receive_eq_iff (msgs : List (Message T)) :
    receive [] (msgs.map Message.frame) = msgs ↔ EmptyBodiesFirst msgs := by
  simp [receive_map_frame_eq_iff]

/-- Messages whose headers declare their bodies are frames. -/
theorem wellFramed_of_framed {msgs : List (Message T)} (framed : ∀ msg ∈ msgs, msg.Framed) :
    ∀ frame ∈ msgs.map Message.frame, WellFramed MessageHeader.declared frame := by
  intro frame member
  obtain ⟨msg, isMessage, rfl⟩ := List.mem_map.mp member
  exact (framed msg isMessage).symm

namespace Connection

/-! ## A connection after the handshake -/

/-- The event is no error, no closing and no part of the handshake. -/
def IoEvent.smooth : IoEvent T → Bool
  | .disconnect => false
  | .socketOpened => false
  | .connected => false
  | .connectFailed => false
  | .readFail => false
  | .writeFail _ => false
  | _ => true

variable [FullLayout T]

/-- The handshake has just ended: the connection waits for its first header and
nothing was given to `Send`. -/
structure HandshakeDone (c : Connection T) : Prop where
  noFault : c.fault = none
  isOpen : c.isOpen = true
  connecting : c.connecting = false
  queueOut : c.qMessagesOut = []
  posted : c.posted = []
  writing : c.writing = []
  sent : messageBytes c.sent = []
  reading : c.reading = some ⟨.header, none⟩
  inbox : c.inbox = []
  buffer : c.msgBuff.body = []
  queueIn : c.qMessagesIn = []

/-- The connection is open, writes what it was given and reads its stream. -/
structure Running (given : List (Message T)) (stream : List UInt8) (c : Connection T) : Prop where
  writes : WriteInvariant given c
  reads : Reads stream c
  isOpen : c.isOpen = true
  looping : c.reading.isSome = true
  noClose : ∀ lambda ∈ c.posted, lambda ≠ .close
  ofMessages : ∀ op ∈ c.writing, op.ofMessage = true

theorem HandshakeDone.running {c : Connection T} (done : HandshakeDone c) : Running [] [] c where
  writes := by
    refine ⟨done.noFault, [], [], ?_, ?_, ?_⟩
    · rw [done.queueOut, done.posted]
      rfl
    · rw [done.queueOut, messageWrites, done.writing]
      exact .idle
    · rw [done.queueOut, done.sent]
      rfl
  reads := by
    refine ⟨⟨done.connecting, by simp [done.writing]⟩, [], by simp, done.queueIn, ?_⟩
    have phase := ReadPhase.header (c := c) [] none done.reading (by simp) done.buffer
    simpa [unread, done.reading, done.inbox] using phase
  isOpen := done.isOpen
  looping := by simp [done.reading]
  noClose := by simp [done.posted]
  ofMessages := by simp [done.writing]

/-- The socket and the lambdas are the same, nothing was handed over and no
validation write is new. -/
structure SameSocket (c d : Connection T) : Prop where
  isOpen : d.isOpen = c.isOpen
  posted : d.posted = c.posted
  sent : d.sent = c.sent
  writes : ∀ op ∈ d.writing, op ∈ c.writing ∨ op.ofMessage = true

omit [FullLayout T] in
theorem SameSocket.settle_error (c : Connection T) (fault : Fault) :
    SameSocket c (c.settle (.error fault)) :=
  ⟨rfl, rfl, rfl, fun _ member => .inl member⟩

omit [FullLayout T] in
theorem SameSocket.startWrite (c : Connection T) {kind : WriteKind}
    (ofMessage : kind.ofMessage = true) (bytes : List UInt8) :
    SameSocket c (c.startWrite kind bytes) := by
  refine ⟨rfl, rfl, rfl, ?_⟩
  intro op member
  rcases List.mem_append.mp member with old | new
  · exact .inl old
  · obtain rfl := List.mem_singleton.mp new
    exact .inr ofMessage

theorem SameSocket.settle_writeHeader {c d : Connection T} (same : SameSocket c d) :
    SameSocket c (c.settle d.writeHeader) := by
  simp only [writeHeader]
  split
  · exact SameSocket.settle_error c _
  · have started := SameSocket.startWrite d (rfl : WriteKind.header.ofMessage = true)
    exact ⟨same.isOpen, same.posted, same.sent, fun op member =>
      ((started _).writes op member).elim (same.writes op) .inr⟩

theorem SameSocket.settle_popAndContinue (c : Connection T) :
    SameSocket c (c.settle c.popAndContinue) := by
  simp only [popAndContinue]
  split
  · exact SameSocket.settle_error c _
  · split
    · exact ⟨rfl, rfl, rfl, fun _ member => .inl member⟩
    · exact SameSocket.settle_writeHeader ⟨rfl, rfl, rfl, fun _ member => .inl member⟩

theorem SameSocket.settle_runSend (c : Connection T) (msg : Message T) :
    SameSocket c (c.settle (c.runLambda (.send msg))) := by
  simp only [runLambda, runSend]
  split
  · exact ⟨rfl, rfl, rfl, fun _ member => .inl member⟩
  · exact SameSocket.settle_writeHeader ⟨rfl, rfl, rfl, fun _ member => .inl member⟩

/-- The handlers of writes of messages. -/
theorem SameSocket.settle_writeDone (c : Connection T) {kind : WriteKind}
    (ofMessage : kind.ofMessage = true) : SameSocket c (c.settle (c.writeDone kind)) := by
  cases kind with
  | validation => cases ofMessage
  | body => exact SameSocket.settle_popAndContinue c
  | header =>
      simp only [Connection.writeDone, headerWritten]
      split
      · exact SameSocket.settle_error c _
      · split
        · simp only [writeBody]
          split
          · exact SameSocket.settle_error c _
          · exact SameSocket.startWrite c rfl _
        · exact SameSocket.settle_popAndContinue c

/-- The handlers of the read loop. -/
theorem SameSocket.readDone (c : Connection T) {kind : ReadKind} (bytes : List UInt8)
    (inLoop : kind ≠ .validation) :
    SameSocket c (c.readDone kind bytes) ∧ (c.readDone kind bytes).reading.isSome = true := by
  cases kind with
  | validation => exact absurd rfl inLoop
  | body => exact ⟨⟨rfl, rfl, rfl, fun _ member => .inl member⟩, rfl⟩
  | header =>
      simp only [Connection.readDone, headerRead]
      split <;> exact ⟨⟨rfl, rfl, rfl, fun _ member => .inl member⟩, rfl⟩

/-- The loop never reads a validation code. -/
theorem Reads.inLoop {stream : List UInt8} {c : Connection T} {op : ReadOp}
    (reads : Reads stream c) (reading : c.reading = some op) : op.kind ≠ .validation := by
  obtain ⟨-, frames, -, -, phase⟩ := reads
  cases phase with
  | header _ same => rw [same] at reading; cases reading; nofun
  | body _ same => rw [same] at reading; cases reading; nofun
  | ended _ same => rw [same] at reading; cases reading

/-- What a running connection does to its socket in a smooth event. -/
structure Continues (c d : Connection T) : Prop where
  isOpen : d.isOpen = true
  looping : d.reading.isSome = true
  noClose : ∀ lambda ∈ d.posted, lambda ≠ .close
  ofMessages : ∀ op ∈ d.writing, op.ofMessage = true
  handedOver : ∃ bytes, d.sent = c.sent ++ bytes ∧ ∀ byte ∈ bytes, byte.1.ofMessage = true

theorem Continues.of_same {given : List (Message T)} {stream : List UInt8} {c d : Connection T}
    (running : Running given stream c) (isOpen : d.isOpen = c.isOpen)
    (looping : d.reading.isSome = true) (posted : ∀ lambda ∈ d.posted, lambda ≠ .close)
    (sent : d.sent = c.sent) (writes : ∀ op ∈ d.writing, op ∈ c.writing ∨ op.ofMessage = true) :
    Continues c d where
  isOpen := isOpen.trans running.isOpen
  looping := looping
  noClose := posted
  ofMessages op member := (writes op member).elim (running.ofMessages op) fun made => made
  handedOver := ⟨[], by rw [sent, List.append_nil], by simp⟩

theorem Running.continues {given : List (Message T)} {stream : List UInt8} {c d : Connection T}
    {event : IoEvent T} (running : Running given stream c) (smooth : event.smooth = true)
    (taken : c.act event = some d) : Continues c d := by
  cases event with
  | disconnect => cases smooth
  | socketOpened => cases smooth
  | connected => cases smooth
  | connectFailed => cases smooth
  | readFail => cases smooth
  | writeFail index => cases smooth
  | send msg =>
      cases taken
      refine .of_same running rfl running.looping ?_ rfl fun _ member => .inl member
      intro lambda member
      rcases List.mem_append.mp member with old | new
      · exact running.noClose lambda old
      · obtain rfl := List.mem_singleton.mp new
        nofun
  | runPosted =>
      obtain ⟨lambda, rest, posted, rfl⟩ := act_runPosted taken
      have kept : ∀ lambda ∈ rest, lambda ≠ .close := fun lambda member =>
        running.noClose lambda (posted ▸ List.mem_cons_of_mem _ member)
      cases lambda with
      | close => exact absurd rfl (running.noClose .close (posted ▸ List.mem_cons_self))
      | send msg =>
          have same := SameSocket.settle_runSend { c with posted := rest } msg
          have reading := (SameReads.settle_runLambda { c with posted := rest } (.send msg)).reading
          exact .of_same running same.isOpen (by rw [reading]; exact running.looping)
            (by rw [same.posted]; exact kept) same.sent same.writes
  | arrive piece =>
      obtain ⟨-, rfl⟩ := act_arrive taken
      exact .of_same running rfl running.looping running.noClose rfl fun _ member => .inl member
  | fill count =>
      obtain ⟨kind, -, -, -, -, rfl⟩ := act_fill taken
      exact .of_same running rfl rfl running.noClose rfl fun _ member => .inl member
  | readDone =>
      obtain ⟨kind, bytes, full, rfl⟩ := act_readDone taken
      obtain ⟨same, looping⟩ := SameSocket.readDone { c with reading := none } bytes
        (running.reads.inLoop full)
      exact .of_same running same.isOpen looping (by rw [same.posted]; exact running.noClose)
        same.sent same.writes
  | transfer index count =>
      obtain ⟨op, found, -, -, -, rfl⟩ := act_transfer taken
      have ofMessage := running.ofMessages op (List.mem_of_getElem? found)
      refine ⟨running.isOpen, running.looping, running.noClose, ?_, _, rfl, ?_⟩
      · intro other member
        rcases List.mem_or_eq_of_mem_set member with old | rfl
        · exact running.ofMessages other old
        · exact ofMessage
      · intro byte member
        obtain ⟨_, _, rfl⟩ := List.mem_map.mp member
        exact ofMessage
  | writeDone index =>
      obtain ⟨kind, found, rfl⟩ := act_writeDone taken
      have ofMessage := running.ofMessages _ (List.mem_of_getElem? found)
      have notReply : c.ownerType = .client → kind ≠ .validation := by
        rintro - rfl
        cases ofMessage
      have same := SameSocket.settle_writeDone { c with writing := c.writing.eraseIdx index }
        ofMessage
      have reading := (SameReads.settle_writeDone { c with writing := c.writing.eraseIdx index }
        notReply).reading
      refine .of_same running same.isOpen (by rw [reading]; exact running.looping)
        (by rw [same.posted]; exact running.noClose) same.sent ?_
      exact fun op member => (same.writes op member).imp_left List.mem_of_mem_eraseIdx

/-- When no write goes on, everything given is handed over. -/
theorem Running.all_written {given : List (Message T)} {stream : List UInt8} {c : Connection T}
    (running : Running given stream c) (lambdas : c.step .runPosted = none)
    (transfers : ∀ index count, c.step (.transfer index count) = none)
    (ends : ∀ index, c.step (.writeDone index) = none) :
    messageBytes c.sent = messageStream given := by
  obtain ⟨noFault, written, remaining, splits, chain, bytes⟩ := running.writes
  have noLambda : c.posted = [] := by
    cases posted : c.posted with
    | nil => rfl
    | cons lambda rest => simp [Connection.step, noFault, act, posted] at lambdas
  have noWrite : c.writing = [] := by
    cases writing : c.writing with
    | nil => rfl
    | cons op ops =>
        obtain ⟨kind, rest⟩ := op
        cases rest with
        | nil =>
            have ended := ends 0
            simp [Connection.step, noFault, act, writing] at ended
        | cons byte rest =>
            have moved := transfers 0 1
            simp [Connection.step, noFault, act, writing, running.isOpen] at moved
  rw [messageWrites, noWrite, List.filter_nil] at chain
  rw [noLambda] at splits
  cases queue : c.qMessagesOut with
  | nil =>
      rw [queue] at chain bytes splits
      cases chain
      simp only [splits, postedMessages, List.filterMap_nil, List.append_nil] at bytes ⊢
      exact bytes.symm
  | cons msg later =>
      rw [queue] at chain
      cases chain with
      | failed _ _ _ isDown => exact absurd (running.isOpen.symm.trans isDown.1) (by decide)

/-- When the loop waits for bytes that have not arrived, it has pushed what it
makes of all complete frames of its stream. -/
theorem Reads.parses_of_starved {stream : List UInt8} {c : Connection T} (reads : Reads stream c)
    (noFault : c.fault = none) (isOpen : c.isOpen = true) (looping : c.reading.isSome = true)
    (fills : ∀ count, c.step (.fill count) = none) (handler : c.step .readDone = none) :
    ∃ frames rest, Parses MessageHeader.declared stream frames rest ∧
      c.qMessagesIn = receive [] frames := by
  obtain ⟨-, frames, wellFramed, pushed, phase⟩ := reads
  cases phase with
  | header data reading filled buffer =>
      cases data with
      | some bytes => simp [Connection.step, noFault, act, reading] at handler
      | none =>
          refine ⟨frames, _, ⟨wellFramed, rfl, .inl ?_⟩, pushed⟩
          have starved := fills (FixedLayout.size (MessageHeader T))
          simp only [Connection.step, noFault, act, reading, isOpen, mayFill] at starved
          simpa [unread, reading] using starved
  | body data reading filled nonempty resized =>
      cases data with
      | some bytes => simp [Connection.step, noFault, act, reading] at handler
      | none =>
          refine ⟨frames, _, ⟨wellFramed, rfl, .inr ?_⟩, pushed⟩
          have starved := fills c.msgBuff.body.length
          simp only [Connection.step, noFault, act, reading, isOpen, mayFill] at starved
          rw [List.take_left' (FixedLayout.length_toBytes _), FixedLayout.ofBytes_toBytes,
            List.length_append, FixedLayout.length_toBytes, ← resized]
          simpa [unread, reading] using starved
  | ended rest reading => simp [reading] at looping

/-- **A running connection goes on running through every smooth event.** -/
theorem Running.step {given : List (Message T)} {stream : List UInt8} {c d : Connection T}
    {event : IoEvent T} (running : Running given stream c) (smooth : event.smooth = true)
    (taken : c.step event = some d) :
    Running (given ++ event.given) (stream ++ event.arrived) d := by
  have continues := running.continues smooth (step_eq_some taken).2
  exact ⟨running.writes.step taken, running.reads.step taken, continues.isOpen, continues.looping,
    continues.noClose, continues.ofMessages⟩

end Connection

/-! ## The link -/

/-- One direction of a TCP connection after the handshake. -/
structure Link (T : Type) where
  sender : Connection T
  /-- The bytes handed to the network and not yet delivered. -/
  inFlight : List UInt8
  receiver : Connection T
  deriving DecidableEq, Repr

namespace Link

/-- What may happen on the link: an event of the sender, one of the receiver, or
the arrival of the next bytes at the receiver. The pieces that arrive at the
sender come from the other direction and may be any. -/
inductive Event (T : Type) where
  | sender (event : Connection.IoEvent T)
  | receiver (event : Connection.IoEvent T)
  | deliver (count : ℕ)
  deriving DecidableEq, Repr

/-- The event brings bytes from the network. -/
def isArrival : Connection.IoEvent T → Bool
  | .arrive _ => true
  | _ => false

/-- The messages an event gives to `Send` of the sender. -/
def Event.given : Event T → List (Message T)
  | .sender event => event.given
  | .receiver _ => []
  | .deliver _ => []

/-- The messages given to `Send` of the sender, in order. -/
def givenBy (events : List (Event T)) : List (Message T) := events.flatMap Event.given

/-- The event carries on what was begun: nothing new is given to `Send`, and
nothing arrives from outside the link. -/
def Event.progress : Event T → Bool
  | .sender .runPosted => true
  | .sender (.transfer _ _) => true
  | .sender (.writeDone _) => true
  | .deliver _ => true
  | .receiver (.fill _) => true
  | .receiver .readDone => true
  | _ => false

variable [FullLayout T]

/-- One step. Only smooth events happen, and the bytes the sender hands over are
the ones that arrive at the receiver. -/
def step (link : Link T) : Event T → Option (Link T)
  | .sender event =>
      if event.smooth then
        (link.sender.step event).map fun sender =>
          let handedOver := sender.sent.drop link.sender.sent.length
          { link with sender, inFlight := link.inFlight ++ handedOver.map Prod.snd }
      else none
  | .receiver event =>
      if event.smooth && !isArrival event then
        (link.receiver.step event).map fun receiver => { link with receiver }
      else none
  | .deliver count =>
      if 0 < count ∧ count ≤ link.inFlight.length then
        (link.receiver.step (.arrive (link.inFlight.take count))).map fun receiver =>
          { link with receiver, inFlight := link.inFlight.drop count }
      else none

/-- Both ends have just ended their handshake and no byte is on its way. -/
structure Fresh (link : Link T) : Prop where
  sender : Connection.HandshakeDone link.sender
  receiver : Connection.HandshakeDone link.receiver
  inFlight : link.inFlight = []

/-- **The invariant of a link.** What the receiver has seen, followed by what is on
its way, is what the sender handed over. -/
structure Carries (given : List (Message T)) (link : Link T) : Prop where
  sender : ∃ stream, Connection.Running given stream link.sender
  receiver : ∃ answers stream, Connection.Running answers stream link.receiver ∧
    messageBytes link.sender.sent = stream ++ link.inFlight

theorem Fresh.carries {link : Link T} (fresh : Fresh link) : Carries [] link where
  sender := ⟨[], fresh.sender.running⟩
  receiver := ⟨[], [], fresh.receiver.running, by rw [fresh.sender.sent, fresh.inFlight]; rfl⟩

/-! ## Inversion -/

theorem step_sender {link next : Link T} {event : Connection.IoEvent T}
    (taken : link.step (.sender event) = some next) :
    ∃ sender, event.smooth = true ∧ link.sender.step event = some sender ∧
      next = { link with
        sender, inFlight := link.inFlight ++
          (sender.sent.drop link.sender.sent.length).map Prod.snd } := by
  simp only [step] at taken
  split at taken
  case isTrue smooth =>
    obtain ⟨sender, moved, rfl⟩ := Option.map_eq_some_iff.mp taken
    exact ⟨sender, smooth, moved, rfl⟩
  case isFalse => cases taken

theorem step_receiver {link next : Link T} {event : Connection.IoEvent T}
    (taken : link.step (.receiver event) = some next) :
    ∃ receiver, event.smooth = true ∧ isArrival event = false ∧
      link.receiver.step event = some receiver ∧ next = { link with receiver } := by
  simp only [step] at taken
  split at taken
  case isTrue allowed =>
    rw [Bool.and_eq_true, Bool.not_eq_true'] at allowed
    obtain ⟨receiver, moved, rfl⟩ := Option.map_eq_some_iff.mp taken
    exact ⟨receiver, allowed.1, allowed.2, moved, rfl⟩
  case isFalse => cases taken

theorem step_deliver {link next : Link T} {count : ℕ}
    (taken : link.step (.deliver count) = some next) :
    ∃ receiver, 0 < count ∧ count ≤ link.inFlight.length ∧
      link.receiver.step (.arrive (link.inFlight.take count)) = some receiver ∧
      next = { link with receiver, inFlight := link.inFlight.drop count } := by
  simp only [step] at taken
  split at taken
  case isTrue allowed =>
    obtain ⟨receiver, moved, rfl⟩ := Option.map_eq_some_iff.mp taken
    exact ⟨receiver, allowed.1, allowed.2, moved, rfl⟩
  case isFalse => cases taken

/-! ## The invariant is kept -/

omit [FullLayout T] in
theorem arrived_eq_nil {event : Connection.IoEvent T} (notArrival : isArrival event = false) :
    event.arrived = [] := by
  cases event with
  | arrive piece => cases notArrival
  | _ => rfl

omit [FullLayout T] in
/-- Bytes of messages are all that a running sender puts on the link. -/
theorem messageBytes_eq_map {bytes : List (WriteKind × UInt8)}
    (ofMessages : ∀ byte ∈ bytes, byte.1.ofMessage = true) :
    messageBytes bytes = bytes.map Prod.snd := by
  rw [messageBytes, List.filter_eq_self.mpr ofMessages]

/-- **Every step of the link carries on what was given.** -/
theorem Carries.step {given : List (Message T)} {link next : Link T} {event : Event T}
    (carries : Carries given link) (taken : link.step event = some next) :
    Carries (given ++ event.given) next := by
  obtain ⟨⟨incoming, sender⟩, answers, stream, receiver, meet⟩ := carries
  cases event with
  | sender event =>
      obtain ⟨moved, smooth, moves, rfl⟩ := step_sender taken
      refine ⟨⟨_, sender.step smooth moves⟩, answers, stream, receiver, ?_⟩
      obtain ⟨bytes, sent, ofMessages⟩ :=
        (sender.continues smooth (Connection.step_eq_some moves).2).handedOver
      simp only [sent, List.drop_left, messageBytes_append, meet, messageBytes_eq_map ofMessages,
        List.append_assoc]
  | receiver event =>
      obtain ⟨moved, smooth, notArrival, moves, rfl⟩ := step_receiver taken
      have running := receiver.step smooth moves
      rw [arrived_eq_nil notArrival, List.append_nil] at running
      refine ⟨⟨incoming, ?_⟩, answers ++ event.given, stream, running, meet⟩
      rwa [Event.given, List.append_nil]
  | deliver count =>
      obtain ⟨moved, -, -, moves, rfl⟩ := step_deliver taken
      refine ⟨⟨incoming, ?_⟩, answers ++ [], _, receiver.step rfl moves, ?_⟩
      · rwa [Event.given, List.append_nil]
      · simp only [Connection.IoEvent.arrived, List.append_assoc, List.take_append_drop]
        exact meet

/-- **Every run carries what was given before, and then what it is given.** -/
theorem Carries.run {before : List (Message T)} {start final : Link T} {events : List (Event T)}
    (begun : Carries before start) (run : runFrom Link.step start events = some final) :
    Carries (before ++ givenBy events) final := by
  let carried (past : List (Event T)) (link : Link T) : Prop :=
    Carries (before ++ givenBy past) link
  have keeps : ∀ past link event next, carried past link → Link.step link event = some next →
      carried (past ++ [event]) next := by
    intro past link event next carries taken
    simpa [carried, givenBy] using carries.step taken
  have begins : carried [] start := by simpa [carried, givenBy] using begun
  exact history_invariant_of_run keeps begins run

/-! ## When nothing is left to do -/

/-- **What was given has arrived once nothing is left to do**: the receiver has
pushed what its loop makes of the frames sent. -/
theorem Carries.delivered {given : List (Message T)} {link : Link T}
    (carries : Carries given link) (framed : ∀ msg ∈ given, msg.Framed)
    (exhausted : Exhausted Link.step (fun event => event.progress = true) link) :
    link.receiver.qMessagesIn = receive [] (given.map Message.frame) := by
  obtain ⟨⟨incoming, sender⟩, answers, stream, receiver, meet⟩ := carries
  have stopped : ∀ {event : Connection.IoEvent T}, event.smooth = true →
      (Event.sender event).progress = true → link.sender.step event = none := by
    intro event smooth progress
    have refused := exhausted (.sender event) progress
    simpa [Link.step, smooth] using refused
  have handedOver : messageBytes link.sender.sent = messageStream given :=
    sender.all_written (stopped rfl rfl) (fun _ _ => stopped rfl rfl) fun _ => stopped rfl rfl
  have noneInFlight : link.inFlight = [] := by
    cases inFlight : link.inFlight with
    | nil => rfl
    | cons byte bytes =>
        have refused := exhausted (.deliver 1) rfl
        simp [Link.step, inFlight, Connection.step, receiver.writes.noFault, Connection.act,
          receiver.isOpen] at refused
  have waiting : ∀ {event : Connection.IoEvent T}, event.smooth = true → isArrival event = false →
      (Event.receiver event).progress = true → link.receiver.step event = none := by
    intro event smooth notArrival progress
    have refused := exhausted (.receiver event) progress
    simpa [Link.step, smooth, notArrival] using refused
  obtain ⟨frames, rest, parses, pushed⟩ := receiver.reads.parses_of_starved
    receiver.writes.noFault receiver.isOpen receiver.looping
    (fun _ => waiting rfl rfl rfl) (waiting rfl rfl rfl)
  have whole : stream = messageStream given := by
    rw [← handedOver, meet, noneInFlight, List.append_nil]
  rw [whole] at parses
  have positive : 0 < FixedLayout.size (MessageHeader T) := Nat.succ_pos _
  have same := (parses.unique (parses_stream positive (wellFramed_of_framed framed))).1
  rw [pushed, same]

end Link

end NetworkChat
