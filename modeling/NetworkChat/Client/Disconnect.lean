import NetworkChat.Chat.Client
import NetworkChat.Connection.Output
import NetworkChat.Connection.Transport

/-!
# Disconnecting a client

`client_interface::Disconnect` (`net_client.h`) posts the close of the socket, and then stops the
`io_context` and joins its thread. What `Send` was given before is written by handlers of that
thread, one for each header and body, and the close is a handler as well. What has not run when the
context is stopped does not run any more.

A call looks at the socket and posts; a handler that runs in between commutes with the post, so each
call is one step. The step of `m_context.stop()` stands behind the last handler that runs.

`disconnect_delivers_iff` says for which schedules the messages are not lost and the socket is
closed when `Disconnect` returns.
-/

set_option autoImplicit false

namespace NetworkChat

open Foundation

variable {T : Type}

namespace Connection

/-- The event belongs to the `io_context` and the network. -/
def IoEvent.ofContext : IoEvent T → Bool
  | .send _ => false
  | .disconnect => false
  | _ => true

/-- An operation on the socket ends with an error. -/
def IoEvent.fails : IoEvent T → Bool
  | .readFail => true
  | .writeFail _ => true
  | _ => false

variable [FullLayout T]

/-- What a step of a client's connection does to the socket and to the posted lambdas. -/
inductive SocketStep (c d : Connection T) (event : IoEvent T) : Prop where
  | goesOn (notRun : event ≠ .runPosted) (notFails : event.fails = false)
      (posted : d.posted = c.posted) (isOpen : c.connecting = false → d.isOpen = c.isOpen)
      (still : c.isOpen = false → d.sent = c.sent)
  | sends (msg : Message T) (isRun : event = .runPosted) (posted : c.posted = .send msg :: d.posted)
      (isOpen : d.isOpen = c.isOpen) (sent : d.sent = c.sent)
  | closes (isRun : event = .runPosted) (posted : c.posted = .close :: d.posted)
      (isClosed : d.isOpen = false) (sent : d.sent = c.sent)
  | failed (isFailure : event.fails = true) (posted : d.posted = c.posted)
      (isClosed : d.isOpen = false) (sent : d.sent = c.sent)

omit [FullLayout T] in
/-- The handlers of the write chain leave the socket alone. -/
theorem OnlyWrites.socket {c d : Connection T} (only : OnlyWrites c d) :
    d.ownerType = c.ownerType ∧ d.posted = c.posted ∧ d.isOpen = c.isOpen ∧ d.sent = c.sent := by
  obtain ⟨queue, writing, fault, -, rfl⟩ := only
  exact ⟨rfl, rfl, rfl, rfl⟩

theorem socketStep_of_step {c d : Connection T} {event : IoEvent T}
    (isClient : c.ownerType = .client)
    (ofContext : event.ofContext = true) (taken : c.step event = some d) :
    d.ownerType = .client ∧ SocketStep c d event := by
  obtain ⟨-, taken⟩ := step_eq_some taken
  by_cases notRun : event = .runPosted
  · subst notRun
    obtain ⟨lambda, rest, posted, rfl⟩ := act_runPosted taken
    cases lambda with
    | close => exact ⟨isClient, .closes rfl posted rfl rfl⟩
    | send msg =>
        obtain ⟨owner, same, isOpen, sent⟩ :=
          (OnlyWrites.settle_runSend { c with posted := rest } msg).socket
        refine ⟨owner.trans isClient, .sends msg rfl ?_ isOpen sent⟩
        rw [posted, same]
  cases event with
  | send msg => cases ofContext
  | disconnect => cases ofContext
  | socketOpened =>
      obtain ⟨connecting, -, rfl⟩ := act_socketOpened taken
      refine ⟨isClient, .goesOn notRun rfl rfl (fun connected => ?_) fun _ => rfl⟩
      exact absurd (connecting.symm.trans connected) (by decide)
  | connected =>
      obtain ⟨-, -, rfl⟩ := act_connected taken
      exact ⟨isClient, .goesOn notRun rfl rfl (fun _ => rfl) fun _ => rfl⟩
  | connectFailed =>
      obtain ⟨-, rfl⟩ := act_connectFailed taken
      exact ⟨isClient, .goesOn notRun rfl rfl (fun _ => rfl) fun _ => rfl⟩
  | runPosted => exact absurd rfl notRun
  | arrive piece =>
      obtain ⟨-, rfl⟩ := act_arrive taken
      exact ⟨isClient, .goesOn notRun rfl rfl (fun _ => rfl) fun _ => rfl⟩
  | fill count =>
      obtain ⟨kind, -, -, -, -, rfl⟩ := act_fill taken
      exact ⟨isClient, .goesOn notRun rfl rfl (fun _ => rfl) fun _ => rfl⟩
  | readDone =>
      obtain ⟨kind, bytes, -, rfl⟩ := act_readDone taken
      cases kind with
      | body => exact ⟨isClient, .goesOn notRun rfl rfl (fun _ => rfl) fun _ => rfl⟩
      | header =>
          simp only [Connection.readDone, headerRead]
          split <;> exact ⟨isClient, .goesOn notRun rfl rfl (fun _ => rfl) fun _ => rfl⟩
      | validation =>
          simp only [Connection.readDone, validationRead, isClient]
          exact ⟨rfl, .goesOn notRun rfl rfl (fun _ => rfl) fun _ => rfl⟩
  | readFail =>
      obtain ⟨kind, -, rfl⟩ := act_readFail taken
      exact ⟨isClient, .failed rfl rfl rfl rfl⟩
  | transfer index count =>
      obtain ⟨op, -, isOpen, -, -, rfl⟩ := act_transfer taken
      refine ⟨isClient, .goesOn notRun rfl rfl (fun _ => rfl) fun isClosed => ?_⟩
      exact absurd (isOpen.symm.trans isClosed) (by decide)
  | writeDone index =>
      obtain ⟨kind, -, rfl⟩ := act_writeDone taken
      by_cases isCode : kind = .validation
      · subst isCode
        rw [settle_validationWritten_client (c := { c with writing := c.writing.eraseIdx index })
          isClient]
        exact ⟨isClient, .goesOn notRun rfl rfl (fun _ => rfl) fun _ => rfl⟩
      · obtain ⟨owner, posted, isOpen, sent⟩ :=
          (OnlyWrites.settle_writeDone { c with writing := c.writing.eraseIdx index } isCode).socket
        exact ⟨owner.trans isClient, .goesOn notRun rfl posted (fun _ => isOpen) fun _ => sent⟩
  | writeFail index =>
      obtain ⟨op, -, -, rfl⟩ := act_writeFail taken
      exact ⟨isClient, .failed rfl rfl rfl rfl⟩

omit [FullLayout T] in
/-- A step of the context posts nothing, and runs the first lambda if any. -/
theorem SocketStep.posted_cases {c d : Connection T} {event : IoEvent T}
    (socket : SocketStep c d event) :
    d.posted = c.posted ∨ ∃ lambda, c.posted = lambda :: d.posted := by
  cases socket with
  | goesOn _ _ posted => exact .inl posted
  | sends msg _ posted => exact .inr ⟨_, posted⟩
  | closes _ posted => exact .inr ⟨_, posted⟩
  | failed _ posted => exact .inl posted

omit [FullLayout T] in
theorem SocketStep.mem_posted {c d : Connection T} {event : IoEvent T}
    (socket : SocketStep c d event) {lambda : Posted T} (member : lambda ∈ d.posted) :
    lambda ∈ c.posted := by
  rcases socket.posted_cases with same | ⟨first, split⟩
  · rwa [same] at member
  · rw [split]
    exact List.mem_cons_of_mem _ member

/-- Everything of the queue is handed over: it is empty, or only the end of the last write of its
only message is left. -/
def QueueWritten (c : Connection T) : Prop :=
  match c.qMessagesOut, c.messageWrites with
  | [], _ => True
  | [msg], [op] => op.rest = [] ∧ (op.kind = .body ∨ msg.body = [])
  | _, _ => False

instance (c : Connection T) : Decidable (QueueWritten c) := by
  unfold QueueWritten
  split <;> infer_instance

theorem messageStream_eq_nil {msgs : List (Message T)} : messageStream msgs = [] ↔ msgs = [] := by
  constructor
  · intro noBytes
    cases msgs with
    | nil => rfl
    | cons msg later =>
        have positive : 0 < FixedLayout.size (MessageHeader T) := Nat.succ_pos _
        have length := FixedLayout.length_toBytes msg.header
        rw [messageStream_cons, List.append_assoc, List.append_eq_nil_iff] at noBytes
        rw [noBytes.1, List.length_nil] at length
        exact absurd length (Nat.ne_of_lt positive)
  · rintro rfl
    rfl

/-- Nothing remains of a chain exactly if its queue is handed over. -/
theorem queueWritten_iff {c : Connection T} {remaining : List UInt8}
    (chain : Chain c.Down c.qMessagesOut c.messageWrites remaining) (isOpen : c.isOpen = true) :
    QueueWritten c ↔ remaining = [] := by
  have more : ∀ front (next : Message T) later, front ++ messageStream (next :: later) ≠ [] := by
    intro front next later nothing
    have noMessage := messageStream_eq_nil.mp (List.append_eq_nil_iff.mp nothing).2
    cases noMessage
  rw [QueueWritten]
  generalize c.qMessagesOut = queue, c.messageWrites = writes at chain
  cases chain with
  | idle => exact iff_of_true trivial rfl
  | header msg later bytes =>
      cases later with
      | nil => simp
      | cons next later => exact iff_of_false not_false (more _ next later)
  | body msg later bytes =>
      cases later with
      | nil => simp
      | cons next later => exact iff_of_false not_false (more _ next later)
  | failed msg later remaining isDown =>
      have isClosed := isDown.1
      rw [isOpen] at isClosed
      cases isClosed

end Connection

/-- The next line of the thread that calls the client. -/
inductive CallerLine where
  /-- It calls `Send`, and `Disconnect` after that. -/
  | calls
  /-- `m_context.stop()`. -/
  | stop
  | returned
  deriving DecidableEq, Repr

/-- `client_interface`. -/
structure ClientInterface (T : Type) where
  connection : Connection T
  line : CallerLine
  /-- What was passed to `Send`. -/
  given : List (Message T)
  /-- An operation on the open socket has ended with an error. -/
  reported : Bool
  deriving DecidableEq, Repr

namespace ClientInterface

open Connection (IoEvent)

inductive Event (T : Type) where
  | send (msg : Message T)
  | disconnect
  /-- `m_context.stop()`, and the thread of the context is joined. -/
  | stop
  /-- The context or the network takes a step. -/
  | io (event : IoEvent T)
  deriving DecidableEq, Repr

/-- `Send`. -/
def send (client : ClientInterface T) (msg : Message T) : ClientInterface T :=
  { client with
    connection :=
      if client.connection.isConnected then client.connection.send msg else client.connection
    given := client.given ++ [msg] }

/-- `Disconnect` up to `m_context.stop()`. -/
def disconnect (client : ClientInterface T) : ClientInterface T :=
  { client with
    connection :=
      if client.connection.isConnected then client.connection.disconnect else client.connection
    line := .stop }

variable [FullLayout T]

/-- The next state, if the event can happen. -/
def step (client : ClientInterface T) : Event T → Option (ClientInterface T)
  | .send msg => if client.line = .calls then some (client.send msg) else none
  | .disconnect => if client.line = .calls then some client.disconnect else none
  | .stop => if client.line = .stop then some { client with line := .returned } else none
  | .io event =>
      if client.line ≠ .returned ∧ event.ofContext then
        (client.connection.step event).map fun c => { client with
          connection := c
          reported := client.reported || (client.connection.isOpen && event.fails) }
      else none

/-! ## What is to hold when `Disconnect` returns -/

/-- Every message was handed over to its last byte or the socket has reported an error, and the
socket is closed. -/
def Delivered (client : ClientInterface T) : Prop :=
  (messageBytes client.connection.sent = messageStream client.given ∨ client.reported = true) ∧
    client.connection.isOpen = false

/-- When the posted close runs on an open socket, the queue is handed over; and the socket is closed
when the context is stopped. -/
def LetsWrite (client : ClientInterface T) : Event T → Prop
  | .io .runPosted => client.connection.posted.head? = some .close →
      client.connection.isOpen = true → client.connection.QueueWritten
  | .stop => client.connection.isOpen = false
  | _ => True

instance (client : ClientInterface T) (event : Event T) : Decidable (client.LetsWrite event) := by
  have atClose : Decidable (client.connection.posted.head? = some .close) :=
    decidable_of_iff ((client.connection.posted.head?.any fun lambda =>
      match lambda with
      | .close => true
      | .send _ => false) = true) (by
        cases client.connection.posted with
        | nil => simp
        | cons lambda rest => cases lambda <;> simp)
  cases event with
  | io event =>
      cases event with
      | runPosted => unfold LetsWrite; infer_instance
      | _ => exact .isTrue trivial
  | stop => unfold LetsWrite; infer_instance
  | _ => exact .isTrue trivial

/-- A validated connection of a client: it is open, its handshake is written, and `Disconnect` was
not called. -/
structure Validated [Inhabited T] (given : List (Message T)) (c : Connection T) : Prop where
  reached : ∃ before, runFrom Connection.step Connection.connect before = some c ∧
    .disconnect ∉ before ∧ given = before.flatMap IoEvent.given
  handshake : Connection.HandshakeWritten c
  isOpen : c.isOpen = true

/-- The client before the calls. -/
def begin (given : List (Message T)) (c : Connection T) : ClientInterface T :=
  ⟨c, .calls, given, false⟩

/-! ## Steps -/

section Steps

variable {client next : ClientInterface T}

theorem step_send {msg : Message T} (taken : client.step (.send msg) = some next) :
    client.line = .calls ∧ next = client.send msg := by
  simp only [step] at taken
  split at taken
  case isTrue calls => cases taken; exact ⟨calls, rfl⟩
  case isFalse => cases taken

theorem step_disconnect (taken : client.step .disconnect = some next) :
    client.line = .calls ∧ next = client.disconnect := by
  simp only [step] at taken
  split at taken
  case isTrue calls => cases taken; exact ⟨calls, rfl⟩
  case isFalse => cases taken

theorem step_stop (taken : client.step .stop = some next) :
    client.line = .stop ∧ next = { client with line := .returned } := by
  simp only [step] at taken
  split at taken
  case isTrue stops => cases taken; exact ⟨stops, rfl⟩
  case isFalse => cases taken

theorem step_io {event : IoEvent T} (taken : client.step (.io event) = some next) :
    client.line ≠ .returned ∧ event.ofContext = true ∧
      ∃ c, client.connection.step event = some c ∧
        next = { client with
          connection := c
          reported := client.reported || (client.connection.isOpen && event.fails) } := by
  simp only [step] at taken
  split at taken
  case isTrue allowed =>
    obtain ⟨c, moved, rfl⟩ := Option.map_eq_some_iff.mp taken
    exact ⟨allowed.1, allowed.2, c, moved, rfl⟩
  case isFalse => cases taken

end Steps

/-! ## The invariant -/

/-- What the steps keep of a validated client. -/
structure Tracks (client : ClientInterface T) : Prop where
  isClient : client.connection.ownerType = .client
  handshake : client.connection.HandshakeWritten
  accounted : ∃ accepted, client.connection.WriteInvariant accepted ∧
    (client.reported = true ∨ accepted = client.given)
  reported : client.reported = true → client.connection.isOpen = false
  calling : client.line = .calls → (∀ lambda ∈ client.connection.posted, lambda ≠ .close) ∧
    (client.connection.isOpen = false → client.reported = true)
  closesLast : ∀ lambda ∈ client.connection.posted.dropLast, lambda ≠ .close

section Tracks

variable {client next : ClientInterface T}

/-- The first messages of a client. -/
theorem Validated.tracks [Inhabited T] {given : List (Message T)} {c : Connection T}
    (validated : Validated given c) : Tracks (begin given c) := by
  obtain ⟨⟨before, run, notCalled, rfl⟩, handshake, isOpen⟩ := validated
  let holds (past : List (IoEvent T)) (c : Connection T) : Prop :=
    c.WriteInvariant (past.flatMap IoEvent.given) ∧ c.ownerType = .client ∧
      (.disconnect ∉ past → ∀ lambda ∈ c.posted, lambda ≠ .close)
  have keeps : ∀ past c event d, holds past c → Connection.step c event = some d →
      holds (past ++ [event]) d := by
    rintro past c event d ⟨writes, isClient, noClose⟩ taken
    have written := writes.step taken
    rw [← List.flatMap_singleton (f := IoEvent.given), ← List.flatMap_append] at written
    refine ⟨written, ?_⟩
    by_cases ofContext : event.ofContext = true
    · obtain ⟨stillClient, socket⟩ := Connection.socketStep_of_step isClient ofContext taken
      refine ⟨stillClient, fun notCalled lambda member => ?_⟩
      exact noClose (fun called => notCalled (List.mem_append_left _ called)) lambda
        (socket.mem_posted member)
    · obtain ⟨-, acted⟩ := Connection.step_eq_some taken
      cases event with
      | send msg =>
          cases acted
          refine ⟨isClient, fun notCalled lambda member => ?_⟩
          rcases List.mem_append.mp member with old | new
          · exact noClose (fun called => notCalled (List.mem_append_left _ called)) lambda old
          · cases List.mem_singleton.mp new
            intro same
            cases same
      | disconnect =>
          cases acted
          refine ⟨?_, fun notCalled => absurd (by simp) notCalled⟩
          rw [Connection.disconnect]
          split <;> exact isClient
      | _ => exact absurd rfl ofContext
  have begins : holds [] (Connection.connect : Connection T) := by
    refine ⟨Connection.Begins.connecting.writeInvariant, rfl, fun _ lambda member => ?_⟩
    cases member
  obtain ⟨writes, isClient, noClose⟩ := history_invariant_of_run keeps begins run
  refine ⟨isClient, handshake, ⟨_, writes, .inr rfl⟩, ?_, fun _ => ⟨noClose notCalled, ?_⟩, ?_⟩
  · intro reported
    cases reported
  · intro isClosed
    exact absurd (isOpen.symm.trans isClosed) (by decide)
  · exact fun lambda member => noClose notCalled lambda (List.mem_of_mem_dropLast member)

theorem Tracks.send (tracks : Tracks client) (calls : client.line = .calls) (msg : Message T) :
    Tracks (client.send msg) := by
  obtain ⟨isClient, handshake, ⟨accepted, writes, whole⟩, reported, calling, -⟩ := tracks
  obtain ⟨noClose, errors⟩ := calling calls
  cases isOpen : client.connection.isOpen with
  | false =>
      have same : (client.send msg).connection = client.connection := by
        simp only [ClientInterface.send, Connection.isConnected, isOpen, Bool.false_eq_true,
          if_false]
      have failed := errors isOpen
      refine ⟨?_, ?_, ⟨accepted, ?_, .inl failed⟩, ?_, fun _ => ⟨?_, fun _ => failed⟩, ?_⟩
      all_goals rw [same]
      · exact isClient
      · exact handshake
      · exact writes
      · exact reported
      · exact noClose
      · exact fun lambda member => noClose lambda (List.mem_of_mem_dropLast member)
  | true =>
      have sends : (client.send msg).connection = client.connection.send msg := by
        simp only [ClientInterface.send, Connection.isConnected, isOpen, if_true]
      have moved : client.connection.step (.send msg) = some (client.connection.send msg) := by
        simp only [Connection.step, writes.noFault, Connection.act]
      have notReported : client.reported ≠ true := by
        intro failed
        rw [reported failed] at isOpen
        cases isOpen
      refine ⟨?_, ?_, ⟨accepted ++ [msg], ?_, .inr ?_⟩, fun failed => absurd failed notReported,
        fun _ => ⟨?_, ?_⟩, ?_⟩
      all_goals try rw [sends]
      · exact isClient
      · exact handshake.step moved
      · exact writes.step moved
      · rw [whole.resolve_left notReported]
        rfl
      · intro lambda member
        rcases List.mem_append.mp member with old | new
        · exact noClose lambda old
        · cases List.mem_singleton.mp new
          intro same
          cases same
      · intro isClosed
        exact absurd (isOpen.symm.trans isClosed) (by decide)
      · change ∀ lambda ∈ (client.connection.posted ++ [Posted.send msg]).dropLast, lambda ≠ .close
        rw [List.dropLast_concat]
        exact noClose

omit [FullLayout T] in
/-- `Disconnect` posts the close or does nothing. -/
theorem disconnect_connection (client : ClientInterface T) :
    client.disconnect.connection = client.connection ∨
      client.disconnect.connection =
        { client.connection with posted := client.connection.posted ++ [.close] } := by
  simp only [disconnect, Connection.disconnect]
  split
  · exact .inr rfl
  · exact .inl rfl

theorem Tracks.disconnect (tracks : Tracks client) (calls : client.line = .calls) :
    Tracks client.disconnect := by
  obtain ⟨isClient, handshake, ⟨accepted, writes, whole⟩, reported, calling, -⟩ := tracks
  obtain ⟨noClose, -⟩ := calling calls
  rcases client.disconnect_connection with same | posts
  · refine ⟨?_, ?_, ⟨accepted, ?_, whole⟩, ?_, nofun, ?_⟩
    all_goals rw [same]
    · exact isClient
    · exact handshake
    · exact writes
    · exact reported
    · exact fun lambda member => noClose lambda (List.mem_of_mem_dropLast member)
  · have written : Connection.WriteInvariant accepted
        { client.connection with posted := client.connection.posted ++ [.close] } := by
      refine writes.congr ⟨rfl, rfl, ?_, rfl, rfl, fun isDown => isDown⟩
      simp [postedMessages, Posted.message?]
    refine ⟨?_, ?_, ⟨accepted, ?_, whole⟩, ?_, nofun, ?_⟩
    all_goals rw [posts]
    · exact isClient
    · exact ⟨handshake.connected, handshake.ended, handshake.answered⟩
    · exact written
    · exact reported
    · rw [List.dropLast_concat]
      exact noClose

theorem Tracks.io (tracks : Tracks client) {event : IoEvent T} {c : Connection T}
    (ofContext : event.ofContext = true) (moved : client.connection.step event = some c) :
    Tracks { client with
      connection := c
      reported := client.reported || (client.connection.isOpen && event.fails) } := by
  obtain ⟨isClient, handshake, ⟨accepted, writes, whole⟩, reported, calling, closesLast⟩ := tracks
  obtain ⟨stillClient, socket⟩ := Connection.socketStep_of_step isClient ofContext moved
  have written := writes.step moved
  have nothingGiven : event.given = [] := by
    cases event with
    | send msg => cases ofContext
    | _ => rfl
  rw [nothingGiven, List.append_nil] at written
  refine ⟨stillClient, handshake.step moved, ⟨accepted, written, ?_⟩, ?_, ?_, ?_⟩
  · exact whole.imp_left fun failed => by rw [failed, Bool.true_or]
  · intro failed
    rw [Bool.or_eq_true, Bool.and_eq_true] at failed
    cases socket with
    | goesOn notRun notFails posted isOpen still =>
        rw [isOpen handshake.connected]
        refine failed.elim reported fun fails => ?_
        rw [notFails] at fails
        cases fails.2
    | sends msg isRun posted isOpen sent =>
        rw [isOpen]
        subst isRun
        exact failed.elim reported fun fails => by cases fails.2
    | closes isRun posted isClosed sent => exact isClosed
    | failed isFailure posted isClosed sent => exact isClosed
  · intro calls
    obtain ⟨noClose, errors⟩ := calling calls
    refine ⟨fun lambda member => noClose lambda (socket.mem_posted member), fun isClosed => ?_⟩
    rw [Bool.or_eq_true, Bool.and_eq_true]
    cases socket with
    | goesOn notRun notFails posted isOpen still =>
        exact .inl (errors (isOpen handshake.connected ▸ isClosed))
    | sends msg isRun posted isOpen sent => exact .inl (errors (isOpen ▸ isClosed))
    | closes isRun posted => exact absurd rfl (noClose .close (posted ▸ List.mem_cons_self))
    | failed isFailure =>
        cases wasOpen : client.connection.isOpen with
        | false => exact .inl (errors wasOpen)
        | true => exact .inr ⟨rfl, isFailure⟩
  · intro lambda member
    refine closesLast lambda ?_
    rcases socket.posted_cases with same | ⟨first, split⟩
    · rwa [← same]
    · rw [split, List.dropLast_cons_of_ne_nil]
      · exact List.mem_cons_of_mem _ member
      · intro empty
        rw [empty] at member
        cases member

theorem Tracks.step {event : Event T} (tracks : Tracks client)
    (taken : client.step event = some next) : Tracks next := by
  cases event with
  | send msg =>
      obtain ⟨calls, rfl⟩ := step_send taken
      exact tracks.send calls msg
  | disconnect =>
      obtain ⟨calls, rfl⟩ := step_disconnect taken
      exact tracks.disconnect calls
  | stop =>
      obtain ⟨-, rfl⟩ := step_stop taken
      exact ⟨tracks.isClient, tracks.handshake, tracks.accounted, tracks.reported, nofun,
        tracks.closesLast⟩
  | io event =>
      obtain ⟨-, ofContext, c, moved, rfl⟩ := step_io taken
      exact tracks.io ofContext moved

/-! ## Nothing is lost -/

/-- A closed socket has taken every message or has reported an error, and the socket is closed when
`Disconnect` has returned. -/
def NothingLost (client : ClientInterface T) : Prop :=
  (client.connection.isOpen = false →
    messageBytes client.connection.sent = messageStream client.given ∨ client.reported = true) ∧
      (client.line = .returned → client.connection.isOpen = false)

theorem delivered_iff_nothingLost (returned : client.line = .returned) :
    client.Delivered ↔ client.NothingLost := by
  constructor
  · rintro ⟨written, isClosed⟩
    exact ⟨fun _ => written, fun _ => isClosed⟩
  · rintro ⟨written, closes⟩
    exact ⟨written (closes returned), closes returned⟩

/-- Before `Disconnect` only an error closes the socket. -/
theorem Tracks.nothingLost_of_calls (tracks : Tracks client) (calls : client.line = .calls) :
    client.NothingLost := by
  refine ⟨fun isClosed => .inr ((tracks.calling calls).2 isClosed), fun returned => ?_⟩
  rw [calls] at returned
  cases returned

/-- A step of the context that leaves the socket and the bytes of a closed one alone. -/
theorem nothingLost_congr {event : IoEvent T} {c : Connection T} (running : client.line ≠ .returned)
    (isOpen : c.isOpen = client.connection.isOpen)
    (still : client.connection.isOpen = false → c.sent = client.connection.sent) :
    NothingLost { client with
      connection := c
      reported := client.reported || (client.connection.isOpen && event.fails) } ↔
        client.NothingLost := by
  refine and_congr ?_ (iff_of_true (fun returned => absurd returned running)
    fun returned => absurd returned running)
  change (c.isOpen = false → _) ↔ _
  rw [isOpen]
  refine imp_congr_right fun isClosed => ?_
  change messageBytes c.sent = messageStream client.given ∨ _ ↔ _
  rw [still isClosed, isClosed, Bool.false_and, Bool.or_false]

omit [FullLayout T] in
theorem letsWrite_of_ne (client : ClientInterface T) {event : IoEvent T}
    (notRun : event ≠ .runPosted) : client.LetsWrite (.io event) := by
  cases event with
  | runPosted => exact absurd rfl notRun
  | _ => trivial

/-- Behind the close nothing is posted, so the messages are written or in the queue. -/
theorem Tracks.queueWritten_iff (tracks : Tracks client) {rest : List (Posted T)}
    (isOpen : client.connection.isOpen = true)
    (posted : client.connection.posted = .close :: rest) :
    client.connection.QueueWritten ↔
      messageBytes client.connection.sent = messageStream client.given := by
  have last : rest = [] := by
    by_contra more
    have among := tracks.closesLast .close
    rw [posted, List.dropLast_cons_of_ne_nil more] at among
    exact among List.mem_cons_self rfl
  subst last
  obtain ⟨accepted, ⟨-, written, remaining, splits, chain, bytes⟩, whole⟩ := tracks.accounted
  have accepts : accepted = client.given := by
    refine whole.resolve_left fun failed => ?_
    rw [tracks.reported failed] at isOpen
    cases isOpen
  have noneLeft : postedMessages client.connection.posted = [] := by
    rw [posted]
    rfl
  rw [Connection.queueWritten_iff chain isOpen, ← accepts, splits, noneLeft, List.append_nil, bytes]
  exact ⟨fun nothing => by rw [nothing, List.append_nil],
    fun same => List.self_eq_append_right.mp same⟩

theorem nothingLost_io_iff {event : IoEvent T} {c : Connection T} (tracks : Tracks client)
    (running : client.line ≠ .returned) (ofContext : event.ofContext = true)
    (moved : client.connection.step event = some c) :
    NothingLost { client with
      connection := c
      reported := client.reported || (client.connection.isOpen && event.fails) } ↔
        client.NothingLost ∧ client.LetsWrite (.io event) := by
  obtain ⟨-, socket⟩ := Connection.socketStep_of_step tracks.isClient ofContext moved
  have openKept : client.connection.isOpen = true → client.NothingLost := by
    intro isOpen
    refine ⟨fun isClosed => ?_, fun returned => absurd returned running⟩
    exact absurd (isOpen.symm.trans isClosed) (by decide)
  cases socket with
  | goesOn notRun notFails posted isOpen still =>
      rw [and_iff_left (letsWrite_of_ne client notRun)]
      exact nothingLost_congr running (isOpen tracks.handshake.connected) still
  | sends msg isRun posted isOpen sent =>
      have lets : client.LetsWrite (.io event) := by
        subst isRun
        intro head
        rw [posted] at head
        cases head
      rw [and_iff_left lets]
      exact nothingLost_congr running isOpen fun _ => sent
  | failed isFailure posted isClosed sent =>
      have notRun : event ≠ .runPosted := by
        rintro rfl
        cases isFailure
      rw [and_iff_left (letsWrite_of_ne client notRun)]
      cases wasOpen : client.connection.isOpen with
      | false =>
          rw [← wasOpen]
          exact nothingLost_congr running (isClosed.trans wasOpen.symm) fun _ => sent
      | true =>
          refine iff_of_true ⟨fun _ => .inr ?_, fun returned => absurd returned running⟩
            (openKept wasOpen)
          rw [isFailure]
          exact Bool.or_true _
  | closes isRun posted isClosed sent =>
      subst isRun
      cases wasOpen : client.connection.isOpen with
      | false =>
          have lets : client.LetsWrite (.io .runPosted) := by
            intro _ isOpen
            rw [wasOpen] at isOpen
            cases isOpen
          rw [and_iff_left lets, ← wasOpen]
          exact nothingLost_congr running (isClosed.trans wasOpen.symm) fun _ => sent
      | true =>
          have notReported : client.reported = false := by
            rw [Bool.eq_false_iff]
            intro failed
            rw [tracks.reported failed] at wasOpen
            cases wasOpen
          have lets : client.LetsWrite (.io .runPosted) ↔ client.connection.QueueWritten := by
            constructor
            · intro lets
              exact lets (by rw [posted]; rfl) wasOpen
            · exact fun written _ _ => written
          rw [and_iff_right (openKept wasOpen), lets, tracks.queueWritten_iff wasOpen posted,
            ← sent]
          constructor
          · rintro ⟨written, -⟩
            refine (written isClosed).resolve_right fun failed => ?_
            rw [notReported] at failed
            cases failed
          · exact fun written => ⟨fun _ => .inl written, fun _ => isClosed⟩

/-- **A step leads to a client that has lost nothing exactly if nothing was lost before it and the
step meets the condition.** -/
theorem nothingLost_step_iff {event : Event T} (tracks : Tracks client)
    (taken : client.step event = some next) :
    next.NothingLost ↔ client.NothingLost ∧ client.LetsWrite event := by
  cases event with
  | send msg =>
      obtain ⟨calls, rfl⟩ := step_send taken
      exact iff_of_true ((tracks.send calls msg).nothingLost_of_calls calls)
        ⟨tracks.nothingLost_of_calls calls, trivial⟩
  | disconnect =>
      obtain ⟨calls, rfl⟩ := step_disconnect taken
      have before := tracks.nothingLost_of_calls calls
      refine iff_of_true ⟨fun isClosed => ?_, nofun⟩ ⟨before, trivial⟩
      rcases client.disconnect_connection with same | posts
      · rw [same] at isClosed ⊢
        exact before.1 isClosed
      · rw [posts] at isClosed ⊢
        exact before.1 isClosed
  | stop =>
      obtain ⟨stops, rfl⟩ := step_stop taken
      constructor
      · rintro ⟨written, closes⟩
        refine ⟨⟨written, fun returned => ?_⟩, closes rfl⟩
        rw [stops] at returned
        cases returned
      · rintro ⟨⟨written, -⟩, isClosed⟩
        exact ⟨written, fun _ => isClosed⟩
  | io event =>
      obtain ⟨running, ofContext, c, moved, rfl⟩ := step_io taken
      exact nothingLost_io_iff tracks running ofContext moved

/-- **When `Disconnect` returns, every message is handed over or an error was reported, and the
socket is closed, exactly if every step has met the condition**: the posted close has found the
queue handed over, and has run before the context was stopped. -/
theorem disconnect_delivers_iff [Inhabited T] {given : List (Message T)} {c : Connection T}
    {events : List (Event T)} {final : ClientInterface T} (validated : Validated given c)
    (run : runFrom step (begin given c) events = some final) (returned : final.line = .returned) :
    final.Delivered ↔ Meets step LetsWrite (begin given c) events := by
  have tracks := validated.tracks
  have keeps : ∀ client event next, Tracks client → step client event = some next → Tracks next :=
    fun (client : ClientInterface T) _ _ tracks taken => tracks.step taken
  have exact_step : ∀ client event next, Tracks client → step client event = some next →
      (next.NothingLost ↔ client.NothingLost ∧ client.LetsWrite event) :=
    fun (client : ClientInterface T) _ _ tracks taken => nothingLost_step_iff tracks taken
  rw [delivered_iff_nothingLost returned, final_iff_meets keeps exact_step tracks run,
    and_iff_right (tracks.nothingLost_of_calls rfl)]

end Tracks

/-! ## The destructor -/

/-- A client that has answered the code of the server. -/
def answersCode : List (IoEvent CustomMsgTypes) :=
  [.socketOpened, .connected, .arrive (toBytes (5 : UInt64)), .fill 8, .readDone, .transfer 0 8,
    .writeDone 0]

def answered : Connection CustomMsgTypes :=
  (runFrom Connection.step Connection.connect answersCode).get (by decide)

theorem validated_answered : Validated [] answered := by
  refine ⟨⟨answersCode, (Option.some_get _).symm, by decide, rfl⟩, ⟨by decide, by decide, ?_⟩,
    by decide⟩
  intro _ data reading
  have inLoop : answered.reading = some ⟨.header, none⟩ := by decide
  cases inLoop.symm.trans reading

/-- The context has written the message and closed the socket when it is stopped. -/
def patient : List (Event CustomMsgTypes) :=
  [.send CustomClient.closeClient, .disconnect, .io .runPosted, .io (.transfer 0 8),
    .io (.writeDone 0), .io .runPosted, .stop]

theorem delivered_patient :
    ∃ final, runFrom step (begin [] answered) patient = some final ∧ final.Delivered := by
  refine ⟨(runFrom step (begin [] answered) patient).get (by decide), (Option.some_get _).symm, ?_⟩
  exact (disconnect_delivers_iff validated_answered (Option.some_get _).symm (by decide)).mpr
    (by decide)

/-- The context is stopped at once. -/
def stopped : List (Event CustomMsgTypes) := [.send CustomClient.closeClient, .disconnect, .stop]

/-- The posted lambdas have run. -/
def closed : List (Event CustomMsgTypes) :=
  [.send CustomClient.closeClient, .disconnect, .io .runPosted, .io .runPosted, .stop]

/-- **The message of the destructor is lost**: not a byte of it is handed over, no error was
reported, and a context that is stopped at once leaves the socket open. -/
theorem closeClient_lost :
    (∃ final, runFrom step (begin [] answered) stopped = some final ∧ final.line = .returned ∧
      messageBytes final.connection.sent = [] ∧ final.reported = false ∧
        final.connection.isOpen = true ∧ ¬ final.Delivered) ∧
      ∃ final, runFrom step (begin [] answered) closed = some final ∧ final.line = .returned ∧
        messageBytes final.connection.sent = [] ∧ final.reported = false ∧ ¬ final.Delivered := by
  constructor
  · refine ⟨(runFrom step (begin [] answered) stopped).get (by decide), (Option.some_get _).symm,
      by decide, by decide, by decide, by decide, ?_⟩
    rintro ⟨-, isClosed⟩
    exact absurd isClosed (by decide)
  · refine ⟨(runFrom step (begin [] answered) closed).get (by decide), (Option.some_get _).symm,
      by decide, by decide, by decide, ?_⟩
    rintro ⟨written | failed, -⟩
    · exact absurd written (by decide)
    · exact absurd failed (by decide)

end ClientInterface

end NetworkChat
