import NetworkChat.Connection.Handshaking
import NetworkChat.Connection.WriteChain

/-!
# The handshake

The two ends of a TCP connection from the accept on. The network cuts what each end
hands over into pieces of any size. `async_read_some` may hand the handler of
`ReadValidation` fewer bytes than the code has: those that have arrived.

The ends stay aligned throughout a run exactly when each handler of the code gets the
whole code (`aligned_iff`). While they do, nothing is left to happen only when the
server has accepted and both loops stand behind the eight bytes of the codes
(`Good.completed`), however the streams were cut.
-/

set_option autoImplicit false

namespace NetworkChat

open Foundation

/-- Both ends, and how many of the bytes that the peer handed over have arrived at
each. -/
structure Handshake (T : Type) where
  server : Connection T
  client : Connection T
  toClient : ℕ
  toServer : ℕ
  deriving DecidableEq, Repr

namespace Handshake

open Connection

variable {T : Type}

/-- What may happen: an event of an end, or the arrival of the next bytes of the
peer. -/
inductive Event (T : Type) where
  | server (event : IoEvent T)
  | client (event : IoEvent T)
  | toClient (count : ℕ)
  | toServer (count : ℕ)
  deriving DecidableEq, Repr

/-- The bytes an end has handed over. -/
def handedOver (c : Connection T) : List UInt8 := c.sent.map Prod.snd

/-- The bytes that have arrived at the client. -/
def atClient (h : Handshake T) : List UInt8 := (handedOver h.server).take h.toClient

/-- The bytes that have arrived at the server. -/
def atServer (h : Handshake T) : List UInt8 := (handedOver h.client).take h.toServer

/-- The server has accepted the connection that the client is making. -/
def start [Inhabited T] (clock : UInt64) (welcome : List (Message T)) (uid : UInt32) :
    Handshake T :=
  { server := accept clock welcome uid, client := connect, toClient := 0, toServer := 0 }

section Model

variable [FullLayout T]

/-- A step of an honest end whose frames follow its code. -/
def honestStep (c : Connection T) (event : IoEvent T) : Option (Connection T) :=
  if event.honest = true ∧ FramesFollow c event then c.step event else none

/-- One step. -/
def step (h : Handshake T) : Event T → Option (Handshake T)
  | .server event => (honestStep h.server event).map fun server => { h with server }
  | .client event => (honestStep h.client event).map fun client => { h with client }
  | .toClient count =>
      if 0 < count ∧ h.toClient + count ≤ h.server.sent.length then
        (h.client.step (.arrive (((handedOver h.server).drop h.toClient).take count))).map
          fun client => { h with client, toClient := h.toClient + count }
      else none
  | .toServer count =>
      if 0 < count ∧ h.toServer + count ≤ h.client.sent.length then
        (h.server.step (.arrive (((handedOver h.client).drop h.toServer).take count))).map
          fun server => { h with server, toServer := h.toServer + count }
      else none

/-- The event makes the connection, or carries on the write or the read of a code. A
read of a code is filled with the whole code. -/
def ofHandshake (c : Connection T) : IoEvent T → Bool
  | .socketOpened => true
  | .connected => true
  | .fill count => c.reading == some ⟨.validation, none⟩ && count == FixedLayout.size UInt64
  | .readDone => c.reading.any fun op => op.kind == .validation
  | .transfer index _ => c.writing[index]?.any fun op => op.kind == .validation
  | .writeDone index => c.writing[index]?.any fun op => op.kind == .validation
  | _ => false

/-- The event takes the handshake on. Of the streams only the codes need to arrive. -/
def takesOn (h : Handshake T) : Event T → Bool
  | .server event => ofHandshake h.server event
  | .client event => ofHandshake h.client event
  | .toClient count => decide (h.toClient + count ≤ FixedLayout.size UInt64)
  | .toServer count => decide (h.toServer + count ≤ FixedLayout.size UInt64)

/-- One step of the handshake alone. -/
def handshakeStep (h : Handshake T) (event : Event T) : Option (Handshake T) :=
  if takesOn h event then h.step event else none

/-- No step of the handshake is left. -/
def AtRest (h : Handshake T) : Prop := Exhausted handshakeStep (fun _ => True) h

/-- The code of the peer was taken, eight bytes, and the loop stands in the stream
behind it. -/
def LoopStarted (received : List UInt8) (c : Connection T) : Prop :=
  ∃ code stream, code.length = FixedLayout.size UInt64 ∧ received = code ++ stream ∧
    Reads stream c ∧ c.reading.isSome = true

/-- Each end has taken exactly the code or nothing, and a server past its check has
accepted. -/
structure Aligned (h : Handshake T) : Prop where
  server : InStep h.atServer h.server
  client : InStep h.atClient h.client
  accepted : ¬ AwaitsCode h.server → h.server.validatonCodeIn = h.server.validatonCodeSum

/-- The handshake has ended: the server has accepted the answer to its code, and both
loops have started behind the codes. -/
structure Completed (h : Handshake T) : Prop where
  accepted : h.server.validatonCodeIn = h.server.validatonCodeSum
  agreed : h.client.validatonCodeIn = h.server.validatonCodeOut
  server : LoopStarted h.atServer h.server
  client : LoopStarted h.atClient h.client

/-- The handler of `ReadValidation` gets the whole code. -/
def GetsWholeCode (c : Connection T) : IoEvent T → Prop
  | .readDone =>
      match c.reading with
      | some ⟨.validation, some bytes⟩ => bytes.length = FixedLayout.size UInt64
      | _ => True
  | _ => True

omit [FullLayout T] in
theorem getsWholeCode_iff {c : Connection T} {event : IoEvent T} :
    GetsWholeCode c event ↔ ∀ bytes, event = .readDone →
      c.reading = some ⟨.validation, some bytes⟩ → bytes.length = FixedLayout.size UInt64 := by
  constructor
  · rintro whole bytes rfl reading
    simpa only [GetsWholeCode, reading] using whole
  · intro whole
    unfold GetsWholeCode
    split
    · split
      · exact whole _ rfl ‹_›
      · trivial
    · trivial

/-- Each handler of the code gets the whole code. -/
def FullCode (h : Handshake T) : Event T → Prop
  | .server event => GetsWholeCode h.server event
  | .client event => GetsWholeCode h.client event
  | _ => True

instance (c : Connection T) (event : IoEvent T) : Decidable (GetsWholeCode c event) := by
  apply IoEvent.casesOn (motive := fun event => Decidable (GetsWholeCode c event)) event
  all_goals
    intros
    unfold GetsWholeCode
  case readDone =>
    exact match c.reading with
      | some ⟨.validation, some _⟩ => Nat.decEq _ _
      | none | some ⟨.header, _⟩ | some ⟨.body, _⟩ | some ⟨.validation, none⟩ => instDecidableTrue
  all_goals infer_instance

instance (h : Handshake T) (event : Event T) : Decidable (FullCode h event) := by
  apply Event.casesOn (motive := fun event => Decidable (FullCode h event)) event
  all_goals
    intros
    unfold FullCode
    infer_instance

/-! ## Inversion -/

theorem honestStep_eq_some {c d : Connection T} {event : IoEvent T}
    (taken : honestStep c event = some d) :
    event.honest = true ∧ FramesFollow c event ∧ c.step event = some d := by
  simp only [honestStep] at taken
  split at taken
  case isTrue allowed => exact ⟨allowed.1, allowed.2, taken⟩
  case isFalse => cases taken

theorem step_server {h next : Handshake T} {event : IoEvent T}
    (taken : h.step (.server event) = some next) :
    ∃ server, honestStep h.server event = some server ∧ next = { h with server } := by
  obtain ⟨server, moved, rfl⟩ := Option.map_eq_some_iff.mp taken
  exact ⟨server, moved, rfl⟩

theorem step_client {h next : Handshake T} {event : IoEvent T}
    (taken : h.step (.client event) = some next) :
    ∃ client, honestStep h.client event = some client ∧ next = { h with client } := by
  obtain ⟨client, moved, rfl⟩ := Option.map_eq_some_iff.mp taken
  exact ⟨client, moved, rfl⟩

theorem step_toClient {h next : Handshake T} {count : ℕ}
    (taken : h.step (.toClient count) = some next) :
    0 < count ∧ h.toClient + count ≤ h.server.sent.length ∧
      next = { h with
        client := { h.client with
          inbox := h.client.inbox ++ ((handedOver h.server).drop h.toClient).take count }
        toClient := h.toClient + count } := by
  simp only [step] at taken
  split at taken
  case isTrue allowed =>
    obtain ⟨client, moved, rfl⟩ := Option.map_eq_some_iff.mp taken
    obtain ⟨-, moved⟩ := step_eq_some moved
    obtain ⟨-, rfl⟩ := act_arrive moved
    exact ⟨allowed.1, allowed.2, rfl⟩
  case isFalse => cases taken

theorem step_toServer {h next : Handshake T} {count : ℕ}
    (taken : h.step (.toServer count) = some next) :
    0 < count ∧ h.toServer + count ≤ h.client.sent.length ∧
      next = { h with
        server := { h.server with
          inbox := h.server.inbox ++ ((handedOver h.client).drop h.toServer).take count }
        toServer := h.toServer + count } := by
  simp only [step] at taken
  split at taken
  case isTrue allowed =>
    obtain ⟨server, moved, rfl⟩ := Option.map_eq_some_iff.mp taken
    obtain ⟨-, moved⟩ := step_eq_some moved
    obtain ⟨-, rfl⟩ := act_arrive moved
    exact ⟨allowed.1, allowed.2, rfl⟩
  case isFalse => cases taken

end Model

/-! ## Bytes handed over and received -/

theorem length_handedOver (c : Connection T) : (handedOver c).length = c.sent.length :=
  List.length_map _

/-- What has arrived stays, whatever the peer hands over later. -/
theorem take_handedOver {c d : Connection T} {count : ℕ} (within : count ≤ c.sent.length)
    (sent : ∃ more, d.sent = c.sent ++ more) :
    (handedOver d).take count = (handedOver c).take count := by
  obtain ⟨more, sent⟩ := sent
  rw [handedOver, sent, List.map_append]
  exact List.take_append_of_le_length (by rwa [List.length_map])

/-- Eight bytes that begin what an end handed over are its code. -/
theorem code_of_prefix {code bytes rest : List UInt8} {c : Connection T} {count : ℕ}
    (phase : CodePhase code c) (received : (handedOver c).take count = bytes ++ rest)
    (length : bytes.length = code.length) : bytes = code := by
  have enough : code.length ≤ c.sent.length := by
    have total := congrArg List.length received
    rw [List.length_take, length_handedOver, List.length_append] at total
    omega
  obtain ⟨more, sent⟩ := phase.written_of_length enough
  have begins : bytes <+: handedOver c :=
    (List.prefix_append bytes rest).trans (received ▸ List.take_prefix count _)
  have handed : handedOver c = code ++ more.map Prod.snd := by
    rw [handedOver, sent, List.map_append, tagged, List.map_map]
    simp [Function.comp_def]
  rw [handed] at begins
  exact (List.prefix_of_prefix_length_le begins (List.prefix_append _ _) length.le).eq_of_length
    length

/-! ## The invariant -/

variable [FullLayout T]

/-- What runs keep whose handlers of the code get the whole code. -/
structure Good (clock : UInt64) (h : Handshake T) : Prop where
  isServer : h.server.ownerType = .server
  isClient : h.client.ownerType = .client
  isAccepted : h.server.connecting = false
  codeOut : h.server.validatonCodeOut = clock
  codeSum : h.server.validatonCodeSum = scramble clock
  serverAlive : Alive h.server
  clientAlive : Alive h.client
  serverWrites : ∃ given, WriteInvariant given h.server
  clientWrites : ∃ given, WriteInvariant given h.client
  serverCode : CodePhase (toBytes clock) h.server
  clientCode : ¬ AwaitsCode h.client →
    h.client.validatonCodeIn = clock ∧ CodePhase (toBytes (scramble clock)) h.client
  aligned : Aligned h
  toClient : h.toClient ≤ h.server.sent.length
  toServer : h.toServer ≤ h.client.sent.length

theorem good_start [Inhabited T] (clock : UInt64) (welcome : List (Message T)) (uid : UInt32) :
    Good clock (start clock welcome uid) := by
  have writes := writeInvariant_accept clock welcome uid
  rw [accept_eq] at writes
  rw [start, accept_eq]
  refine ⟨rfl, rfl, rfl, rfl, rfl, ⟨.inl rfl, ?_, nofun, nofun⟩, ⟨.inr rfl, nofun, fun _ => rfl,
    fun _ _ => ⟨rfl, rfl, rfl⟩⟩, ⟨welcome, writes⟩, ⟨[], rfl, [], [], rfl, .idle, rfl⟩,
    .writing [] _ rfl rfl rfl rfl, fun handled => absurd (.inl rfl) handled, ⟨?_, ?_, ?_⟩,
    Nat.zero_le _, Nat.zero_le _⟩
  · intro lambda member
    obtain ⟨msg, -, rfl⟩ := List.mem_map.mp member
    nofun
  · exact .awaiting (.inr ⟨none, rfl⟩) rfl ⟨rfl, rfl⟩
  · exact .awaiting (.inl rfl) rfl ⟨rfl, rfl⟩
  · exact fun handled => absurd (.inr ⟨none, rfl⟩) handled

/-! ## Handlers of the code -/

omit [FullLayout T] in
/-- Eight bytes overwrite the whole of `Validaton_code_in`. -/
theorem ofBytes_whole (code old : UInt64) :
    (ofBytes (toBytes code ++ (toBytes old).drop (toBytes code).length) : UInt64) = code := by
  rw [List.drop_of_length_le, List.append_nil, FixedLayout.ofBytes_toBytes]
  rw [FixedLayout.length_toBytes, FixedLayout.length_toBytes]

omit [FullLayout T] in
/-- The server accepts the answer to its code. -/
theorem validationRead_server {c : Connection T} {code : UInt64} (isServer : c.ownerType = .server)
    (codeSum : c.validatonCodeSum = code) :
    ({ c with reading := none }).validationRead (toBytes code) =
      { c with reading := some ⟨.header, none⟩, validatonCodeIn := code } := by
  simp only [validationRead, isServer, codeSum, ofBytes_whole, if_true]
  rfl

omit [FullLayout T] in
/-- A client answers the code it got. -/
theorem validationRead_client {c : Connection T} (code : UInt64)
    (isClient : c.ownerType = .client) :
    ({ c with reading := none }).validationRead (toBytes code) =
      { c with
        reading := none, validatonCodeIn := code, validatonCodeOut := scramble code,
        writing := c.writing ++ [⟨.validation, toBytes (scramble code)⟩] } := by
  simp only [validationRead, isClient, ofBytes_whole]
  rfl

/-- Where the loop of an end has just started, or has still to, exactly a code of
eight bytes was taken. -/
theorem split_of_fresh {received : List UInt8} {c : Connection T} (inStep : InStep received c)
    (connected : c.connecting = false) (nothing : c.qMessagesIn = [])
    (fresh : c.reading = none ∨ c.reading = some ⟨.header, none⟩) :
    ∃ code, code.length = FixedLayout.size UInt64 ∧ received = code ++ c.inbox := by
  cases inStep with
  | awaiting awaits =>
      rcases awaits with connecting | ⟨data, reading⟩
      · exact absurd (connected.symm.trans connecting) (by decide)
      · rcases fresh with fresh | fresh
        · rw [fresh] at reading
          cases reading
        · rw [fresh] at reading
          cases reading
  | replying _ _ _ code length split => exact ⟨code, length, split⟩
  | looping code stream length split reads goesOn =>
      rcases fresh with fresh | fresh
      · rw [fresh] at goesOn
        cases goesOn
      · obtain ⟨-, frames, -, pushed, phase⟩ := reads
        have noFrames : frames = [] := by
          cases frames with
          | nil => rfl
          | cons frame frames => rw [nothing] at pushed; cases pushed
        subst noFrames
        refine ⟨code, length, ?_⟩
        cases phase with
        | header data reading =>
            rw [split, Connection.unread, fresh]
            rfl
        | body data reading => rw [fresh] at reading; cases reading
        | ended rest reading => rw [fresh] at reading; cases reading

/-! ## Steps -/

/-- A step of the server that is not the handler of the code. -/
theorem Good.serverStep {clock : UInt64} {h : Handshake T} {d : Connection T} {event : IoEvent T}
    (good : Good clock h) (otherHandler : ¬ HandlesCode h.server event)
    (taken : honestStep h.server event = some d) : Good clock { h with server := d } := by
  obtain ⟨honest, follows, moved⟩ := honestStep_eq_some taken
  obtain ⟨-, acted⟩ := step_eq_some moved
  obtain ⟨alive, unmoved⟩ :=
    good.serverAlive.step (fun _ => good.isAccepted) honest follows otherHandler acted
  obtain ⟨given, writes⟩ := good.serverWrites
  obtain ⟨more, sent⟩ := unmoved.sent
  have atClient : (handedOver d).take h.toClient = h.atClient :=
    take_handedOver good.toClient unmoved.sent
  refine ⟨unmoved.ownerType.trans good.isServer, good.isClient,
    (unmoved.server good.isServer).1.trans good.isAccepted, unmoved.codeOut.trans good.codeOut,
    unmoved.codeSum.trans good.codeSum, alive, good.clientAlive, ⟨_, writes.step moved⟩,
    good.clientWrites, ?_, good.clientCode, ⟨?_, ?_, ?_⟩, ?_, good.toServer⟩
  · exact good.serverCode.step (FixedLayout.length_toBytes _) honest follows otherHandler acted
  · exact good.aligned.server.step good.serverAlive honest otherHandler acted
  · exact (atClient.symm ▸ good.aligned.client : InStep ((handedOver d).take h.toClient) h.client)
  · intro handled
    change d.validatonCodeIn = d.validatonCodeSum
    rw [unmoved.codeIn, unmoved.codeSum]
    exact good.aligned.accepted fun awaits => handled (unmoved.awaits.mpr awaits)
  · change h.toClient ≤ d.sent.length
    rw [sent, List.length_append]
    exact good.toClient.trans (Nat.le_add_right _ _)

/-- A step of the client that is not the handler of the code. -/
theorem Good.clientStep {clock : UInt64} {h : Handshake T} {d : Connection T} {event : IoEvent T}
    (good : Good clock h) (otherHandler : ¬ HandlesCode h.client event)
    (taken : honestStep h.client event = some d) : Good clock { h with client := d } := by
  obtain ⟨honest, follows, moved⟩ := honestStep_eq_some taken
  obtain ⟨-, acted⟩ := step_eq_some moved
  have notServer : h.client.ownerType = .server → h.client.connecting = false := by
    intro isServer
    rw [good.isClient] at isServer
    cases isServer
  obtain ⟨alive, unmoved⟩ := good.clientAlive.step notServer honest follows otherHandler acted
  obtain ⟨given, writes⟩ := good.clientWrites
  obtain ⟨more, sent⟩ := unmoved.sent
  have atServer : (handedOver d).take h.toServer = h.atServer :=
    take_handedOver good.toServer unmoved.sent
  refine ⟨good.isServer, unmoved.ownerType.trans good.isClient, good.isAccepted, good.codeOut,
    good.codeSum, good.serverAlive, alive, good.serverWrites, ⟨_, writes.step moved⟩,
    good.serverCode, ?_, ⟨?_, ?_, good.aligned.accepted⟩, good.toClient, ?_⟩
  · intro handled
    obtain ⟨codeIn, phase⟩ := good.clientCode fun awaits => handled (unmoved.awaits.mpr awaits)
    exact ⟨unmoved.codeIn.trans codeIn,
      phase.step (FixedLayout.length_toBytes _) honest follows otherHandler acted⟩
  · exact (atServer.symm ▸ good.aligned.server : InStep ((handedOver d).take h.toServer) h.server)
  · exact good.aligned.client.step good.clientAlive honest otherHandler acted
  · change h.toServer ≤ d.sent.length
    rw [sent, List.length_append]
    exact good.toServer.trans (Nat.le_add_right _ _)

/-- Bytes of the server arrive at the client. -/
theorem Good.arriveAtClient {clock : UInt64} {h : Handshake T} {count : ℕ} (good : Good clock h)
    (within : h.toClient + count ≤ h.server.sent.length) :
    Good clock { h with
      client := { h.client with
        inbox := h.client.inbox ++ ((handedOver h.server).drop h.toClient).take count }
      toClient := h.toClient + count } := by
  obtain ⟨given, noFault, chain⟩ := good.clientWrites
  refine { good with
    clientAlive := ⟨good.clientAlive.isOpen, good.clientAlive.noClose, good.clientAlive.order,
      good.clientAlive.quiet⟩
    clientWrites := ⟨given, noFault, chain⟩
    clientCode := fun handled => ?_
    aligned := ⟨good.aligned.server, ?_, good.aligned.accepted⟩
    toClient := within }
  · obtain ⟨codeIn, phase⟩ := good.clientCode handled
    exact ⟨codeIn, phase.congr rfl rfl rfl⟩
  · have arrived := good.aligned.client.arrive (((handedOver h.server).drop h.toClient).take count)
    rwa [atClient, ← List.take_add] at arrived

/-- Bytes of the client arrive at the server. -/
theorem Good.arriveAtServer {clock : UInt64} {h : Handshake T} {count : ℕ} (good : Good clock h)
    (within : h.toServer + count ≤ h.client.sent.length) :
    Good clock { h with
      server := { h.server with
        inbox := h.server.inbox ++ ((handedOver h.client).drop h.toServer).take count }
      toServer := h.toServer + count } := by
  obtain ⟨given, noFault, chain⟩ := good.serverWrites
  refine { good with
    serverAlive := ⟨good.serverAlive.isOpen, good.serverAlive.noClose, good.serverAlive.order,
      good.serverAlive.quiet⟩
    serverWrites := ⟨given, noFault, chain⟩
    serverCode := good.serverCode.congr rfl rfl rfl
    aligned := ⟨?_, good.aligned.client, good.aligned.accepted⟩
    toServer := within }
  have arrived := good.aligned.server.arrive (((handedOver h.client).drop h.toServer).take count)
  rwa [atServer, ← List.take_add] at arrived

/-- The server's handler of the whole code accepts. -/
theorem Good.serverHandles {clock : UInt64} {h : Handshake T} {d : Connection T}
    {bytes : List UInt8} (good : Good clock h)
    (full : h.server.reading = some ⟨.validation, some bytes⟩)
    (whole : bytes.length = FixedLayout.size UInt64)
    (taken : honestStep h.server .readDone = some d) : Good clock { h with server := d } := by
  obtain ⟨-, -, moved⟩ := honestStep_eq_some taken
  obtain ⟨given, writes⟩ := good.serverWrites
  have written := writes.step moved
  obtain ⟨-, acted⟩ := step_eq_some moved
  obtain ⟨kind, data, reading, rfl⟩ := act_readDone acted
  rw [full] at reading
  cases reading
  obtain ⟨unseen, untouched⟩ := good.aligned.server.untouched_of_code full
  have received : h.atServer = bytes ++ h.server.inbox := by
    rw [← unseen, Connection.unread, full]
    rfl
  have answered : ¬ AwaitsCode h.client := by
    intro awaits
    have noBytes := (good.clientAlive.quiet good.isClient awaits).1
    rw [atServer, handedOver, noBytes, List.map_nil, List.take_nil] at received
    rw [(List.append_eq_nil_iff.mp received.symm).1] at whole
    cases whole
  obtain ⟨-, phase⟩ := good.clientCode answered
  obtain rfl : bytes = toBytes (scramble clock) :=
    code_of_prefix phase received (whole.trans (FixedLayout.length_toBytes _).symm)
  have handler := validationRead_server good.isServer good.codeSum
  rw [Connection.readDone, handler] at written ⊢
  have isOver : HandshakeOver { h.server with validatonCodeIn := scramble clock } := by
    refine ⟨good.isAccepted, fun isClient => ?_⟩
    exact absurd (good.isServer.symm.trans isClient) (by decide)
  refine { good with
    serverAlive := ⟨good.serverAlive.isOpen, good.serverAlive.noClose, ?_, ?_⟩
    serverWrites := ⟨_, written⟩
    serverCode := good.serverCode.congr rfl rfl rfl
    aligned := ⟨.looping _ _ whole received (reads_start isOver untouched) rfl, good.aligned.client,
      fun _ => good.codeSum.symm⟩ }
  · intro connecting
    exact absurd (good.isAccepted.symm.trans connecting) (by decide)
  · intro isClient
    exact absurd (good.isServer.symm.trans isClient) (by decide)

/-- The client's handler of the whole code starts to write the answer. -/
theorem Good.clientHandles {clock : UInt64} {h : Handshake T} {d : Connection T}
    {bytes : List UInt8} (good : Good clock h)
    (full : h.client.reading = some ⟨.validation, some bytes⟩)
    (whole : bytes.length = FixedLayout.size UInt64)
    (taken : honestStep h.client .readDone = some d) : Good clock { h with client := d } := by
  obtain ⟨-, -, moved⟩ := honestStep_eq_some taken
  obtain ⟨given, writes⟩ := good.clientWrites
  have written := writes.step moved
  obtain ⟨-, acted⟩ := step_eq_some moved
  obtain ⟨kind, data, reading, rfl⟩ := act_readDone acted
  rw [full] at reading
  cases reading
  obtain ⟨unseen, untouched⟩ := good.aligned.client.untouched_of_code full
  obtain ⟨noBytes, noWrites, noQueue⟩ := good.clientAlive.quiet good.isClient (.inr ⟨_, full⟩)
  have connected := good.clientAlive.connected_of_reading full
  have received : h.atClient = bytes ++ h.client.inbox := by
    rw [← unseen, Connection.unread, full]
    rfl
  obtain rfl : bytes = toBytes clock :=
    code_of_prefix good.serverCode received (whole.trans (FixedLayout.length_toBytes _).symm)
  have handler := validationRead_client clock good.isClient
  rw [Connection.readDone, handler] at written ⊢
  have one : h.client.writing ++ [⟨.validation, toBytes (scramble clock)⟩] =
      [⟨.validation, toBytes (scramble clock)⟩] := by rw [noWrites]; rfl
  refine { good with
    clientAlive := ⟨good.clientAlive.isOpen, good.clientAlive.noClose, fun _ => rfl, ?_⟩
    clientWrites := ⟨_, written⟩
    clientCode := fun _ => ⟨rfl, .writing [] _ rfl noBytes one noQueue⟩
    aligned := ⟨good.aligned.server, ?_, good.aligned.accepted⟩ }
  · intro _ awaits
    exact absurd awaits (not_awaits_of_loop connected (by simp))
  · refine .replying good.isClient connected rfl _ whole received untouched
      ⟨⟨.validation, toBytes (scramble clock)⟩, ?_⟩
    change codeWrites (h.client.writing ++ [_]) = _
    rw [one]
    rfl

/-- **Handlers that get the whole code keep the ends aligned.** -/
theorem Good.step {clock : UInt64} {h next : Handshake T} {event : Event T} (good : Good clock h)
    (taken : h.step event = some next) (full : FullCode h event) : Good clock next := by
  cases event with
  | server event =>
      obtain ⟨server, moved, rfl⟩ := step_server taken
      by_cases handles : HandlesCode h.server event
      · obtain ⟨rfl, bytes, reading⟩ := handles
        have whole : GetsWholeCode h.server .readDone := full
        exact good.serverHandles reading (getsWholeCode_iff.mp whole bytes rfl reading) moved
      · exact good.serverStep handles moved
  | client event =>
      obtain ⟨client, moved, rfl⟩ := step_client taken
      by_cases handles : HandlesCode h.client event
      · obtain ⟨rfl, bytes, reading⟩ := handles
        have whole : GetsWholeCode h.client .readDone := full
        exact good.clientHandles reading (getsWholeCode_iff.mp whole bytes rfl reading) moved
      · exact good.clientStep handles moved
  | toClient count =>
      obtain ⟨-, within, rfl⟩ := step_toClient taken
      exact good.arriveAtClient within
  | toServer count =>
      obtain ⟨-, within, rfl⟩ := step_toServer taken
      exact good.arriveAtServer within

/-! ## A short code -/

omit [FullLayout T] in
/-- The handler of the code leaves what has arrived, and starts the loop or no read. -/
theorem validationRead_fresh {c : Connection T} (connected : c.connecting = false)
    (noRead : c.reading = none) (bytes : List UInt8) :
    (c.validationRead bytes).connecting = false ∧
      (c.validationRead bytes).qMessagesIn = c.qMessagesIn ∧
      (c.validationRead bytes).inbox = c.inbox ∧
      ((c.validationRead bytes).reading = none ∨
        (c.validationRead bytes).reading = some ⟨.header, none⟩) := by
  simp only [validationRead]
  split
  · split
    · exact ⟨connected, rfl, rfl, .inr rfl⟩
    · exact ⟨rfl, rfl, rfl, .inl noRead⟩
  · exact ⟨connected, rfl, rfl, .inl noRead⟩

/-- An end that is in step after the handler of the code got all eight bytes of
it. -/
theorem whole_of_inStep {received bytes : List UInt8} {c : Connection T}
    (before : InStep received c) (alive : Alive c)
    (full : c.reading = some ⟨.validation, some bytes⟩)
    (after : InStep received (({ c with reading := none }).validationRead bytes)) :
    bytes.length = FixedLayout.size UInt64 := by
  obtain ⟨unseen, -, nothing⟩ := before.untouched_of_code full
  have connected := alive.connected_of_reading full
  have taken : received = bytes ++ c.inbox := by
    rw [← unseen, Connection.unread, full]
    rfl
  obtain ⟨isConnected, queue, inbox, fresh⟩ :=
    validationRead_fresh (c := { c with reading := none }) connected rfl bytes
  obtain ⟨code, length, split⟩ := split_of_fresh after isConnected (queue.trans nothing) fresh
  rw [inbox] at split
  change received = code ++ c.inbox at split
  rw [taken, List.append_left_inj] at split
  rw [split]
  exact length

/-- Ends that are aligned after a step got the whole code in it. -/
theorem Good.fullCode_of_aligned {clock : UInt64} {h next : Handshake T} {event : Event T}
    (good : Good clock h) (taken : h.step event = some next) (aligned : Aligned next) :
    FullCode h event := by
  cases event with
  | toClient count => trivial
  | toServer count => trivial
  | server event =>
      refine getsWholeCode_iff.mpr ?_
      rintro bytes rfl full
      obtain ⟨server, moved, rfl⟩ := step_server taken
      obtain ⟨-, -, moved⟩ := honestStep_eq_some moved
      obtain ⟨kind, data, reading, rfl⟩ := act_readDone (step_eq_some moved).2
      rw [full] at reading
      cases reading
      exact whole_of_inStep good.aligned.server good.serverAlive full aligned.server
  | client event =>
      refine getsWholeCode_iff.mpr ?_
      rintro bytes rfl full
      obtain ⟨client, moved, rfl⟩ := step_client taken
      obtain ⟨-, -, moved⟩ := honestStep_eq_some moved
      obtain ⟨kind, data, reading, rfl⟩ := act_readDone (step_eq_some moved).2
      rw [full] at reading
      cases reading
      exact whole_of_inStep good.aligned.client good.clientAlive full aligned.client

/-! ## The end of the handshake -/

/-- No step of the handshake is left for the end. -/
def Idle (c : Connection T) : Prop :=
  ∀ event : IoEvent T, ofHandshake c event = true → c.act event = none

theorem honestStep_of_handshake {c : Connection T} {event : IoEvent T}
    (allowed : ofHandshake c event = true) (noFault : c.fault = none) :
    honestStep c event = c.act event := by
  have legal : event.honest = true ∧ FramesFollow c event := by
    cases event <;> first | exact ⟨rfl, trivial⟩ | cases allowed
  simp only [honestStep, legal, and_self, if_true, Connection.step, noFault]

theorem AtRest.server {h : Handshake T} (rest : AtRest h) (noFault : h.server.fault = none) :
    Idle h.server := by
  intro event allowed
  have takes : takesOn h (.server event) = true := allowed
  have refused := rest (.server event) trivial
  rw [handshakeStep, if_pos takes, step, Option.map_eq_none_iff,
    honestStep_of_handshake allowed noFault] at refused
  exact refused

theorem AtRest.client {h : Handshake T} (rest : AtRest h) (noFault : h.client.fault = none) :
    Idle h.client := by
  intro event allowed
  have takes : takesOn h (.client event) = true := allowed
  have refused := rest (.client event) trivial
  rw [handshakeStep, if_pos takes, step, Option.map_eq_none_iff,
    honestStep_of_handshake allowed noFault] at refused
  exact refused

namespace Idle

variable {c : Connection T}

theorem connected (idle : Idle c) : c.connecting = false := by
  cases connecting : c.connecting with
  | false => rfl
  | true =>
      cases isOpen : c.isOpen with
      | false =>
          have refused := idle .socketOpened rfl
          simp [act, connecting, isOpen] at refused
      | true =>
          have refused := idle .connected rfl
          simp [act, connecting, isOpen] at refused

theorem isOpen (idle : Idle c) (alive : Alive c) : c.isOpen = true :=
  alive.isOpen.resolve_right fun connecting =>
    absurd (idle.connected.symm.trans connecting) (by decide)

/-- The write of the code has ended. -/
theorem noCodeWrite (idle : Idle c) (alive : Alive c) : codeWrites c.writing = [] := by
  rw [List.eq_nil_iff_forall_not_mem]
  intro op among
  obtain ⟨member, isCode⟩ := List.mem_filter.mp among
  obtain ⟨index, found⟩ := List.mem_iff_getElem?.mp member
  have allowed : (c.writing[index]?.any fun op => op.kind == .validation) = true := by
    rw [found]
    exact isCode
  obtain ⟨kind, rest⟩ := op
  cases rest with
  | nil =>
      have refused := idle (.writeDone index) allowed
      simp [act, found] at refused
  | cons byte rest =>
      have refused := idle (.transfer index 1) allowed
      simp [act, found, idle.isOpen alive] at refused

/-- An end that has received a whole code has started its loop. -/
theorem loopStarted {received : List UInt8} (idle : Idle c) (alive : Alive c)
    (inStep : InStep received c) (enough : FixedLayout.size UInt64 ≤ received.length) :
    LoopStarted received c := by
  cases inStep with
  | looping code stream length split reads goesOn =>
      exact ⟨code, stream, length, split, reads, goesOn⟩
  | replying _ _ _ _ _ _ _ oneReply =>
      obtain ⟨op, single⟩ := oneReply
      rw [idle.noCodeWrite alive] at single
      cases single
  | awaiting awaits unseen =>
      rcases awaits with connecting | ⟨data, reading⟩
      · exact absurd (idle.connected.symm.trans connecting) (by decide)
      · cases data with
        | some bytes =>
            have refused := idle .readDone (by simp [ofHandshake, reading])
            simp [act, reading] at refused
        | none =>
            have arrived : 8 ≤ c.inbox.length := by
              rwa [← unseen, Connection.unread, reading] at enough
            have may : c.mayFill 8 .validation = true := rfl
            have refused := idle (.fill 8) (by simp [ofHandshake, reading, FixedLayout.size])
            simp [act, reading, may, idle.isOpen alive, arrived] at refused

end Idle

omit [FullLayout T] in
/-- A code that is no longer being written is handed over. -/
theorem length_of_codePhase {code : List UInt8} {c : Connection T} (phase : CodePhase code c)
    (noCodeWrite : codeWrites c.writing = []) : code.length ≤ (handedOver c).length := by
  rw [length_handedOver]
  cases phase with
  | writing before after split bytes write => rw [write] at noCodeWrite; cases noCodeWrite
  | written more bytes =>
      rw [bytes, List.length_append, length_tagged]
      exact Nat.le_add_right _ _

/-- The code of the server has arrived. -/
theorem AtRest.atClient {h : Handshake T} (rest : AtRest h) (noFault : h.client.fault = none)
    (isOpen : h.client.isOpen = true)
    (written : FixedLayout.size UInt64 ≤ (handedOver h.server).length) :
    FixedLayout.size UInt64 ≤ h.atClient.length := by
  rw [Handshake.atClient, List.length_take]
  refine le_min ?_ written
  by_contra behind
  rw [length_handedOver] at written
  have refused := rest (.toClient 1) trivial
  have allowed : takesOn h (.toClient 1) = true := decide_eq_true (by omega)
  rw [handshakeStep, if_pos allowed, step, if_pos ⟨Nat.one_pos, by omega⟩] at refused
  simp [Connection.step, noFault, act, isOpen] at refused

/-- The answer of the client has arrived. -/
theorem AtRest.atServer {h : Handshake T} (rest : AtRest h) (noFault : h.server.fault = none)
    (isOpen : h.server.isOpen = true)
    (written : FixedLayout.size UInt64 ≤ (handedOver h.client).length) :
    FixedLayout.size UInt64 ≤ h.atServer.length := by
  rw [Handshake.atServer, List.length_take]
  refine le_min ?_ written
  by_contra behind
  rw [length_handedOver] at written
  have refused := rest (.toServer 1) trivial
  have allowed : takesOn h (.toServer 1) = true := decide_eq_true (by omega)
  rw [handshakeStep, if_pos allowed, step, if_pos ⟨Nat.one_pos, by omega⟩] at refused
  simp [Connection.step, noFault, act, isOpen] at refused

theorem not_awaits_of_loopStarted {received : List UInt8} {c : Connection T}
    (started : LoopStarted received c) : ¬ AwaitsCode c := by
  obtain ⟨code, stream, -, -, reads, goesOn⟩ := started
  refine not_awaits_of_loop reads.isOver.connected fun data reading => ?_
  obtain ⟨-, frames, -, -, phase⟩ := reads
  cases phase with
  | header data inHeader => rw [inHeader] at reading; cases reading
  | body data inBody => rw [inBody] at reading; cases reading
  | ended rest noRead => rw [noRead] at goesOn; cases goesOn

/-- **Aligned ends come to rest only when the handshake has ended.** -/
theorem Good.completed {clock : UInt64} {h : Handshake T} (good : Good clock h)
    (rest : AtRest h) : Completed h := by
  obtain ⟨_, serverFault, -⟩ := good.serverWrites
  obtain ⟨_, clientFault, -⟩ := good.clientWrites
  have serverIdle := rest.server serverFault
  have clientIdle := rest.client clientFault
  have codeWritten : FixedLayout.size UInt64 ≤ (handedOver h.server).length :=
    length_of_codePhase good.serverCode (serverIdle.noCodeWrite good.serverAlive)
  have client : LoopStarted h.atClient h.client :=
    clientIdle.loopStarted good.clientAlive good.aligned.client
      (rest.atClient clientFault (clientIdle.isOpen good.clientAlive) codeWritten)
  obtain ⟨codeIn, phase⟩ := good.clientCode (not_awaits_of_loopStarted client)
  have answerWritten : FixedLayout.size UInt64 ≤ (handedOver h.client).length :=
    length_of_codePhase phase (clientIdle.noCodeWrite good.clientAlive)
  have server : LoopStarted h.atServer h.server :=
    serverIdle.loopStarted good.serverAlive good.aligned.server
      (rest.atServer serverFault (serverIdle.isOpen good.serverAlive) answerWritten)
  exact ⟨good.aligned.accepted (not_awaits_of_loopStarted server), codeIn.trans good.codeOut.symm,
    server, client⟩

/-! ## The handshake can be ended -/

/-- No handler of `ReadValidation` is waiting with a part of the code. -/
def NoShortCode (c : Connection T) : Prop :=
  ∀ bytes, c.reading = some ⟨.validation, some bytes⟩ → bytes.length = FixedLayout.size UInt64

/-- What is left to do of the writes of codes. -/
def codeLeft (writing : List WriteOp) : ℕ :=
  ((codeWrites writing).map fun op => op.rest.length + 1).sum

/-- What is left to do of the read of a code. -/
def readLeft (c : Connection T) : ℕ :=
  match c.reading with
  | some ⟨.validation, none⟩ => 2
  | some ⟨.validation, some _⟩ => 1
  | _ => 0

/-- What is left to do of making the connection. -/
def connectLeft (c : Connection T) : ℕ :=
  if c.connecting then if c.isOpen then 1 else 2 else 0

/-- What is left to do for an end: the connection is made before the code is read,
and the code is read before the answer is written. -/
def endLeft (c : Connection T) : ℕ := 100 * connectLeft c + 20 * readLeft c + 2 * codeLeft c.writing

/-- What is left to do of the handshake. -/
def left (h : Handshake T) : ℕ :=
  endLeft h.server + endLeft h.client + (FixedLayout.size UInt64 - h.toClient) +
    (FixedLayout.size UInt64 - h.toServer)

omit [FullLayout T] in
theorem codeLeft_set {writing : List WriteOp} {index count : ℕ} {op : WriteOp}
    (found : writing[index]? = some op) (isCode : op.kind = .validation) (positive : 0 < count)
    (within : count ≤ op.rest.length) :
    codeLeft (writing.set index { op with rest := op.rest.drop count }) < codeLeft writing := by
  obtain ⟨before, after, split, set, -⟩ := exists_split_at found
  rw [set, split]
  simp only [codeLeft, codeWrites, List.filter_append, List.filter_cons, isCode, beq_self_eq_true,
    if_true, List.map_append, List.map_cons, List.sum_append, List.sum_cons, List.length_drop]
  omega

omit [FullLayout T] in
theorem codeLeft_eraseIdx {writing : List WriteOp} {index : ℕ} {op : WriteOp}
    (found : writing[index]? = some op) (isCode : op.kind = .validation) :
    codeLeft (writing.eraseIdx index) < codeLeft writing := by
  obtain ⟨before, after, split, -, erase⟩ := exists_split_at found
  rw [erase, split]
  simp only [codeLeft, codeWrites, List.filter_append, List.filter_cons, isCode, beq_self_eq_true,
    if_true, List.map_append, List.map_cons, List.sum_append, List.sum_cons]
  omega

omit [FullLayout T] in
/-- The answer of a client adds its eight bytes. -/
theorem codeLeft_append (writing : List WriteOp) (code : UInt64) :
    codeLeft (writing ++ [⟨.validation, toBytes code⟩]) = codeLeft writing + 9 := by
  have eight : (toBytes code).length = 8 := FixedLayout.length_toBytes code
  simp [codeLeft, codeWrites, eight]

omit [FullLayout T] in
theorem endLeft_lt_of_codeLeft {c d : Connection T} (connect : connectLeft d = connectLeft c)
    (read : readLeft d ≤ readLeft c) (less : codeLeft d.writing < codeLeft c.writing) :
    endLeft d < endLeft c := by
  rw [endLeft, endLeft, connect]
  omega

omit [FullLayout T] in
/-- The handler of the code ends the read and adds an answer at most. -/
theorem endLeft_validationRead {c : Connection T} {bytes : List UInt8}
    (full : c.reading = some ⟨.validation, some bytes⟩) :
    endLeft ({ c with reading := none }.validationRead bytes) < endLeft c ∧
      NoShortCode ({ c with reading := none }.validationRead bytes) := by
  have before : readLeft c = 1 := by rw [readLeft, full]
  simp only [validationRead]
  split
  · split
    · refine ⟨?_, by simp [NoShortCode, readHeader, startRead]⟩
      rw [endLeft, endLeft, before]
      change 100 * connectLeft c + 20 * 0 + _ < _
      simp [readHeader, startRead]
    · refine ⟨?_, by simp [NoShortCode, closeSocket]⟩
      rw [endLeft, endLeft, before]
      change 100 * 0 + 20 * 0 + 2 * codeLeft c.writing < _
      omega
  · refine ⟨?_, by simp [NoShortCode, Connection.writeValidation, startWrite]⟩
    rw [endLeft, endLeft, before]
    simp only [Connection.writeValidation, startWrite]
    rw [codeLeft_append]
    change 100 * connectLeft c + 20 * 0 + _ < _
    omega

/-- A step of the handshake leaves less to do for its end, and fills its read of the
code with the whole code. -/
theorem endLeft_lt {c d : Connection T} {event : IoEvent T} (allowed : ofHandshake c event = true)
    (whole : NoShortCode c) (taken : c.act event = some d) :
    endLeft d < endLeft c ∧ NoShortCode d := by
  cases event with
  | socketOpened =>
      obtain ⟨connecting, isClosed, rfl⟩ := act_socketOpened taken
      refine ⟨?_, whole⟩
      have before : connectLeft c = 2 := by simp [connectLeft, connecting, isClosed]
      have after : connectLeft { c with isOpen := true } = 1 := by simp [connectLeft, connecting]
      rw [endLeft, endLeft, before, after]
      change 100 * 1 + 20 * readLeft c + 2 * codeLeft c.writing < _
      omega
  | connected =>
      obtain ⟨connecting, isOpen, rfl⟩ := act_connected taken
      refine ⟨?_, nofun⟩
      have before : connectLeft c = 1 := by simp [connectLeft, connecting, isOpen]
      rw [endLeft, endLeft, before]
      change 100 * 0 + 20 * 2 + 2 * codeLeft c.writing < _
      omega
  | fill count =>
      obtain ⟨kind, pending, -, -, within, rfl⟩ := act_fill taken
      simp only [ofHandshake, Bool.and_eq_true, beq_iff_eq] at allowed
      obtain ⟨reading, rfl⟩ := allowed
      rw [pending] at reading
      cases reading
      refine ⟨?_, ?_⟩
      · have before : readLeft c = 2 := by rw [readLeft, pending]
        rw [endLeft, endLeft, before]
        change 100 * connectLeft c + 20 * 1 + 2 * codeLeft c.writing < _
        omega
      · rintro bytes ⟨⟩
        rw [List.length_take]
        exact min_eq_left within
  | readDone =>
      obtain ⟨kind, bytes, full, rfl⟩ := act_readDone taken
      simp only [ofHandshake, full, Option.any_some, beq_iff_eq] at allowed
      subst allowed
      exact endLeft_validationRead full
  | transfer index count =>
      obtain ⟨op, found, -, positive, within, rfl⟩ := act_transfer taken
      simp only [ofHandshake, found, Option.any_some, beq_iff_eq] at allowed
      have less := codeLeft_set found allowed positive within
      exact ⟨endLeft_lt_of_codeLeft rfl le_rfl less, whole⟩
  | writeDone index =>
      obtain ⟨kind, found, rfl⟩ := act_writeDone taken
      simp only [ofHandshake, found, Option.any_some, beq_iff_eq] at allowed
      subst allowed
      have less := codeLeft_eraseIdx found rfl
      rcases c.server_or_client with isServer | isClient
      · rw [settle_validationWritten_server (c := { c with writing := c.writing.eraseIdx index })
          isServer]
        exact ⟨endLeft_lt_of_codeLeft rfl le_rfl less, whole⟩
      · rw [settle_validationWritten_client (c := { c with writing := c.writing.eraseIdx index })
          isClient]
        exact ⟨endLeft_lt_of_codeLeft rfl (Nat.zero_le _) less, nofun⟩
  | send msg => cases allowed
  | disconnect => cases allowed
  | connectFailed => cases allowed
  | runPosted => cases allowed
  | arrive piece => cases allowed
  | readFail => cases allowed
  | writeFail index => cases allowed

/-- What the steps of the handshake keep: each handler gets the whole code. -/
structure Whole (clock : UInt64) (h : Handshake T) : Prop where
  good : Good clock h
  server : NoShortCode h.server
  client : NoShortCode h.client

theorem handshakeStep_eq_some {h next : Handshake T} {event : Event T}
    (taken : handshakeStep h event = some next) :
    takesOn h event = true ∧ h.step event = some next := by
  simp only [handshakeStep] at taken
  split at taken
  case isTrue allowed => exact ⟨allowed, taken⟩
  case isFalse => cases taken

theorem Whole.fullCode {clock : UInt64} {h : Handshake T} (whole : Whole clock h)
    (event : Event T) : FullCode h event := by
  cases event with
  | server event => exact getsWholeCode_iff.mpr fun bytes _ reading => whole.server bytes reading
  | client event => exact getsWholeCode_iff.mpr fun bytes _ reading => whole.client bytes reading
  | toClient count => trivial
  | toServer count => trivial

theorem Whole.step {clock : UInt64} {h next : Handshake T} {event : Event T}
    (whole : Whole clock h) (taken : handshakeStep h event = some next) :
    Whole clock next ∧ left next < left h := by
  obtain ⟨allowed, taken⟩ := handshakeStep_eq_some taken
  have good := whole.good.step taken (whole.fullCode event)
  cases event with
  | server event =>
      obtain ⟨server, moved, rfl⟩ := step_server taken
      obtain ⟨-, -, moved⟩ := honestStep_eq_some moved
      obtain ⟨less, noShort⟩ := endLeft_lt allowed whole.server (step_eq_some moved).2
      refine ⟨⟨good, noShort, whole.client⟩, ?_⟩
      simp only [left]
      omega
  | client event =>
      obtain ⟨client, moved, rfl⟩ := step_client taken
      obtain ⟨-, -, moved⟩ := honestStep_eq_some moved
      obtain ⟨less, noShort⟩ := endLeft_lt allowed whole.client (step_eq_some moved).2
      refine ⟨⟨good, whole.server, noShort⟩, ?_⟩
      simp only [left]
      omega
  | toClient count =>
      obtain ⟨positive, -, rfl⟩ := step_toClient taken
      refine ⟨⟨good, whole.server, whole.client⟩, ?_⟩
      have within := of_decide_eq_true allowed
      simp only [left]
      change _ + endLeft h.client + _ + _ < _
      omega
  | toServer count =>
      obtain ⟨positive, -, rfl⟩ := step_toServer taken
      refine ⟨⟨good, whole.server, whole.client⟩, ?_⟩
      have within := of_decide_eq_true allowed
      simp only [left]
      change endLeft h.server + _ + _ + _ < _
      omega

/-- **The handshake can be ended**, from every state in which no handler waits with a
part of the code. -/
theorem Whole.completes {clock : UInt64} {h : Handshake T} (whole : Whole clock h) :
    ∃ events final, runFrom Handshake.step h events = some final ∧ Completed final := by
  have keeps : ∀ (h : Handshake T) event next, Whole clock h → True →
      handshakeStep h event = some next → Whole clock next ∧ left next < left h :=
    fun _ _ _ whole _ taken => whole.step taken
  obtain ⟨events, final, -, run, rest⟩ := exists_exhausted_run left keeps h whole
  have kept : Whole clock final :=
    invariant_of_run (fun _ _ _ whole taken => (Whole.step whole taken).1) whole run
  refine ⟨events, final, runFrom_of_restricted ?_ run, kept.good.completed rest⟩
  exact fun _ _ _ taken => (handshakeStep_eq_some taken).2

/-- The handshake ends well: it comes to rest only when it is completed, and it can be
completed unless a handler waits with a part of the code. -/
structure EndsWell (h : Handshake T) : Prop where
  atRest : AtRest h → Completed h
  canEnd : NoShortCode h.server → NoShortCode h.client →
    ∃ events final, runFrom step h events = some final ∧ Completed final

/-- **The ends stay aligned and the handshake ends well throughout a run exactly when
each handler of the code gets the whole code.** -/
theorem aligned_iff [Inhabited T] (clock : UInt64) (welcome : List (Message T)) (uid : UInt32)
    {events : List (Event T)} {final : Handshake T}
    (run : runFrom step (start clock welcome uid) events = some final) :
    Throughout step (fun h => Aligned h ∧ EndsWell h) (start clock welcome uid) events ↔
      Meets step FullCode (start clock welcome uid) events := by
  have has : ∀ h : Handshake T, Good clock h → Aligned h ∧ EndsWell h := fun _ good =>
    ⟨good.aligned, good.completed, fun server client => Whole.completes ⟨good, server, client⟩⟩
  have keeps : ∀ (h : Handshake T) event next, Good clock h → True → step h event = some next →
      FullCode h event → Good clock next :=
    fun _ _ _ good _ taken full => good.step taken full
  have loses : ∀ (h : Handshake T) event next, Good clock h → True → step h event = some next →
      (Aligned next ∧ EndsWell next) → FullCode h event :=
    fun _ _ _ good _ taken property => good.fullCode_of_aligned taken property.1
  exact throughout_iff_meets_of_good has keeps loses (good_start clock welcome uid)
    (fun _ _ => trivial) run

/-- The streams arrive one byte at a time, and each code is read when it is
complete. -/
def byteByByte : List (Event CustomMsgTypes) :=
  [.client .socketOpened, .client .connected, .server (.transfer 0 8), .server (.writeDone 0)] ++
    List.replicate 8 (.toClient 1) ++
    [.client (.fill 8), .client .readDone, .client (.transfer 0 3), .client (.transfer 0 5),
      .client (.writeDone 0)] ++
    List.replicate 8 (.toServer 1) ++ [.server (.fill 8), .server .readDone]

theorem aligned_byteByByte :
    Throughout step (fun h => Aligned h ∧ EndsWell h)
      (start 0x0123456789abcdef [] 10000) byteByByte :=
  (aligned_iff 0x0123456789abcdef [] 10000
    (Option.some_get (by decide : (runFrom step (start 0x0123456789abcdef [] 10000)
      byteByByte).isSome = true)).symm).mpr (by decide)

/-- The first five bytes of the code arrive alone, and `async_read_some` hands them to
the handler. -/
def shortCode : List (Event CustomMsgTypes) :=
  [.client .socketOpened, .client .connected, .server (.transfer 0 8), .server (.writeDone 0),
    .toClient 5, .client (.fill 5), .client .readDone, .client (.transfer 0 8),
    .client (.writeDone 0), .toServer 8, .server (.fill 8), .server .readDone]

/-- The server gets an answer to another code, and closes the connection. -/
theorem shortCode_refused :
    ∃ final, runFrom step (start 0x0123456789abcdef [] 10000) shortCode = some final ∧
      final.server.isOpen = false ∧ ¬ Aligned final := by
  obtain ⟨final, run, closed, stopped, connected, differ⟩ :
      ∃ final, runFrom step (start 0x0123456789abcdef [] 10000) shortCode = some final ∧
        final.server.isOpen = false ∧ final.server.reading = none ∧
        final.server.connecting = false ∧
        final.server.validatonCodeIn ≠ final.server.validatonCodeSum :=
    ⟨(runFrom step (start 0x0123456789abcdef [] 10000) shortCode).get (by decide),
      (Option.some_get _).symm, by decide⟩
  refine ⟨final, run, closed, fun aligned => differ (aligned.accepted ?_)⟩
  refine not_awaits_of_loop connected fun data reading => ?_
  rw [stopped] at reading
  cases reading

end Handshake

end NetworkChat
