import NetworkChat.Server.Pairing
import NetworkChat.Foundation.Runs

/-!
# The server and everybody who ever connected

A hall is the server together with the connections it has accepted, in the order in
which they were accepted. Connections are accepted, sockets close, and messages
reach `OnMessage`, in any order; a message may come from any connection that was
ever accepted, also from one that was pruned since, and may be anything. An
exception that leaves `OnMessage` leaves `Update` and `main`, and no event is
taken after it.

The pairing is a matching in every state that a run reaches, and the end iterator
is never erased as long as the ids do not wrap (`pairing_of_run`). No message ends
the server exactly when every text, answer and close is handled while its sender
has a partner (`never_aborts_iff`).
-/

set_option autoImplicit false

namespace NetworkChat

open Foundation

structure Hall where
  server : CustomServer
  /-- The connections accepted so far. -/
  peers : List Peer
  /-- What left `OnMessage`. -/
  aborted : Option Fault

namespace Hall

def start : Hall := ⟨CustomServer.start, [], none⟩

/-- What the handlers see of a connection. -/
def view (hall : Hall) (client : ConnectionPtr) : Peer := hall.peers.getD client ⟨0, false⟩

inductive Event where
  /-- A connection is accepted. -/
  | accept
  /-- The socket of a connection closes, on either side. -/
  | close (client : ConnectionPtr)
  /-- `Update` gives a message to `OnMessage`. -/
  | message (client : ConnectionPtr) (msg : Message CustomMsgTypes)

/-- The handler of `async_accept`: `OnClientConnect` accepts everybody, and
`ConnectToClient` gives the next id. -/
def accept (hall : Hall) : Hall :=
  { hall with
    server := { hall.server with
      dequeConnections := hall.server.dequeConnections ++ [hall.peers.length],
      nIDCounter := hall.server.nIDCounter + 1 },
    peers := hall.peers ++ [⟨hall.server.nIDCounter, true⟩] }

def close (hall : Hall) (client : ConnectionPtr) : Hall :=
  { hall with
    peers := hall.peers.modify client fun peer => { peer with isConnected := false } }

/-- `Update` handles one message. -/
def handle (hall : Hall) (client : ConnectionPtr) (msg : Message CustomMsgTypes) : Hall :=
  match hall.server.onMessage hall.view client msg with
  | .ok (server, _) => { hall with server }
  | .error fault => { hall with aborted := some fault }

/-- The next state, if the event can happen. -/
def act (hall : Hall) : Event → Option Hall
  | .accept => some hall.accept
  | .close client => if client < hall.peers.length then some (hall.close client) else none
  | .message client msg =>
      if client < hall.peers.length then some (hall.handle client msg) else none

/-- One step. Nothing happens after an abort. -/
def step (hall : Hall) (event : Event) : Option Hall :=
  match hall.aborted with
  | some _ => none
  | none => hall.act event

theorem step_eq_some {hall next : Hall} {event : Event} (taken : hall.step event = some next) :
    hall.aborted = none ∧ hall.act event = some next := by
  cases aborted : hall.aborted with
  | none => exact ⟨rfl, by simpa only [step, aborted] using taken⟩
  | some fault => simp only [step, aborted] at taken; cases taken

theorem act_close {hall next : Hall} {client : ConnectionPtr}
    (taken : hall.act (.close client) = some next) :
    client < hall.peers.length ∧ next = hall.close client := by
  simp only [act] at taken
  split at taken
  case isTrue known => cases taken; exact ⟨known, rfl⟩
  case isFalse => cases taken

theorem act_message {hall next : Hall} {client : ConnectionPtr} {msg : Message CustomMsgTypes}
    (taken : hall.act (.message client msg) = some next) :
    client < hall.peers.length ∧ next = hall.handle client msg := by
  simp only [act] at taken
  split at taken
  case isTrue known => cases taken; exact ⟨known, rfl⟩
  case isFalse => cases taken

/-! ## The pairing over runs -/

/-- The map is the partner map of a matching. -/
def Paired (hall : Hall) : Prop :=
  ∃ matching : Matching UInt32, hall.server.clientConnections = matching.partner

/-- A message that is handled changes the pairing as a matching changes, or ends
the server and changes nothing. -/
theorem handle_cases {hall : Hall} {matching : Matching UInt32}
    (represents : hall.server.clientConnections = matching.partner) (client : ConnectionPtr)
    (msg : Message CustomMsgTypes) :
    (CustomServer.LongEnough msg ∧ CustomServer.Answerable hall.view hall.server client msg ∧
        ∃ after, hall.handle client msg = { hall with server := after } ∧
          CustomServer.Advances matching hall.server after) ∨
      (¬ (CustomServer.LongEnough msg ∧
          CustomServer.Answerable hall.view hall.server client msg) ∧
        ∃ fault, hall.handle client msg = { hall with aborted := some fault } ∧
          (fault = .eraseEnd →
            ∃ id, ¬ CustomServer.OneReceiver hall.view hall.server.dequeConnections id)) := by
  rcases CustomServer.onMessage_cases represents hall.view client msg with
    ⟨enough, answerable, after, calls, returned, advances⟩ | ⟨refused, fault, failed, why⟩
  · exact .inl ⟨enough, answerable, after, by rw [handle, returned], advances⟩
  · exact .inr ⟨refused, fault, by rw [handle, failed], why⟩

theorem paired_start : Paired start := ⟨Matching.empty, rfl⟩

theorem Paired.step {hall next : Hall} {event : Event} (paired : Paired hall)
    (taken : hall.step event = some next) : Paired next := by
  obtain ⟨matching, represents⟩ := paired
  obtain ⟨-, taken⟩ := step_eq_some taken
  cases event with
  | accept => cases taken; exact ⟨matching, represents⟩
  | close client => obtain ⟨-, rfl⟩ := act_close taken; exact ⟨matching, represents⟩
  | message client msg =>
      obtain ⟨-, rfl⟩ := act_message taken
      rcases handle_cases represents client msg with
        ⟨-, -, after, handled, advances⟩ | ⟨-, fault, failed, -⟩
      · rw [handled]
        obtain ⟨changed, -, represents⟩ := advances.pairing
        exact ⟨changed, represents⟩
      · rw [failed]
        exact ⟨matching, represents⟩

/-! ## Ids -/

def Event.isAccept : Event → Bool
  | .accept => true
  | _ => false

/-- How many connections were accepted. -/
def accepted (events : List Event) : ℕ := events.countP Event.isAccept

/-- The connections have the ids from 10000 on, as long as the counter does not
wrap, and the deque holds some of them in their order. -/
structure Numbered (hall : Hall) : Prop where
  ids : ∀ client peer, hall.peers[client]? = some peer → peer.id = UInt32.ofNat (10000 + client)
  counter : hall.server.nIDCounter = UInt32.ofNat (10000 + hall.peers.length)
  deque : hall.server.dequeConnections.Sublist (List.range hall.peers.length)

theorem numbered_start : Numbered start :=
  ⟨by simp [start], rfl, by simp [start, CustomServer.start]⟩

theorem Numbered.accept {hall : Hall} (numbered : Numbered hall) : Numbered hall.accept where
  ids client peer found := by
    simp only [Hall.accept, List.getElem?_append] at found
    split at found
    · exact numbered.ids client peer found
    · rename_i notBefore
      obtain ⟨isNew, rfl⟩ : client - hall.peers.length = 0 ∧
          ⟨hall.server.nIDCounter, true⟩ = peer := by
        simpa [List.getElem?_singleton] using found
      have same : client = hall.peers.length := by omega
      rw [same]
      exact numbered.counter
  counter := by
    simp only [Hall.accept, numbered.counter, List.length_append, List.length_singleton]
    exact (UInt32.ofNat_add (10000 + hall.peers.length) 1).symm
  deque := by
    simp only [Hall.accept, List.length_append, List.length_singleton, List.range_succ]
    exact numbered.deque.append (List.Sublist.refl _)

theorem Numbered.close {hall : Hall} (numbered : Numbered hall) (client : ConnectionPtr) :
    Numbered (hall.close client) where
  ids other peer found := by
    simp only [Hall.close, List.getElem?_modify] at found
    obtain ⟨before, was, rfl⟩ := Option.map_eq_some_iff.mp found
    have same := numbered.ids other before was
    split <;> exact same
  counter := by
    simp only [Hall.close, List.length_modify]
    exact numbered.counter
  deque := by
    simp only [Hall.close, List.length_modify]
    exact numbered.deque

theorem Numbered.of_server {hall : Hall} (numbered : Numbered hall) {after : CustomServer}
    (deque : after.dequeConnections.Sublist hall.server.dequeConnections)
    (counter : after.nIDCounter = hall.server.nIDCounter) :
    Numbered { hall with server := after } :=
  ⟨numbered.ids, counter.trans numbered.counter, deque.trans numbered.deque⟩

/-- Different connections have different ids, as long as the counter has not
wrapped. -/
theorem Numbered.client_of_id {hall : Hall} (numbered : Numbered hall)
    (few : hall.peers.length + 10000 ≤ 2 ^ 32) {first second : ConnectionPtr}
    (firstKnown : first < hall.peers.length) (secondKnown : second < hall.peers.length)
    (same : (hall.view first).id = (hall.view second).id) : first = second := by
  have idOf : ∀ client, client < hall.peers.length →
      (hall.view client).id.toNat = 10000 + client := by
    intro client known
    have found : hall.peers[client]? = some (hall.view client) := by
      simp [view, List.getD, known]
    rw [numbered.ids client _ found, UInt32.toNat_ofNat', Nat.mod_eq_of_lt (by omega)]
  have values := congrArg UInt32.toNat same
  rw [idOf first firstKnown, idOf second secondKnown] at values
  exact Nat.add_left_cancel values

/-- No two connections of the deque share an id. -/
theorem Numbered.oneReceiver {hall : Hall} (numbered : Numbered hall)
    (few : hall.peers.length + 10000 ≤ 2 ^ 32) (id : UInt32) :
    CustomServer.OneReceiver hall.view hall.server.dequeConnections id := by
  rw [CustomServer.OneReceiver]
  split
  · rename_i first second more split
    have ofDeque : (first :: second :: more).Sublist hall.server.dequeConnections := by
      rw [← split]
      exact List.filter_sublist
    have holds : ∀ client ∈ first :: second :: more,
        client < hall.peers.length ∧ (hall.view client).id = id := by
      intro client member
      refine ⟨List.mem_range.mp ((ofDeque.trans numbered.deque).subset member), ?_⟩
      rw [← split] at member
      simpa using (List.mem_filter.mp member).2
    have distinct : (first :: second :: more).Nodup :=
      (List.nodup_range).sublist (ofDeque.trans numbered.deque)
    obtain ⟨firstKnown, firstId⟩ := holds first (by simp)
    obtain ⟨secondKnown, secondId⟩ := holds second (by simp)
    have same := numbered.client_of_id few firstKnown secondKnown (firstId.trans secondId.symm)
    simp [same] at distinct
  · trivial

/-- What a run keeps that has accepted so many connections. -/
structure Kept (past : List Event) (hall : Hall) : Prop where
  paired : Paired hall
  numbered : Numbered hall
  count : hall.peers.length = accepted past
  noEraseEnd : accepted past + 10000 ≤ 2 ^ 32 → hall.aborted ≠ some .eraseEnd

theorem kept_start : Kept [] start :=
  ⟨paired_start, numbered_start, rfl, nofun⟩

theorem Kept.step {past : List Event} {hall next : Hall} {event : Event} (kept : Kept past hall)
    (taken : hall.step event = some next) : Kept (past ++ [event]) next := by
  have paired := kept.paired.step taken
  obtain ⟨goesOn, taken⟩ := step_eq_some taken
  have counts : accepted (past ++ [event]) = accepted past + accepted [event] :=
    List.countP_append
  cases event with
  | accept =>
      cases taken
      refine ⟨paired, kept.numbered.accept, ?_, fun _ => goesOn ▸ nofun⟩
      rw [counts, ← kept.count]
      exact List.length_append
  | close client =>
      obtain ⟨-, rfl⟩ := act_close taken
      refine ⟨paired, kept.numbered.close client, ?_, fun _ => goesOn ▸ nofun⟩
      rw [counts, ← kept.count]
      exact List.length_modify ..
  | message client msg =>
      obtain ⟨-, rfl⟩ := act_message taken
      have sameCount : accepted (past ++ [.message client msg]) = accepted past := counts
      obtain ⟨matching, represents⟩ := kept.paired
      rcases handle_cases represents client msg with
        ⟨-, -, after, handled, advances⟩ | ⟨-, fault, failed, why⟩
      · rw [handled] at paired ⊢
        exact ⟨paired, kept.numbered.of_server advances.deque advances.counter,
          kept.count.trans sameCount.symm, fun _ => goesOn ▸ nofun⟩
      · rw [failed] at paired ⊢
        refine ⟨paired, ⟨kept.numbered.ids, kept.numbered.counter, kept.numbered.deque⟩,
          kept.count.trans sameCount.symm, ?_⟩
        intro few isEraseEnd
        obtain ⟨id, several⟩ := why (Option.some.inj isEraseEnd)
        rw [sameCount, ← kept.count] at few
        exact several (kept.numbered.oneReceiver few id)

/-- **The pairing is symmetric and irreflexive in every state of a run, and the end
iterator is never erased**, as long as the ids do not wrap. -/
theorem pairing_of_run {final : Hall} {events : List Event}
    (few : accepted events < 2 ^ 32 - 10000) (run : runFrom step start events = some final) :
    (∀ first second, final.server.clientConnections first = some second →
        final.server.clientConnections second = some first ∧ first ≠ second) ∧
      final.aborted ≠ some .eraseEnd := by
  have kept : Kept events final :=
    history_invariant_of_run (fun _ _ _ _ kept taken => Kept.step kept taken) kept_start run
  obtain ⟨matching, represents⟩ := kept.paired
  refine ⟨?_, kept.noEraseEnd (by omega)⟩
  intro first second paired
  rw [represents] at paired ⊢
  exact ⟨matching.symmetric _ _ paired, matching.ne_of_partner paired⟩

/-- Two clients connect and the first asks for the second. -/
def requestToSecond : List Event :=
  [.accept, .accept, .message 0 (CustomServer.idMsg .requestToClient 10001)]

theorem pairing_of_requestToSecond :
    ∃ final, runFrom step start requestToSecond = some final ∧
      final.server.clientConnections 10000 = some 10001 ∧
      (final.server.clientConnections 10001 = some 10000 ∧ (10000 : UInt32) ≠ 10001) :=
  ⟨(runFrom step start requestToSecond).get (by decide), (Option.some_get _).symm, by decide,
    (pairing_of_run (by decide) (Option.some_get _).symm).1 _ _ (by decide)⟩

/-! ## When a message ends the server -/

/-- A message is handled while it is answerable. -/
def AnswerableStep (hall : Hall) : Event → Prop
  | .message client msg => CustomServer.Answerable hall.view hall.server client msg
  | _ => True

instance (hall : Hall) (event : Event) : Decidable (AnswerableStep hall event) := by
  unfold AnswerableStep
  split <;> infer_instance

/-- The body is long enough for what the handler takes from it. -/
def LongEnough : Event → Prop
  | .message _ msg => CustomServer.LongEnough msg
  | _ => True

instance (event : Event) : Decidable (LongEnough event) := by
  unfold LongEnough
  split <;> infer_instance

/-- A step aborts exactly when it handles a message that is not answerable. -/
theorem step_aborts_iff {hall next : Hall} {event : Event} (paired : Paired hall)
    (enough : LongEnough event) (taken : hall.step event = some next) :
    next.aborted = none ↔ AnswerableStep hall event := by
  obtain ⟨matching, represents⟩ := paired
  obtain ⟨goesOn, taken⟩ := step_eq_some taken
  cases event with
  | accept => cases taken; exact iff_of_true goesOn trivial
  | close client => obtain ⟨-, rfl⟩ := act_close taken; exact iff_of_true goesOn trivial
  | message client msg =>
      obtain ⟨-, rfl⟩ := act_message taken
      rcases handle_cases represents client msg with
        ⟨-, answerable, after, handled, -⟩ | ⟨refused, fault, failed, -⟩
      · rw [handled]
        exact iff_of_true goesOn answerable
      · rw [failed]
        exact iff_of_false nofun fun answerable => refused ⟨enough, answerable⟩

/-- **No message ends the server exactly when every text, answer and close is
handled while its sender has a partner**: in a run whose messages are long enough
for the handlers, the server goes on in every state if and only if every message is
answerable in the state in which it is handled. -/
theorem never_aborts_iff {final : Hall} {events : List Event}
    (enough : ∀ event ∈ events, LongEnough event)
    (run : runFrom step start events = some final) :
    Throughout step (fun hall => hall.aborted = none) start events ↔
      Meets step AnswerableStep start events := by
  have keeps : ∀ hall event next, Paired hall → step hall event = some next → Paired next :=
    fun _ _ _ paired taken => paired.step taken
  have exact_step : ∀ hall event next, Paired hall → hall.aborted = none → LongEnough event →
      step hall event = some next → (next.aborted = none ↔ AnswerableStep hall event) :=
    fun _ _ _ paired _ enough taken => step_aborts_iff paired enough taken
  exact throughout_iff_meets keeps exact_step paired_start rfl enough run

/-- A text that crosses the close of its partner: two clients are paired, the second
closes the chat, and the first has still sent a text. -/
def textAfterClose : List Event :=
  requestToSecond ++
    [.message 1 (.ofType .closeClient), .message 0 (Message.pushString (.ofType .textClient) [104])]

/-- The text ends the server. -/
theorem text_after_close_aborts :
    ∃ final, runFrom step start textAfterClose = some final ∧
      (∀ event ∈ textAfterClose, LongEnough event) ∧ final.aborted = some .outOfRange :=
  ⟨(runFrom step start textAfterClose).get (by decide), (Option.some_get _).symm, by decide,
    by decide⟩

/-- The second client accepts, the first sends a text, and the second closes the chat. -/
def chatToItsEnd : List Event :=
  requestToSecond ++
    [.message 1 ((Message.ofType .requestAnswer).push (1 : UInt32)),
      .message 0 (Message.pushString (.ofType .textClient) [104]),
      .message 1 (.ofType .closeClient)]

/-- In a chat with its answer, text and close every message is answerable. -/
theorem never_aborts_chatToItsEnd :
    Throughout step (fun hall => hall.aborted = none) start chatToItsEnd :=
  (never_aborts_iff (by decide) (Option.some_get (by decide)).symm).mpr (by decide)

end Hall

end NetworkChat
