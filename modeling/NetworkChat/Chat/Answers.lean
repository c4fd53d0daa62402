import NetworkChat.Chat.Room

/-!
# Whose answer it is

An answer carries a code and no id. `ExecuteMessages` takes it for the answer of the client in
`ConnectionRequestId`, which it reads and then writes to `ConnectedToId`.

A request can still be accepted while it is on its way, while the client that it was sent to
has it in `ConnectionRequestId`, and while its acceptance is on its way or is handled
(`acceptable`); from the send of the acceptance on it is under way (`underWay`). What is written
is the client that sent the answer, to the request that waits for it, in every run in which
an acceptance is sent for a request that its asker stands by (`StandsBy`), no other id is stored
while it is under way, and it goes to the client that asked (`answersAttributed_of_meets`). A
client that aborts one request and sends another takes the acceptance of the first for one of the
second (`stale_attributed`).
-/

set_option autoImplicit false

namespace NetworkChat

open Foundation

namespace ChatClient

/-! ## Requests that can be accepted -/

/-- The request that the line stores, or whose acceptance it handles. -/
def ExecuteLine.ticket : ExecuteLine → Option Ticket
  | .storeRequest _ ticket => ticket
  | .loadRequest answer => answer.ticket
  | .storeConnected _ answer => answer.ticket
  | _ => none

/-- The request whose acceptance the line handles. -/
def ExecuteLine.answers : ExecuteLine → Option Ticket
  | .loadRequest answer => answer.ticket
  | .storeConnected _ answer => answer.ticket
  | _ => none

theorem ExecuteLine.ticket_of_answers {line : ExecuteLine} {ticket : Ticket}
    (answers : ExecuteLine.answers line = some ticket) : ExecuteLine.ticket line = some ticket := by
  cases line with
  | loadRequest answer => exact answers
  | storeConnected id answer => exact answers
  | _ => cases answers

/-- The requests that can be accepted because of what is with a client or on its way to or
from it. Its own request in `ConnectionRequestId` is none of them. -/
def acceptable (self : ConnectionPtr) (c : ChatClient) : List Ticket :=
  (c.outgoing ++ c.incoming).filterMap
    (fun envelope => ExecuteLine.ticket (executeLine envelope)) ++
    ((ExecuteLine.ticket c.execute).toList ++ (UserLine.accepting c.user).toList ++
      (c.request.filter fun ticket => ticket.asker ≠ self).toList)

theorem mem_acceptable {self : ConnectionPtr} {c : ChatClient} {ticket : Ticket} :
    ticket ∈ c.acceptable self ↔
      (∃ envelope ∈ c.outgoing, ExecuteLine.ticket (executeLine envelope) = some ticket) ∨
      (∃ envelope ∈ c.incoming, ExecuteLine.ticket (executeLine envelope) = some ticket) ∨
      ExecuteLine.ticket c.execute = some ticket ∨ UserLine.accepting c.user = some ticket ∨
      (c.request = some ticket ∧ ticket.asker ≠ self) := by
  simp only [acceptable, List.mem_append, List.mem_filterMap, Option.mem_toList,
    Option.filter_eq_some_iff, decide_eq_true_eq, or_and_right, exists_or, or_assoc]

/-- The requests whose acceptance is on its way to or from a client, or is handled by it. -/
def underWay (c : ChatClient) : List Ticket :=
  (c.outgoing ++ c.incoming).filterMap
    (fun envelope => ExecuteLine.answers (executeLine envelope)) ++
    (ExecuteLine.answers c.execute).toList

theorem mem_underWay {c : ChatClient} {ticket : Ticket} :
    ticket ∈ c.underWay ↔
      (∃ envelope ∈ c.outgoing, ExecuteLine.answers (executeLine envelope) = some ticket) ∨
      (∃ envelope ∈ c.incoming, ExecuteLine.answers (executeLine envelope) = some ticket) ∨
      ExecuteLine.answers c.execute = some ticket := by
  simp only [underWay, List.mem_append, List.mem_filterMap, Option.mem_toList, or_and_right,
    exists_or, or_assoc]

/-- What is under way can be accepted. -/
theorem acceptable_of_underWay {self : ConnectionPtr} {c : ChatClient} {ticket : Ticket}
    (accepted : ticket ∈ c.underWay) : ticket ∈ c.acceptable self := by
  rcases mem_underWay.mp accepted with ⟨envelope, sent, has⟩ | ⟨envelope, queued, has⟩ | has
  · exact mem_acceptable.mpr (.inl ⟨envelope, sent, ExecuteLine.ticket_of_answers has⟩)
  · exact mem_acceptable.mpr (.inr (.inl ⟨envelope, queued, ExecuteLine.ticket_of_answers has⟩))
  · exact mem_acceptable.mpr (.inr (.inr (.inl (ExecuteLine.ticket_of_answers has))))

/-- A line of a message belongs to the request of the message. -/
theorem executeLine_ticket {envelope : Envelope} {ticket : Ticket}
    (has : ExecuteLine.ticket (executeLine envelope) = some ticket) :
    envelope.ticket = some ticket := by
  rcases executeLine_cases envelope with ⟨id, line⟩ | line | line | line | line | line
  all_goals
    rw [line] at has
    first
      | exact has
      | cases has

/-- An acceptance is the answer whose handling begins. -/
theorem eq_of_executeLine_load {envelope answer : Envelope}
    (loads : executeLine envelope = .loadRequest answer) : answer = envelope := by
  rcases executeLine_cases envelope with ⟨id, line⟩ | line | line | line | line | line
  all_goals cases line.symm.trans loads
  rfl

theorem executeLine_ne_storeConnected {envelope answer : Envelope} {id : UInt32} :
    executeLine envelope ≠ .storeConnected id answer := by
  intro stores
  rcases executeLine_cases envelope with ⟨other, line⟩ | line | line | line | line | line
  all_goals cases line.symm.trans stores

/-- A request is no acceptance. -/
theorem executeLine_connectRequest_ne {sender : ConnectionPtr} {asked : UInt32}
    {ticket : Option Ticket} {answer : Envelope} :
    executeLine ⟨sender, CustomClient.connectRequest asked, ticket⟩ ≠ .loadRequest answer := by
  intro loads
  have reads : readMessage (CustomClient.connectRequest asked) = .ok (.requestToClient asked) :=
    readMessage_idMsg asked
  simp only [executeLine, reads, receivedLine] at loads
  split at loads <;> cases loads

theorem executeLine_connectRequest_answers {sender : ConnectionPtr} {asked : UInt32}
    {request : Option Ticket} {ticket : Ticket} :
    ExecuteLine.answers (executeLine ⟨sender, CustomClient.connectRequest asked, request⟩) ≠
      some ticket := by
  intro answers
  have reads : readMessage (CustomClient.connectRequest asked) = .ok (.requestToClient asked) :=
    readMessage_idMsg asked
  simp only [executeLine, reads, receivedLine] at answers
  split at answers <;> cases answers

/-- The id that the line writes to `ConnectedToId`, and 0 for all other lines. -/
def ExecuteLine.writes : ExecuteLine → UInt32
  | .storeConnected id _ => id
  | _ => 0

/-! ## What a step does with requests -/

section Steps

variable {self : ConnectionPtr} {c d : ChatClient} {event : Event}

/-- `ConnectionRequestId` is left alone, is reset, or is set to the request of the command or of
the message. -/
theorem Steps.request (steps : Steps self c event d) :
    (d.ids.connectionRequestId = c.ids.connectionRequestId ∧ d.request = c.request ∧
        ∀ ticket, UserLine.storing c.user = some ticket →
          UserLine.storing d.user = some ticket) ∨
      (d.ids.connectionRequestId = 0 ∧ d.request = none ∧ c.requestStore event = some 0) ∨
      (∃ ticket, event = .user ∧ c.user = .storeRequest ticket ∧
        d.user = .lockConnect ticket ∧ d.ids.connectionRequestId = ticket.asked ∧
          d.request = some ticket) ∨
      (∃ id ticket, event = .execute ∧ c.execute = .storeRequest id ticket ∧
        d.ids.connectionRequestId = id ∧ d.request = ticket) := by
  cases steps with
  | storeRequest ticket line => exact .inr (.inr (.inl ⟨ticket, rfl, line, rfl, rfl, rfl⟩))
  | eraseRequest event line abort passes erases stores => exact .inr (.inl ⟨rfl, rfl, stores⟩)
  | executeStoreRequest id ticket line => exact .inr (.inr (.inr ⟨id, ticket, rfl, line, rfl, rfl⟩))
  | executeReset line => exact .inr (.inl ⟨rfl, rfl, by simp only [requestStore, line]⟩)
  | executeCloseRequest line => exact .inr (.inl ⟨rfl, rfl, by simp only [requestStore, line]⟩)
  | lines event user abort passes erases =>
      exact .inl ⟨rfl, rfl, fun _ stores => passes.storing.trans stores⟩
  | sendClose event user abort passes erases =>
      exact .inl ⟨rfl, rfl, fun _ stores => passes.storing.trans stores⟩
  | eraseConnected event user abort passes erases =>
      exact .inl ⟨rfl, rfl, fun _ stores => passes.storing.trans stores⟩
  | answer command accepted line asked =>
      exact .inl ⟨rfl, rfl, by rw [line]; intro ticket stores; cases stores⟩
  | connectTo id line => exact .inl ⟨rfl, rfl, by rw [line]; intro ticket stores; cases stores⟩
  | sendAnswer accepted other line =>
      exact .inl ⟨rfl, rfl, by rw [line]; intro ticket stores; cases stores⟩
  | storeConnected id line => exact .inl ⟨rfl, rfl, by rw [line]; intro ticket stores; cases stores⟩
  | sendText caller data line =>
      exact .inl ⟨rfl, rfl, by rw [line]; intro ticket stores; cases stores⟩
  | _ => exact .inl ⟨rfl, rfl, fun _ stores => stores⟩

/-- A command waits for its request as long as `ConnectionRequestId` holds it. -/
theorem Steps.outstanding (steps : Steps self c event d) {ticket : Ticket}
    (waits : UserLine.outstanding c.user = some ticket)
    (holds : c.ids.connectionRequestId = ticket.asked ∨ c.user = .storeRequest ticket) :
    UserLine.outstanding d.user = some ticket := by
  have still : ∀ user, Passes c user → UserLine.outstanding user = some ticket := by
    intro user passes
    rcases passes.outstanding with same | ⟨other, waitsFor, differs, -⟩
    · exact same.trans waits
    · cases waitsFor.symm.trans waits
      rcases holds with holds | line
      · exact absurd holds differs
      · have storing := passes.storing
        rw [line] at storing
        cases isLine : user <;> rw [isLine] at storing <;> cases storing
        rfl
  cases steps with
  | lines event user abort passes erases => exact still user passes
  | answer command accepted line asked => rw [line] at waits; cases waits
  | connectTo id line => rw [line] at waits; cases waits
  | storeRequest other line => rw [line] at waits; exact waits
  | sendAnswer accepted other line => rw [line] at waits; cases waits
  | storeConnected id line => rw [line] at waits; cases waits
  | sendText caller data line => rw [line] at waits; cases waits
  | sendClose event user abort passes erases => exact still user passes
  | eraseConnected event user abort passes erases => exact still user passes
  | eraseRequest event user abort passes erases stores => exact still user passes
  | _ => exact waits

theorem Steps.requests_le (steps : Steps self c event d) : c.requests ≤ d.requests := by
  cases steps with
  | connectTo id line => exact Nat.le_succ c.requests
  | _ => exact Nat.le_refl c.requests

/-- Which request a command waits for changes when a request is sent only. -/
theorem Steps.outstanding_of (steps : Steps self c event d) {ticket : Ticket}
    (waits : UserLine.outstanding d.user = some ticket) :
    UserLine.outstanding c.user = some ticket ∨ ticket.asker = self := by
  have still : ∀ user, Passes c user → UserLine.outstanding user = some ticket →
      UserLine.outstanding c.user = some ticket := by
    intro user passes waits
    rcases passes.outstanding with same | ⟨-, -, -, nobody⟩
    · exact same.symm.trans waits
    · cases nobody.symm.trans waits
  cases steps with
  | lines event user abort passes erases => exact .inl (still user passes waits)
  | answer command accepted line asked => cases waits
  | connectTo id line => cases waits; exact .inr rfl
  | storeRequest other line => rw [line]; exact .inl waits
  | sendAnswer accepted other line => cases accepted <;> cases waits
  | storeConnected id line => cases waits
  | sendText caller data line => cases waits
  | sendClose event user abort passes erases => exact .inl (still user passes waits)
  | eraseConnected event user abort passes erases => exact .inl (still user passes waits)
  | eraseRequest event user abort passes erases stores => exact .inl (still user passes waits)
  | _ => exact .inl waits

theorem Steps.storing_of (steps : Steps self c event d) {ticket : Ticket}
    (stores : UserLine.storing d.user = some ticket) :
    UserLine.storing c.user = some ticket ∨
      (ticket.asker = self ∧ ticket.number = c.requests) := by
  cases steps with
  | lines event user abort passes erases => exact .inl (passes.storing.symm.trans stores)
  | answer command accepted line asked => cases stores
  | connectTo id line => cases stores; exact .inr ⟨rfl, rfl⟩
  | storeRequest other line => cases stores
  | sendAnswer accepted other line => cases accepted <;> cases stores
  | storeConnected id line => cases stores
  | sendText caller data line => cases stores
  | sendClose event user abort passes erases => exact .inl (passes.storing.symm.trans stores)
  | eraseConnected event user abort passes erases => exact .inl (passes.storing.symm.trans stores)
  | eraseRequest event user abort passes erases stored =>
      exact .inl (passes.storing.symm.trans stores)
  | _ => exact .inl stores

/-- Which request is accepted changes by a command only, which takes the one in
`ConnectionRequestId`. -/
theorem Steps.accepting_of (steps : Steps self c event d) {ticket : Ticket}
    (accepts : UserLine.accepting d.user = some ticket) :
    UserLine.accepting c.user = some ticket ∨ (c.user = .prompt ∧ c.request = some ticket) := by
  cases steps with
  | lines event user abort passes erases => exact .inl (passes.accepting.symm.trans accepts)
  | answer command accepted line asked =>
      cases accepted with
      | true => exact .inr ⟨line, accepts⟩
      | false => cases accepts
  | connectTo id line => cases accepts
  | storeRequest other line => cases accepts
  | sendAnswer accepted other line => cases accepted <;> cases accepts
  | storeConnected id line => cases accepts
  | sendText caller data line => cases accepts
  | sendClose event user abort passes erases => exact .inl (passes.accepting.symm.trans accepts)
  | eraseConnected event user abort passes erases =>
      exact .inl (passes.accepting.symm.trans accepts)
  | eraseRequest event user abort passes erases stores =>
      exact .inl (passes.accepting.symm.trans accepts)
  | _ => exact .inl accepts

/-- What is sent is a request with the next number, the answer of the line, or belongs to no
request. -/
theorem Steps.sent_of (steps : Steps self c event d) {envelope : Envelope}
    (sent : envelope ∈ d.outgoing) :
    envelope ∈ c.outgoing ∨ envelope.ticket = none ∨
      (∃ asked, envelope = ⟨self, CustomClient.connectRequest asked,
        some ⟨self, asked, c.requests⟩⟩ ∧
        d.requests = c.requests + 1 ∧ d.user = .storeRequest ⟨self, asked, c.requests⟩) ∨
      (∃ accepted ticket, event = .user ∧ c.user = .sendAnswer accepted ticket ∧
        envelope = ⟨self, CustomClient.requestAnswer accepted, ticket⟩) := by
  have last : ∀ new, envelope ∈ c.outgoing ++ [new] → envelope ∈ c.outgoing ∨ envelope = new :=
    fun new member => (List.mem_append.mp member).imp_right List.mem_singleton.mp
  cases steps with
  | connectTo id line =>
      exact (last _ sent).imp_right fun same => .inr (.inl ⟨id, same, rfl, rfl⟩)
  | sendAnswer accepted ticket line =>
      exact (last _ sent).imp_right fun same => .inr (.inr ⟨accepted, ticket, rfl, line, same⟩)
  | sendText caller data line =>
      exact (last _ sent).imp_right fun same => .inl (by rw [same])
  | sendClose event user abort passes erases =>
      exact (last _ sent).imp_right fun same => .inl (by rw [same])
  | _ => exact .inl sent

/-- `ExecuteMessages` rests, takes a message, reads the id or comes to a line that handles no
request. -/
theorem Steps.executes (steps : Steps self c event d) :
    (d.execute = c.execute ∧ d.incoming = c.incoming) ∨
      (∃ envelope, event = .execute ∧ c.execute = .idle ∧ c.incoming = envelope :: d.incoming ∧
        d.execute = executeLine envelope ∧ d.ids = c.ids ∧ d.user = c.user) ∨
      (∃ answer, c.execute = .loadRequest answer ∧ d.incoming = c.incoming ∧
        d.execute = .storeConnected c.ids.connectionRequestId answer ∧ d.ids = c.ids ∧
          d.user = c.user) ∨
      (d.incoming = c.incoming ∧
        (d.execute = .idle ∨ d.execute = .reset ∨ d.execute = .closeRequest)) := by
  cases steps with
  | take envelope later line queue => exact .inr (.inl ⟨envelope, rfl, line, queue, rfl, rfl, rfl⟩)
  | executeStoreRequest id ticket line => exact .inr (.inr (.inr ⟨rfl, .inl rfl⟩))
  | executeLoad answer line => exact .inr (.inr (.inl ⟨answer, line, rfl, rfl, rfl, rfl⟩))
  | executeStoreConnected id answer line => exact .inr (.inr (.inr ⟨rfl, .inr (.inl rfl)⟩))
  | executeReset line => exact .inr (.inr (.inr ⟨rfl, .inl rfl⟩))
  | executeCloseConnected line => exact .inr (.inr (.inr ⟨rfl, .inr (.inr rfl)⟩))
  | executeCloseRequest line => exact .inr (.inr (.inr ⟨rfl, .inl rfl⟩))
  | _ => exact .inl ⟨rfl, rfl⟩

end Steps

/-! ## What the requests of a client say -/

/-- The line handles a request to the client, or an answer of the client that was asked to a
request of the client. -/
def LineFits (names : ConnectionPtr → UInt32 → Prop) (self : ConnectionPtr) : ExecuteLine → Prop
  | .storeRequest _ ticket =>
      ∀ asked, ticket = some asked → names self asked.asked ∧ asked.asker ≠ self
  | .loadRequest answer | .storeConnected _ answer =>
      ∃ ticket, answer.ticket = some ticket ∧ ticket.asker = self ∧
        names answer.sender ticket.asked
  | _ => True

/-- What holds of a client and of the requests that it has sent or was sent. -/
structure Fits (names : ConnectionPtr → UInt32 → Prop) (client : ConnectionPtr)
    (c : ChatClient) : Prop where
  asks : ∀ ticket, UserLine.outstanding c.user = some ticket → ticket.asker = client
  own : ∀ ticket, c.request = some ticket → ticket.asker = client →
    c.ids.connectionRequestId = ticket.asked ∧ UserLine.outstanding c.user = some ticket
  asked : ∀ ticket, c.request = some ticket → ticket.asker ≠ client → names client ticket.asked
  accepting : ∀ ticket, UserLine.accepting c.user = some ticket → names client ticket.asked
  accepted : ∀ envelope ∈ c.outgoing, ∀ ticket, executeLine envelope = .loadRequest envelope →
    envelope.ticket = some ticket → names client ticket.asked
  incoming : ∀ envelope ∈ c.incoming, LineFits names client (executeLine envelope)
  execute : LineFits names client c.execute
  /-- Its command has stored the id, unless there is none to be read. -/
  loads : ∀ answer, c.execute = .loadRequest answer →
    c.ids.connectionRequestId = 0 ∨ UserLine.storing c.user ≠ answer.ticket
  stores : ∀ id answer, c.execute = .storeConnected id answer → id ≠ 0 →
    c.ids.connectionRequestId = id ∧ ∃ ticket, answer.ticket = some ticket ∧ ticket.asked = id ∧
      UserLine.outstanding c.user = some ticket

/-- An acceptance is taken off the queue after the command of its request has stored the id,
unless `ConnectionRequestId` is 0. -/
def TakesAnswer (c : ChatClient) (event : Event) : Prop :=
  ∀ envelope ∈ c.incoming.head?, event = .execute → c.execute = .idle →
    executeLine envelope = .loadRequest envelope →
      c.ids.connectionRequestId = 0 ∨ UserLine.storing c.user ≠ envelope.ticket

/-- `ConnectionRequestId` is not reset between the read of the id and its write. -/
def LeavesAnswer (c : ChatClient) (event : Event) : Prop :=
  c.requestStore event = some 0 → ExecuteLine.writes c.execute = 0

instance decidableTakesAnswer (c : ChatClient) (event : Event) :
    Decidable (c.TakesAnswer event) := by
  unfold TakesAnswer
  infer_instance

instance decidableLeavesAnswer (c : ChatClient) (event : Event) :
    Decidable (c.LeavesAnswer event) := by
  unfold LeavesAnswer
  infer_instance

section Fits

variable {names : ConnectionPtr → UInt32 → Prop} {self : ConnectionPtr} {c d : ChatClient}
  {event : Event}

/-- What can be accepted could be accepted before, or was just asked for. -/
theorem Fits.acceptable_of (fits : Fits names self c) (steps : Steps self c event d)
    {ticket : Ticket} (accepts : ticket ∈ d.acceptable self) :
    ticket ∈ c.acceptable self ∨ (ticket.asker = self ∧ ticket.number = c.requests ∧
      d.requests = c.requests + 1 ∧ d.user = .storeRequest ticket) := by
  -- At the prompt the id is not that of a request of the client.
  have notOwn : c.user = .prompt → c.request = some ticket → ticket.asker ≠ self := by
    intro line request isOwn
    have waits := (fits.own ticket request isOwn).2
    rw [line] at waits
    cases waits
  rw [mem_acceptable] at accepts
  rcases accepts with ⟨envelope, sent, has⟩ | ⟨envelope, queued, has⟩ | has | accepts |
    ⟨request, other⟩
  · rcases steps.sent_of sent with before | nobody | ⟨asked, rfl, counted, line⟩ |
      ⟨accepted, answers, -, line, rfl⟩
    · exact .inl (mem_acceptable.mpr (.inl ⟨envelope, before, has⟩))
    · cases nobody.symm.trans (executeLine_ticket has)
    · cases executeLine_ticket has
      exact .inr ⟨rfl, rfl, counted, line⟩
    · cases executeLine_ticket has
      cases accepted with
      | true =>
          have accepting : UserLine.accepting c.user = some ticket := by rw [line]; rfl
          exact .inl (mem_acceptable.mpr (.inr (.inr (.inr (.inl accepting)))))
      | false => rw [executeLine_answer] at has; cases has
  · left
    rcases steps.executes with ⟨-, same⟩ | ⟨first, -, -, queue, -⟩ | ⟨answer, -, same, -⟩ |
        ⟨same, -⟩
    · exact mem_acceptable.mpr (.inr (.inl ⟨envelope, same ▸ queued, has⟩))
    · have before : envelope ∈ c.incoming := by rw [queue]; exact List.mem_cons_of_mem _ queued
      exact mem_acceptable.mpr (.inr (.inl ⟨envelope, before, has⟩))
    · exact mem_acceptable.mpr (.inr (.inl ⟨envelope, same ▸ queued, has⟩))
    · exact mem_acceptable.mpr (.inr (.inl ⟨envelope, same ▸ queued, has⟩))
  · left
    rcases steps.executes with ⟨same, -⟩ | ⟨first, -, -, queue, line, -⟩ |
        ⟨answer, line, -, now, -⟩ |
      ⟨-, line | line | line⟩
    · exact mem_acceptable.mpr (.inr (.inr (.inl (same ▸ has))))
    · have before : first ∈ c.incoming := by rw [queue]; exact List.mem_cons_self
      exact mem_acceptable.mpr (.inr (.inl ⟨first, before, line ▸ has⟩))
    · rw [now] at has
      exact mem_acceptable.mpr (.inr (.inr (.inl (by rw [line]; exact has))))
    · rw [line] at has; cases has
    · rw [line] at has; cases has
    · rw [line] at has; cases has
  · left
    rcases steps.accepting_of accepts with before | ⟨line, request⟩
    · exact mem_acceptable.mpr (.inr (.inr (.inr (.inl before))))
    · exact mem_acceptable.mpr (.inr (.inr (.inr (.inr ⟨request, notOwn line request⟩))))
  · left
    rcases steps.request with ⟨-, same, -⟩ | ⟨-, nobody, -⟩ | ⟨asked, -, line, -, -, now⟩ |
      ⟨id, asked, -, line, -, now⟩
    · exact mem_acceptable.mpr (.inr (.inr (.inr (.inr ⟨same ▸ request, other⟩))))
    · cases nobody.symm.trans request
    · cases now.symm.trans request
      exact absurd (fits.asks ticket (by rw [line]; rfl)) other
    · cases now.symm.trans request
      exact mem_acceptable.mpr (.inr (.inr (.inl (by rw [line]; rfl))))

/-- What is under way was under way before, or its acceptance was just sent. -/
theorem Steps.underWay_of (steps : Steps self c event d) {ticket : Ticket}
    (accepted : ticket ∈ d.underWay) :
    ticket ∈ c.underWay ∨ (event = .user ∧ UserLine.accepting c.user = some ticket) := by
  rcases mem_underWay.mp accepted with ⟨envelope, sent, has⟩ | ⟨envelope, queued, has⟩ | has
  · rcases steps.sent_of sent with before | nobody | ⟨asked, rfl, -, -⟩ |
      ⟨answered, request, isUser, line, rfl⟩
    · exact .inl (mem_underWay.mpr (.inl ⟨envelope, before, has⟩))
    · cases nobody.symm.trans (executeLine_ticket (ExecuteLine.ticket_of_answers has))
    · exact absurd has executeLine_connectRequest_answers
    · cases answered with
      | false => rw [executeLine_answer] at has; cases has
      | true =>
          rw [executeLine_answer, if_pos rfl] at has
          exact .inr ⟨isUser, by rw [line]; exact has⟩
  · left
    rcases steps.executes with ⟨-, same⟩ | ⟨first, -, -, queue, -⟩ | ⟨answer, -, same, -⟩ |
        ⟨same, -⟩
    · exact mem_underWay.mpr (.inr (.inl ⟨envelope, same ▸ queued, has⟩))
    · have before : envelope ∈ c.incoming := by rw [queue]; exact List.mem_cons_of_mem _ queued
      exact mem_underWay.mpr (.inr (.inl ⟨envelope, before, has⟩))
    · exact mem_underWay.mpr (.inr (.inl ⟨envelope, same ▸ queued, has⟩))
    · exact mem_underWay.mpr (.inr (.inl ⟨envelope, same ▸ queued, has⟩))
  · left
    rcases steps.executes with ⟨same, -⟩ | ⟨first, -, -, queue, line, -⟩ |
        ⟨answer, line, -, now, -⟩ | ⟨-, line | line | line⟩
    · exact mem_underWay.mpr (.inr (.inr (same ▸ has)))
    · have before : first ∈ c.incoming := by rw [queue]; exact List.mem_cons_self
      exact mem_underWay.mpr (.inr (.inl ⟨first, before, line ▸ has⟩))
    · rw [now] at has
      exact mem_underWay.mpr (.inr (.inr (by rw [line]; exact has)))
    · rw [line] at has; cases has
    · rw [line] at has; cases has
    · rw [line] at has; cases has

theorem Fits.answer_of_load (fits : Fits names self c) {answer : Envelope}
    (loads : c.execute = .loadRequest answer) : ∃ ticket, answer.ticket = some ticket ∧
      ticket.asker = self ∧ names answer.sender ticket.asked := by
  have line := fits.execute
  rw [loads] at line
  exact line

/-- While the id is read, its command does not come to store it. -/
theorem Fits.loads_step (fits : Fits names self c) (steps : Steps self c event d)
    (fresh : ∀ ticket ∈ c.acceptable self, ticket.asker = self → ticket.number < c.requests)
    (takes : c.TakesAnswer event) {answer : Envelope} (loads : d.execute = .loadRequest answer) :
    d.ids.connectionRequestId = 0 ∨ UserLine.storing d.user ≠ answer.ticket := by
  rcases steps.executes with ⟨same, -⟩ | ⟨envelope, isExecute, line, queue, now, ids, user⟩ |
    ⟨_, -, -, now, -⟩ | ⟨-, line | line | line⟩
  · rw [same] at loads
    obtain ⟨ticket, has, isOwn, -⟩ := fits.answer_of_load loads
    have number : ticket.number < c.requests := by
      refine fresh ticket (mem_acceptable.mpr (.inr (.inr (.inl ?_)))) isOwn
      rw [loads]
      exact has
    rcases steps.request with ⟨id, -⟩ | ⟨id, -, -⟩ | ⟨other, -, -, line, -, -⟩ |
      ⟨id, other, -, line, -, -⟩
    · rw [id]
      refine (fits.loads answer loads).imp_right fun notStoring stores => ?_
      rw [has] at stores notStoring
      rcases steps.storing_of stores with before | ⟨-, isNew⟩
      · exact notStoring before
      · exact absurd isNew (Nat.ne_of_lt number)
    · exact .inl id
    · right
      rw [line, has]
      intro stores
      cases stores
    · cases loads.symm.trans line
  · rw [ids, user]
    have isAnswer := eq_of_executeLine_load (now.symm.trans loads)
    subst isAnswer
    exact takes answer (by rw [queue]; rfl) isExecute line (now.symm.trans loads)
  · cases now.symm.trans loads
  · cases line.symm.trans loads
  · cases line.symm.trans loads
  · cases line.symm.trans loads

/-- An id that was read is that of the request that is answered, and stays so. -/
theorem Fits.stores_step (fits : Fits names self c) (steps : Steps self c event d)
    (current : ∀ ticket ∈ c.underWay, ticket.asker = self →
      c.ids.connectionRequestId = 0 ∨ c.request = some ticket ∨
        UserLine.storing c.user = some ticket)
    (leaves : c.LeavesAnswer event) {id : UInt32} {answer : Envelope}
    (stores : d.execute = .storeConnected id answer) (notZero : id ≠ 0) :
    d.ids.connectionRequestId = id ∧ ∃ ticket, answer.ticket = some ticket ∧ ticket.asked = id ∧
      UserLine.outstanding d.user = some ticket := by
  rcases steps.executes with ⟨same, -⟩ | ⟨envelope, -, -, -, now, -, -⟩ |
    ⟨_, line, -, now, ids, user⟩ | ⟨-, line | line | line⟩
  · rw [same] at stores
    obtain ⟨holds, ticket, has, isAsked, waits⟩ := fits.stores id answer stores notZero
    have waiting := steps.outstanding waits (.inl (holds.trans isAsked.symm))
    refine ⟨?_, ticket, has, isAsked, waiting⟩
    rcases steps.request with ⟨kept, -⟩ | ⟨-, -, resets⟩ | ⟨other, -, line, -, kept, -⟩ |
      ⟨_, _, -, line, -, -⟩
    · exact kept.trans holds
    · have nothing := leaves resets
      rw [stores] at nothing
      exact absurd nothing notZero
    · rw [line] at waits
      cases waits
      exact kept.trans isAsked
    · cases stores.symm.trans line
  · exact absurd (now.symm.trans stores) executeLine_ne_storeConnected
  · rw [now] at stores
    cases stores
    obtain ⟨ticket, has, isOwn, -⟩ := fits.answer_of_load line
    have accepted : ticket ∈ c.underWay := by
      refine mem_underWay.mpr (.inr (.inr ?_))
      rw [line]
      exact has
    rw [ids, user]
    rcases current ticket accepted isOwn with zero | request | storing
    · exact absurd zero notZero
    · obtain ⟨isAsked, waits⟩ := fits.own ticket request isOwn
      exact ⟨rfl, ticket, has, isAsked.symm, waits⟩
    · rcases fits.loads answer line with zero | notStoring
      · exact absurd zero notZero
      · exact absurd (storing.trans has.symm) notStoring
  · cases line.symm.trans stores
  · cases line.symm.trans stores
  · cases line.symm.trans stores

/-- **A step of a thread keeps what holds of the requests of its client.** -/
theorem Fits.step (fits : Fits names self c) (steps : Steps self c event d)
    (fresh : ∀ ticket ∈ c.acceptable self, ticket.asker = self → ticket.number < c.requests)
    (current : ∀ ticket ∈ c.underWay, ticket.asker = self →
      c.ids.connectionRequestId = 0 ∨ c.request = some ticket ∨
        UserLine.storing c.user = some ticket)
    (takes : c.TakesAnswer event) (leaves : c.LeavesAnswer event) : Fits names self d where
  asks ticket waits := (steps.outstanding_of waits).elim (fits.asks ticket) id
  own := by
    intro ticket request isOwn
    rcases steps.request with ⟨same, kept, -⟩ | ⟨-, nobody, -⟩ | ⟨asked, -, -, line, stored, now⟩ |
      ⟨id, asked, -, line, -, now⟩
    · obtain ⟨isAsked, waits⟩ := fits.own ticket (kept ▸ request) isOwn
      exact ⟨same.trans isAsked, steps.outstanding waits (.inl isAsked)⟩
    · cases nobody.symm.trans request
    · cases now.symm.trans request
      exact ⟨stored, by rw [line]; rfl⟩
    · cases now.symm.trans request
      have toClient : LineFits names self (.storeRequest id (some ticket)) := line ▸ fits.execute
      exact absurd isOwn (toClient ticket rfl).2
  asked := by
    intro ticket request notOwn
    rcases steps.request with ⟨-, kept, -⟩ | ⟨-, nobody, -⟩ | ⟨asked, -, line, -, -, now⟩ |
      ⟨id, asked, -, line, -, now⟩
    · exact fits.asked ticket (kept ▸ request) notOwn
    · cases nobody.symm.trans request
    · cases now.symm.trans request
      exact absurd (fits.asks ticket (by rw [line]; rfl)) notOwn
    · cases now.symm.trans request
      have toClient : LineFits names self (.storeRequest id (some ticket)) := line ▸ fits.execute
      exact (toClient ticket rfl).1
  accepting := by
    intro ticket accepts
    rcases steps.accepting_of accepts with before | ⟨line, request⟩
    · exact fits.accepting ticket before
    · apply fits.asked ticket request
      intro isOwn
      have waits := (fits.own ticket request isOwn).2
      rw [line] at waits
      cases waits
  accepted := by
    intro envelope sent ticket loads has
    rcases steps.sent_of sent with before | nobody | ⟨asked, rfl, -, -⟩ |
      ⟨accepted, answers, -, line, rfl⟩
    · exact fits.accepted envelope before ticket loads has
    · cases nobody.symm.trans has
    · exact absurd loads executeLine_connectRequest_ne
    · cases accepted with
      | true => exact fits.accepting ticket (by rw [line]; exact has)
      | false => rw [executeLine_answer] at loads; cases loads
  incoming := by
    intro envelope queued
    apply fits.incoming
    rcases steps.executes with ⟨-, same⟩ | ⟨first, -, -, queue, -⟩ | ⟨answer, -, same, -⟩ |
        ⟨same, -⟩
    · exact same ▸ queued
    · rw [queue]
      exact List.mem_cons_of_mem _ queued
    · exact same ▸ queued
    · exact same ▸ queued
  execute := by
    rcases steps.executes with ⟨same, -⟩ | ⟨first, -, -, queue, line, -⟩ |
        ⟨answer, line, -, now, -⟩ |
      ⟨-, line | line | line⟩
    · rw [same]
      exact fits.execute
    · rw [line]
      exact fits.incoming first (by rw [queue]; exact List.mem_cons_self)
    · rw [now]
      exact fits.answer_of_load line
    · rw [line]
      trivial
    · rw [line]
      trivial
    · rw [line]
      trivial
  loads answer := fits.loads_step steps fresh takes
  stores id answer := fits.stores_step steps current leaves

/-- Messages that fit arrive, and messages that were sent are handled. -/
theorem Fits.receive (fits : Fits names self c) {outgoing new : List Envelope}
    (sent : ∀ envelope ∈ outgoing, envelope ∈ c.outgoing)
    (fit : ∀ envelope ∈ new, LineFits names self (executeLine envelope)) :
    Fits names self { c with outgoing := outgoing, incoming := c.incoming ++ new } :=
  { fits with
    accepted := fun envelope member => fits.accepted envelope (sent envelope member)
    incoming := by
      intro envelope member
      exact (List.mem_append.mp member).elim (fits.incoming envelope) (fit envelope) }

theorem LineFits.mono {more : ConnectionPtr → UInt32 → Prop}
    (implies : ∀ client id, names client id → more client id) {line : ExecuteLine}
    (fits : LineFits names self line) : LineFits more self line := by
  cases line with
  | storeRequest id ticket =>
      intro asked has
      exact (fits asked has).imp_left (implies self asked.asked)
  | loadRequest answer =>
      obtain ⟨ticket, has, isOwn, sender⟩ := fits
      exact ⟨ticket, has, isOwn, implies _ _ sender⟩
  | storeConnected id answer =>
      obtain ⟨ticket, has, isOwn, sender⟩ := fits
      exact ⟨ticket, has, isOwn, implies _ _ sender⟩
  | _ => trivial

theorem Fits.mono {more : ConnectionPtr → UInt32 → Prop}
    (implies : ∀ client id, names client id → more client id) (fits : Fits names self c) :
    Fits more self c :=
  { fits with
    asked := fun ticket request notOwn => implies _ _ (fits.asked ticket request notOwn)
    accepting := fun ticket accepts => implies _ _ (fits.accepting ticket accepts)
    accepted := fun envelope sent ticket loads has =>
      implies _ _ (fits.accepted envelope sent ticket loads has)
    incoming := fun envelope queued => (fits.incoming envelope queued).mono implies
    execute := fits.execute.mono implies }

/-- A client that has just connected has no requests. -/
theorem fits_start {welcome : Envelope} (greets : executeLine welcome = .idle) :
    Fits names self { start with incoming := [welcome] } where
  asks := by simp [start, UserLine.outstanding]
  own := by simp [start]
  asked := by simp [start]
  accepting := by simp [start, UserLine.accepting]
  accepted := by simp [start]
  incoming := by
    intro envelope queued
    cases List.mem_singleton.mp queued
    rw [greets]
    trivial
  execute := trivial
  loads := by simp [start]
  stores := by simp [start]

theorem acceptable_start {welcome : Envelope} (greets : executeLine welcome = .idle) :
    acceptable self { start with incoming := [welcome] } = [] := by
  simp [acceptable, start, greets, ExecuteLine.ticket, UserLine.accepting]

theorem underWay_start {welcome : Envelope} (greets : executeLine welcome = .idle) :
    underWay { start with incoming := [welcome] } = [] := by
  simp [underWay, start, greets, ExecuteLine.answers]

end Fits

end ChatClient

namespace ChatRoom

/-- The client is known and has the id. -/
def Named (room : ChatRoom) (client : ConnectionPtr) (id : UInt32) : Prop :=
  client < room.hall.peers.length ∧ room.id client = id

/-- The id that the handler of an answer is about to write to `ConnectedToId` is that of the
client that sent the answer, and the answer is to the request that the command of its client
waits for. -/
def AnswersAttributed (room : ChatRoom) : Prop :=
  ∀ client id answer, (room.clients client).execute = .storeConnected id answer → id ≠ 0 →
    room.Named answer.sender id ∧ ∃ ticket, answer.ticket = some ticket ∧
      ticket.asker = client ∧ ticket.asked = id ∧
        ChatClient.UserLine.outstanding (room.clients client).user = some ticket

/-- The requests of a client whose acceptance is under way. -/
def underWay (room : ChatRoom) (client : ConnectionPtr) : List Ticket :=
  ((List.range room.hall.peers.length).flatMap fun other =>
    (room.clients other).underWay).filter fun ticket => ticket.asker = client

/-- The client that asked has the request in `ConnectionRequestId`, is about to store it there, or
has nothing there. -/
def StandsBy (room : ChatRoom) (ticket : Ticket) : Prop :=
  (room.clients ticket.asker).ids.connectionRequestId = 0 ∨
    (room.clients ticket.asker).request = some ticket ∨
      ChatClient.UserLine.storing (room.clients ticket.asker).user = some ticket

/-- An acceptance is sent for a request that its asker stands by. -/
def AcceptsStanding (room : ChatRoom) (client : ConnectionPtr) : ChatClient.Event → Prop
  | .user => ∀ ticket ∈ ChatClient.UserLine.accepting (room.clients client).user,
      room.StandsBy ticket
  | _ => True

/-- A step that stores an id into `ConnectionRequestId` finds no other request of the client
whose acceptance is under way. -/
def StoresAlone (room : ChatRoom) (client : ConnectionPtr) : ChatClient.Event → Prop
  | .user => ∀ ticket ∈ ChatClient.UserLine.storing (room.clients client).user,
      ∀ other ∈ room.underWay client, other = ticket
  | .execute =>
      match (room.clients client).execute with
      | .storeRequest _ _ => room.underWay client = []
      | _ => True
  | _ => True

/-- The server sends an acceptance to the client that asked, and to nobody else. -/
def AnswersAsker (room : ChatRoom) (client : ConnectionPtr) : Prop :=
  ∀ envelope ∈ (room.clients client).outgoing.head?,
    ChatClient.executeLine envelope = .loadRequest envelope →
      ∀ partner ∈ room.hall.server.clientConnections (room.id client),
        ∃ ticket ∈ envelope.ticket, room.id ticket.asker = partner

/-- An acceptance is sent for a request that its asker stands by, and goes to the client that
asked. No other id is stored while it is under way, and nothing comes between the lines that handle
it. The ids do not wrap. -/
def AttributesAnswers (room : ChatRoom) : Event → Prop
  | .join => 10000 + room.hall.peers.length < 2 ^ 32
  | .client client event =>
      room.AcceptsStanding client event ∧ room.StoresAlone client event ∧
        (room.clients client).TakesAnswer event ∧ (room.clients client).LeavesAnswer event
  | .serve client => room.AnswersAsker client

instance decidableStandsBy (room : ChatRoom) (ticket : Ticket) :
    Decidable (room.StandsBy ticket) := by
  unfold StandsBy
  infer_instance

instance decidableAcceptsStanding (room : ChatRoom) (client : ConnectionPtr)
    (event : ChatClient.Event) : Decidable (room.AcceptsStanding client event) := by
  apply event.casesOn (motive := fun event => Decidable (room.AcceptsStanding client event))
  all_goals
    intros
    unfold AcceptsStanding
    infer_instance

instance decidableStoresAlone (room : ChatRoom) (client : ConnectionPtr)
    (event : ChatClient.Event) : Decidable (room.StoresAlone client event) := by
  apply event.casesOn (motive := fun event => Decidable (room.StoresAlone client event))
  all_goals
    intros
    unfold StoresAlone
  case execute =>
    exact match (room.clients client).execute with
      | .storeRequest _ _ => inferInstanceAs (Decidable (room.underWay client = []))
      | .idle => instDecidableTrue
      | .loadRequest _ => instDecidableTrue
      | .storeConnected _ _ => instDecidableTrue
      | .reset => instDecidableTrue
      | .closeConnected => instDecidableTrue
      | .closeRequest => instDecidableTrue
      | .ended => instDecidableTrue
  all_goals infer_instance

instance decidableAnswersAsker (room : ChatRoom) (client : ConnectionPtr) :
    Decidable (room.AnswersAsker client) := by
  unfold AnswersAsker
  refine @Option.decidableForallMem _ _ (fun envelope => @instDecidableForall _ _ _ ?_) _
  -- The ids are too many to be tried one after the other.
  exact @Option.decidableForallMem _ _ (fun _ => inferInstance) _

instance decidableAttributesAnswers (room : ChatRoom) (event : Event) :
    Decidable (room.AttributesAnswers event) := by
  apply event.casesOn (motive := fun event => Decidable (room.AttributesAnswers event))
  all_goals
    intros
    unfold AttributesAnswers
    infer_instance

theorem mem_underWay {room : ChatRoom} {client : ConnectionPtr} {ticket : Ticket} :
    ticket ∈ room.underWay client ↔ ticket.asker = client ∧
      ∃ other < room.hall.peers.length, ticket ∈ (room.clients other).underWay := by
  simp only [underWay, List.mem_filter, List.mem_flatMap, List.mem_range, decide_eq_true_eq,
    and_comm]

/-- What holds of the requests of all clients. -/
structure TicketsFit (room : ChatRoom) : Prop where
  honest : room.Honest
  few : room.hall.peers.length + 10000 ≤ 2 ^ 32
  fits : ∀ client, (room.clients client).Fits room.Named client
  fresh : ∀ client, ∀ ticket ∈ (room.clients client).acceptable client,
    client < room.hall.peers.length ∧ ticket.asker < room.hall.peers.length ∧
      ticket.number < (room.clients ticket.asker).requests
  current : ∀ client, ∀ ticket ∈ (room.clients client).underWay, room.StandsBy ticket

theorem ticketsFit_start : TicketsFit start where
  honest := honest_start
  few := by simp [start, Hall.start]
  fits := by
    intro client
    constructor
    all_goals
      simp [start, ChatClient.start, ChatClient.UserLine.outstanding,
        ChatClient.UserLine.accepting, ChatClient.LineFits]
  fresh := by
    intro client ticket accepts
    cases accepts
  current := by
    intro client ticket accepts
    cases accepts

section Step

variable {room next : ChatRoom}

theorem TicketsFit.join (fit : TicketsFit room) (small : 10000 + room.hall.peers.length < 2 ^ 32)
    (honest : room.join.Honest) : TicketsFit room.join := by
  have greets := ChatClient.executeLine_welcome room.hall.peers.length
    room.hall.server.nIDCounter
  have named : ∀ client id, room.Named client id → room.join.Named client id := by
    rintro client id ⟨known, rfl⟩
    refine ⟨?_, join_id room (Nat.ne_of_lt known)⟩
    rw [join_length]
    exact Nat.lt_succ_of_lt known
  -- The new client has no requests, and no request is its own.
  have before : ∀ client, ∀ ticket ∈ (room.join.clients client).acceptable client,
      ticket ∈ (room.clients client).acceptable client ∧
        room.join.clients ticket.asker = room.clients ticket.asker := by
    intro client ticket accepts
    by_cases isNew : client = room.hall.peers.length
    · subst isNew
      rw [join_new, ChatClient.acceptable_start greets] at accepts
      cases accepts
    · rw [join_other room isNew] at accepts
      exact ⟨accepts, join_other room (Nat.ne_of_lt (fit.fresh client ticket accepts).2.1)⟩
  have underWay : ∀ client, ∀ ticket ∈ (room.join.clients client).underWay,
      ticket ∈ (room.clients client).underWay := by
    intro client ticket accepted
    by_cases isNew : client = room.hall.peers.length
    · subst isNew
      rw [join_new, ChatClient.underWay_start greets] at accepted
      cases accepted
    · rwa [join_other room isNew] at accepted
  refine ⟨honest, ?_, ?_, ?_, ?_⟩
  · rw [join_length]
    omega
  · intro client
    by_cases isNew : client = room.hall.peers.length
    · subst isNew
      rw [join_new]
      exact ChatClient.fits_start greets
    · rw [join_other room isNew]
      exact (fit.fits client).mono named
  · intro client ticket accepts
    obtain ⟨accepted, sameAsker⟩ := before client ticket accepts
    obtain ⟨known, askerKnown, number⟩ := fit.fresh client ticket accepted
    rw [sameAsker, join_length]
    exact ⟨Nat.lt_succ_of_lt known, Nat.lt_succ_of_lt askerKnown, number⟩
  · intro client ticket accepted
    have sameAsker := (before client ticket (ChatClient.acceptable_of_underWay accepted)).2
    rw [StandsBy, sameAsker]
    exact fit.current client ticket (underWay client ticket accepted)

/-- A client stands by its request through a step that stores no other id. -/
theorem StandsBy.step {ticket : Ticket} {event : ChatClient.Event} {c : ChatClient}
    (stands : room.StandsBy ticket)
    (steps : ChatClient.Steps ticket.asker (room.clients ticket.asker) event c)
    (alone : ∀ other, event = .user →
      (room.clients ticket.asker).user = .storeRequest other → ticket = other)
    (noRequest : ∀ id other, event = .execute →
      (room.clients ticket.asker).execute ≠ .storeRequest id other) :
    (room.moved ticket.asker c).StandsBy ticket := by
  rw [StandsBy, moved_self]
  rcases steps.request with ⟨same, kept, storing⟩ | ⟨zero, -, -⟩ |
    ⟨stored, isUser, line, -, -, now⟩ | ⟨id, stored, isExecute, line, -, -⟩
  · rw [same, kept]
    exact stands.imp_right (.imp_right (storing ticket))
  · exact .inl zero
  · rw [alone stored isUser line]
    exact .inr (.inl now)
  · exact absurd line (noRequest id stored isExecute)

/-- A step of a thread leaves every acceptance that is under way alone, or stands for it. -/
theorem TicketsFit.current_step (fit : TicketsFit room) {ticket : Ticket}
    {event : ChatClient.Event} {c : ChatClient}
    (steps : ChatClient.Steps ticket.asker (room.clients ticket.asker) event c)
    (alone : room.StoresAlone ticket.asker event) (accepted : ticket ∈ room.underWay ticket.asker) :
    (room.moved ticket.asker c).StandsBy ticket := by
  obtain ⟨-, other, -, isThere⟩ := mem_underWay.mp accepted
  refine (fit.current other ticket isThere).step steps ?_ ?_
  · rintro stored rfl line
    exact alone stored (by rw [line]; rfl) ticket accepted
  · rintro id stored rfl line
    simp only [StoresAlone, line] at alone
    rw [alone] at accepted
    cases accepted

/-- The send of an acceptance stores no id. -/
theorem StandsBy.accepting {client : ConnectionPtr} {ticket : Ticket} {c : ChatClient}
    (stands : room.StandsBy ticket)
    (steps : ChatClient.Steps client (room.clients client) .user c)
    (accepts : ChatClient.UserLine.accepting (room.clients client).user = some ticket) :
    (room.moved client c).StandsBy ticket := by
  by_cases isMover : ticket.asker = client
  · subst isMover
    refine stands.step steps ?_ nofun
    intro other _ line
    rw [line] at accepts
    cases accepts
  · rw [StandsBy, moved_other room c isMover]
    exact stands

theorem TicketsFit.moved (fit : TicketsFit room) {client : ConnectionPtr}
    {event : ChatClient.Event} {c : ChatClient} (known : client < room.hall.peers.length)
    (attributes : room.AttributesAnswers (.client client event))
    (taken : (room.clients client).step client event = some c)
    (honest : (room.moved client c).Honest) : TicketsFit (room.moved client c) := by
  obtain ⟨standing, alone, takes, leaves⟩ := attributes
  have steps := ChatClient.step_cases taken
  -- A request that can be accepted could be accepted before, or was just sent.
  have before : ∀ other, ∀ ticket ∈ ((room.moved client c).clients other).acceptable other,
      ticket ∈ (room.clients other).acceptable other ∨ (other = client ∧ ticket.asker = client ∧
        ticket.number < c.requests ∧ c.user = .storeRequest ticket) := by
    intro other ticket accepts
    by_cases isMover : other = client
    · subst isMover
      rw [moved_self] at accepts
      refine ((fit.fits other).acceptable_of steps accepts).imp_right ?_
      rintro ⟨isOwn, number, counted, line⟩
      exact ⟨rfl, isOwn, by rw [number, counted]; exact Nat.lt_succ_self _, line⟩
    · rw [moved_other room c isMover] at accepts
      exact .inl accepts
  refine ⟨honest, fit.few, ?_, ?_, ?_⟩
  · intro other
    by_cases isMover : other = client
    · subst isMover
      rw [moved_self]
      refine (fit.fits other).step steps ?_ ?_ takes leaves
      · rintro ticket accepts isOwn
        have number := (fit.fresh other ticket accepts).2.2
        rwa [isOwn] at number
      · rintro ticket accepted isOwn
        have current := fit.current other ticket accepted
        rwa [StandsBy, isOwn] at current
    · rw [moved_other room c isMover]
      exact fit.fits other
  · intro other ticket accepts
    rcases before other ticket accepts with accepted | ⟨rfl, isOwn, number, -⟩
    · obtain ⟨otherKnown, askerKnown, number⟩ := fit.fresh other ticket accepted
      refine ⟨otherKnown, askerKnown, Nat.lt_of_lt_of_le number ?_⟩
      by_cases isMover : ticket.asker = client
      · rw [isMover, moved_self]
        exact steps.requests_le
      · rw [moved_other room c isMover]
    · rw [isOwn, moved_self]
      exact ⟨known, known, number⟩
  · have current : ∀ other, ∀ ticket ∈ (room.clients other).underWay,
        (room.moved client c).StandsBy ticket := by
      intro other ticket accepted
      by_cases isMover : ticket.asker = client
      · subst isMover
        have known := (fit.fresh other ticket (ChatClient.acceptable_of_underWay accepted)).1
        exact fit.current_step steps alone (mem_underWay.mpr ⟨rfl, other, known, accepted⟩)
      · rw [StandsBy, moved_other room c isMover]
        exact fit.current other ticket accepted
    intro other ticket accepted
    by_cases isMover : other = client
    · subst isMover
      rw [moved_self] at accepted
      rcases steps.underWay_of accepted with before | ⟨rfl, accepts⟩
      · exact current other ticket before
      · exact (standing ticket accepts).accepting steps accepts
    · rw [moved_other room c isMover] at accepted
      exact current other ticket accepted

/-- What the server sends on fits its receiver and belongs to the request of the message that it
handles, and an acceptance to the same acceptance. -/
structure PassedOn (room : ChatRoom) (envelope : Envelope) (receiver : ConnectionPtr)
    (msg : Message CustomMsgTypes) : Prop where
  fits : ChatClient.LineFits room.Named receiver
    (ChatClient.executeLine ⟨envelope.sender, msg, envelope.ticket⟩)
  ticket : ∀ ticket, ChatClient.ExecuteLine.ticket
      (ChatClient.executeLine ⟨envelope.sender, msg, envelope.ticket⟩) = some ticket →
    receiver < room.hall.peers.length ∧
      ChatClient.ExecuteLine.ticket (ChatClient.executeLine envelope) = some ticket
  answers : ∀ ticket, ChatClient.ExecuteLine.answers
      (ChatClient.executeLine ⟨envelope.sender, msg, envelope.ticket⟩) = some ticket →
    ChatClient.ExecuteLine.answers (ChatClient.executeLine envelope) = some ticket

/-- A message that belongs to no request. -/
theorem passedOn_plain {envelope : Envelope} {receiver : ConnectionPtr}
    {msg : Message CustomMsgTypes} {line : ExecuteLine}
    (isLine : ChatClient.executeLine ⟨envelope.sender, msg, envelope.ticket⟩ = line)
    (fits : ChatClient.LineFits room.Named receiver line)
    (noTicket : ChatClient.ExecuteLine.ticket line = none) :
    PassedOn room envelope receiver msg := by
  subst isLine
  refine ⟨fits, ?_, ?_⟩
  · intro ticket has
    cases noTicket.symm.trans has
  · intro ticket has
    cases noTicket.symm.trans (ChatClient.ExecuteLine.ticket_of_answers has)

/-- A request goes to the client that has the id. -/
theorem TicketsFit.passedOn_request (fit : TicketsFit room) {client receiver : ConnectionPtr}
    {number : ℕ} (clientKnown : client < room.hall.peers.length)
    (known : receiver < room.hall.peers.length) (distinct : room.id client ≠ room.id receiver) :
    PassedOn room ⟨client, CustomClient.connectRequest (room.id receiver),
        some ⟨client, room.id receiver, number⟩⟩ receiver
      (CustomServer.idMsg .requestToClient (room.id client)) := by
  have line := ChatClient.executeLine_request (fit.honest.le_id fit.few clientKnown) client
    (some ⟨client, room.id receiver, number⟩)
  have sent : ChatClient.executeLine ⟨client, CustomClient.connectRequest (room.id receiver),
      some ⟨client, room.id receiver, number⟩⟩ = .storeRequest (room.id receiver) _ :=
    ChatClient.executeLine_request (fit.honest.le_id fit.few known) client _
  refine ⟨?_, ?_, ?_⟩
  · rw [line]
    intro asked has
    cases has
    exact ⟨⟨known, rfl⟩, fun same => distinct (congrArg room.id same)⟩
  · rw [line, sent]
    exact fun ticket has => ⟨known, has⟩
  · rw [line]
    intro ticket has
    cases has

/-- An acceptance goes to the client that asked. -/
theorem TicketsFit.passedOn_acceptance (fit : TicketsFit room) {client receiver : ConnectionPtr}
    {ticket : Ticket} (known : receiver < room.hall.peers.length)
    (sent : (⟨client, CustomClient.requestAnswer true, some ticket⟩ : Envelope) ∈
      (room.clients client).outgoing)
    (sameId : room.id ticket.asker = room.id receiver) :
    PassedOn room ⟨client, CustomClient.requestAnswer true, some ticket⟩ receiver
      (CustomClient.requestAnswer true) := by
  have line := ChatClient.executeLine_answer true client (some ticket)
  rw [if_pos rfl] at line
  have accepts : ticket ∈ (room.clients client).acceptable client :=
    ChatClient.mem_acceptable.mpr (.inl ⟨_, sent, by rw [line]; rfl⟩)
  have askerKnown := (fit.fresh client ticket accepts).2.1
  refine ⟨?_, fun answered has => ⟨known, has⟩, fun _ has => has⟩
  rw [line]
  exact ⟨ticket, rfl, fit.honest.numbered.client_of_id fit.few askerKnown known sameId,
    (fit.fits client).accepted _ sent ticket line rfl⟩

/-- **What the server sends on in a step.** -/
theorem TicketsFit.delivered (fit : TicketsFit room) {matching : Matching UInt32}
    (represents : room.hall.server.clientConnections = matching.partner) {client : ConnectionPtr}
    {later : List Envelope} {envelope : Envelope} (clientKnown : client < room.hall.peers.length)
    (queue : (room.clients client).outgoing = envelope :: later)
    (asker : room.AnswersAsker client)
    (serves : Serves room matching client later envelope next) :
    ∃ calls, next.clients = room.settle client envelope later calls ∧
      ∀ other, ∀ msg ∈ deliveries calls other, PassedOn room envelope other msg := by
  have one : ∀ receiver (sent : Message CustomMsgTypes), PassedOn room envelope receiver sent →
      ∀ other, ∀ msg ∈ deliveries [.send receiver sent] other,
        PassedOn room envelope other msg := by
    intro receiver sent passed other msg member
    rw [deliveries_send] at member
    split at member
    case isTrue same =>
      cases List.mem_singleton.mp member
      exact same ▸ passed
    case isFalse => cases member
  cases serves with
  | fails fault _ alone noRequest => exact ⟨[], rfl, fun _ _ member => (by cases member)⟩
  | refuse asked number code coded _ isRequest =>
      exact ⟨_, rfl, one _ _ (passedOn_plain (ChatClient.executeLine_code coded _ _) trivial rfl)⟩
  | pair asked number receiver _ isRequest known isAsked distinct clientFree askedFree =>
      subst isRequest
      subst isAsked
      exact ⟨_, rfl, one _ _ (fit.passedOn_request clientKnown known distinct)⟩
  | text data receiver _ isText known paired =>
      subst isText
      refine ⟨_, rfl, one _ _ ?_⟩
      rcases ChatClient.executeLine_text data client none with line | line
      · exact passedOn_plain line trivial rfl
      · exact passedOn_plain line trivial rfl
  | answer accepted asked receiver _ isAnswer known paired =>
      subst isAnswer
      refine ⟨_, rfl, one _ _ ?_⟩
      cases accepted with
      | false => exact passedOn_plain (ChatClient.executeLine_answer false _ _) trivial rfl
      | true =>
          have line := ChatClient.executeLine_answer true client asked
          rw [if_pos rfl] at line
          obtain ⟨ticket, has, sameId⟩ := asker _ (by rw [queue]; rfl) line (room.id receiver)
            (by rw [represents]; exact paired)
          rw [Option.mem_def] at has
          subst has
          exact fit.passedOn_acceptance known (by rw [queue]; exact List.mem_cons_self) sameId
  | close receiver _ isClose known paired =>
      exact ⟨_, rfl, one _ _ (passedOn_plain (ChatClient.executeLine_close _ _) trivial rfl)⟩

theorem TicketsFit.serves (fit : TicketsFit room) {matching : Matching UInt32}
    (represents : room.hall.server.clientConnections = matching.partner) {client : ConnectionPtr}
    {later : List Envelope} {envelope : Envelope} (clientKnown : client < room.hall.peers.length)
    (queue : (room.clients client).outgoing = envelope :: later)
    (asker : room.AnswersAsker client)
    (serves : Serves room matching client later envelope next) (honest : next.Honest) :
    TicketsFit next := by
  obtain ⟨calls, same, delivered⟩ := fit.delivered represents clientKnown queue asker serves
  have samePeers := serves.deque.2.2
  have named : next.Named = room.Named := by
    funext other id
    rw [Named, Named, samePeers, serves.id]
  -- What is left to send was there before.
  have sentBefore : ∀ other, ∀ sent ∈ (if other = client then later
      else (room.clients other).outgoing), sent ∈ (room.clients other).outgoing := by
    intro other sent member
    split at member
    case isTrue isSender =>
      rw [isSender, queue]
      exact List.mem_cons_of_mem _ member
    case isFalse => exact member
  -- Every request that can be accepted could be accepted before, where it was.
  have before : ∀ other, ∀ ticket ∈ (next.clients other).acceptable other,
      other < room.hall.peers.length ∧
        ∃ source, ticket ∈ (room.clients source).acceptable source := by
    intro other ticket accepts
    have stays : ticket ∈ (room.clients other).acceptable other →
        other < room.hall.peers.length ∧
          ∃ source, ticket ∈ (room.clients source).acceptable source := fun accepts =>
      ⟨(fit.fresh other ticket accepts).1, other, accepts⟩
    rw [same, ChatClient.mem_acceptable] at accepts
    rcases accepts with ⟨sent, member, has⟩ | ⟨arrived, member, has⟩ | others
    · exact stays (ChatClient.mem_acceptable.mpr (.inl ⟨sent, sentBefore other sent member, has⟩))
    · rcases List.mem_append.mp member with old | new
      · exact stays (ChatClient.mem_acceptable.mpr (.inr (.inl ⟨arrived, old, has⟩)))
      · obtain ⟨msg, isMsg, rfl⟩ := List.mem_map.mp new
        obtain ⟨known, had⟩ := (delivered other msg isMsg).ticket ticket has
        have handled : envelope ∈ (room.clients client).outgoing := by
          rw [queue]
          exact List.mem_cons_self
        exact ⟨known, client, ChatClient.mem_acceptable.mpr (.inl ⟨envelope, handled, had⟩)⟩
    · exact stays (ChatClient.mem_acceptable.mpr (.inr (.inr others)))
  -- Every acceptance that is under way was under way before.
  have underWay : ∀ other, ∀ ticket ∈ (next.clients other).underWay,
      ∃ source, ticket ∈ (room.clients source).underWay := by
    intro other ticket accepted
    rw [same, ChatClient.mem_underWay] at accepted
    rcases accepted with ⟨sent, member, has⟩ | ⟨arrived, member, has⟩ | handled
    · exact ⟨other, ChatClient.mem_underWay.mpr (.inl ⟨sent, sentBefore other sent member, has⟩)⟩
    · rcases List.mem_append.mp member with old | new
      · exact ⟨other, ChatClient.mem_underWay.mpr (.inr (.inl ⟨arrived, old, has⟩))⟩
      · obtain ⟨msg, isMsg, rfl⟩ := List.mem_map.mp new
        have first : envelope ∈ (room.clients client).outgoing := by
          rw [queue]
          exact List.mem_cons_self
        exact ⟨client, ChatClient.mem_underWay.mpr
          (.inl ⟨envelope, first, (delivered other msg isMsg).answers ticket has⟩)⟩
    · exact ⟨other, ChatClient.mem_underWay.mpr (.inr (.inr handled))⟩
  refine ⟨honest, samePeers ▸ fit.few, ?_, ?_, ?_⟩
  · intro other
    rw [named, same]
    refine (fit.fits other).receive (sentBefore other) ?_
    intro arrived member
    obtain ⟨msg, isMsg, rfl⟩ := List.mem_map.mp member
    exact (delivered other msg isMsg).fits
  · intro other ticket accepts
    obtain ⟨known, source, accepted⟩ := before other ticket accepts
    obtain ⟨-, askerKnown, number⟩ := fit.fresh source ticket accepted
    rw [samePeers, same]
    exact ⟨known, askerKnown, number⟩
  · intro other ticket accepted
    obtain ⟨source, before⟩ := underWay other ticket accepted
    rw [StandsBy, same]
    exact fit.current source ticket before

/-- **A step that meets the condition keeps what holds of the requests.** -/
theorem TicketsFit.step {event : Event} (fit : TicketsFit room)
    (attributes : room.AttributesAnswers event) (taken : room.step event = some next) :
    TicketsFit next := by
  have honest := fit.honest.step taken
  obtain ⟨-, acted⟩ := step_eq_some taken
  cases event with
  | join => cases acted; exact fit.join attributes honest
  | client client event =>
      obtain ⟨known, c, moved, rfl⟩ := act_client acted
      exact fit.moved known attributes moved honest
  | serve client =>
      obtain ⟨known, envelope, later, queue, rfl⟩ := act_serve acted
      obtain ⟨matching, represents⟩ := fit.honest.paired
      have wrote := fit.honest.wrote client envelope (by rw [queue]; exact List.mem_cons_self)
      exact fit.serves represents known queue attributes
        (fit.honest.serve_cases represents wrote later) honest

theorem TicketsFit.answersAttributed (fit : TicketsFit room) : room.AnswersAttributed := by
  intro client id answer stores notZero
  have line := (fit.fits client).execute
  rw [stores] at line
  obtain ⟨ticket, has, isOwn, sender⟩ := line
  obtain ⟨-, other, hasOther, isAsked, waits⟩ := (fit.fits client).stores id answer stores notZero
  cases has.symm.trans hasOther
  exact ⟨isAsked ▸ sender, ticket, has, isOwn, isAsked, waits⟩

end Step

/-- **Answers are attributed to the clients that sent them throughout every run whose steps meet
the condition.** -/
theorem answersAttributed_of_meets (events : List Event)
    (attributes : Meets step AttributesAnswers start events) :
    Throughout step AnswersAttributed start events := by
  have fit : Throughout step TicketsFit start events :=
    throughout_of_meets (fun room event next fit attributes taken => fit.step attributes taken)
      ticketsFit_start attributes
  exact fit.mono fun room => TicketsFit.answersAttributed

/-- A client requests another, which accepts. -/
def answered : List Event :=
  [.join, .join, .client 0 .execute, .client 1 .execute,
    .client 0 (.command (.connectTo 10001)), .client 0 .user, .serve 0,
    .client 1 .execute, .client 1 .execute, .client 1 (.command .requestAccept),
    .client 1 .user, .serve 1, .client 0 .execute, .client 0 .execute]

/-- A client requests another, aborts the request and requests a third one, which accepts. The
second one has the aborted request until the close arrives, and does not accept it. -/
def askedAnother : List Event :=
  [.join, .join, .join, .client 0 .execute, .client 1 .execute, .client 2 .execute,
    .client 0 (.command (.connectTo 10001)), .client 0 .user, .client 0 .user, .serve 0,
    .client 1 .execute, .client 1 .execute, .client 0 .user,
    .client 0 (.abort false), .client 0 (.abort true), .client 0 (.abort false),
    .client 0 (.abort false), .client 0 (.abort false), .client 0 (.abort false),
    .client 0 (.abort false), .client 0 (.abort false), .client 0 .user, .client 0 .user,
    .client 0 .user, .client 0 .user,
    .client 0 (.command (.connectTo 10002)), .client 0 .user, .serve 0, .serve 0,
    .client 2 .execute, .client 2 .execute, .client 2 (.command .requestAccept), .client 2 .user,
    .serve 2, .client 0 .execute, .client 0 .execute, .client 0 .execute,
    .client 1 .execute, .client 1 .execute, .client 1 .execute]

theorem answersAttributed_answered :
    Throughout step AnswersAttributed start answered ∧
      Throughout step AnswersAttributed start askedAnother :=
  ⟨answersAttributed_of_meets answered (by decide +kernel),
    answersAttributed_of_meets askedAnother (by decide +kernel)⟩

/-- The second client accepts a request of the first, which is aborted and followed by a request
to the third before the acceptance is handled. -/
def stale : List Event :=
  [.join, .join, .join, .client 0 .execute, .client 1 .execute,
    .client 0 (.command (.connectTo 10001)), .client 0 .user, .client 0 .user, .serve 0,
    .client 1 .execute, .client 1 .execute, .client 1 (.command .requestAccept),
    .client 1 .user, .serve 1,
    -- The key is pressed, and the thread that polls ends.
    .client 0 .user, .client 0 (.abort false), .client 0 (.abort true), .client 0 (.abort false),
    .client 0 (.abort false), .client 0 (.abort false), .client 0 (.abort false),
    .client 0 (.abort false), .client 0 (.abort false), .client 0 .user, .client 0 .user,
    .client 0 .user, .client 0 .user,
    .client 0 (.command (.connectTo 10002)), .client 0 .user, .client 0 .execute,
    .client 0 .execute]

/-- **The acceptance of the aborted request is taken for one of the request after it.** -/
theorem stale_attributed :
    ∃ before after, runFrom step start stale = some before ∧ ¬ before.AnswersAttributed ∧
      before.step (.client 0 .execute) = some after ∧
      (after.clients 0).ids.connectedToId = after.id 2 := by
  let before := (runFrom step start stale).get (by decide +kernel)
  refine ⟨before, (before.step (.client 0 .execute)).get (by decide +kernel),
    (Option.some_get _).symm, ?wrong, (Option.some_get _).symm, by decide +kernel⟩
  case wrong =>
    intro attributed
    have sender := attributed 0 10002
      ⟨1, CustomClient.requestAnswer true, some ⟨0, 10001, 0⟩⟩ (by decide +kernel) (by decide)
    exact absurd sender.1.2 (by decide +kernel)

end ChatRoom

end NetworkChat
