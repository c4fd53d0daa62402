import NetworkChat.Chat.Texts

/-!
# A client without what is kept beside the source

The requests in the lines of a client, the senders of its envelopes and the requests that they
belong to are read by no step. Without them, and without the queues, a client is bare.

A step that takes no message off the queue does to two clients that are bare the same the same
thing, and sends the same messages (`exists_step_of_bare`). A step that takes a message off does the
same to both if `ExecuteMessages` reads the same in the two messages (`exists_take_of_bare`).
-/

set_option autoImplicit false

namespace NetworkChat

open Foundation

namespace ChatClient

/-- The line without the request that it belongs to. -/
def UserLine.bare : UserLine → UserLine
  | .sendAnswer accepted _ => .sendAnswer accepted none
  | line => line

/-- The line without the message that led to it. -/
def ExecuteLine.bare : ExecuteLine → ExecuteLine
  | .storeRequest id _ => .storeRequest id none
  | .loadRequest _ => .loadRequest ⟨0, CustomClient.closeClient, none⟩
  | .storeConnected id _ => .storeConnected id ⟨0, CustomClient.closeClient, none⟩
  | line => line

/-- The client without its queues and without what is kept beside the state of the source. -/
def bare (c : ChatClient) : ChatClient :=
  { c with
    request := none, user := UserLine.bare c.user, execute := ExecuteLine.bare c.execute,
    outgoing := [], incoming := [] }

@[simp] theorem UserLine.bare_bare (line : UserLine) :
    UserLine.bare (UserLine.bare line) = UserLine.bare line := by
  cases line <;> rfl

@[simp] theorem UserLine.holdsMux_bare (line : UserLine) :
    UserLine.holdsMux (UserLine.bare line) = UserLine.holdsMux line := by
  cases line <;> rfl

@[simp] theorem ExecuteLine.bare_bare (line : ExecuteLine) :
    ExecuteLine.bare (ExecuteLine.bare line) = ExecuteLine.bare line := by
  cases line <;> rfl

variable {self : ConnectionPtr} {c d e : ChatClient} {event : Event}

theorem bare_idle : ExecuteLine.bare c.execute = .idle ↔ c.execute = .idle := by
  cases line : c.execute with
  | idle => exact iff_of_true rfl rfl
  | _ => simp [ExecuteLine.bare]

/-- Clients that are bare the same differ in what is kept beside the source and in the queues. -/
theorem eq_of_bare (same : c.bare = d.bare) :
    c.ids = d.ids ∧ UserLine.bare c.user = UserLine.bare d.user ∧ c.abort = d.abort ∧
      ExecuteLine.bare c.execute = ExecuteLine.bare d.execute := by
  obtain ⟨ids, -, -, user, abort, execute, -, -⟩ := ChatClient.mk.inj same
  exact ⟨ids, user, abort, execute⟩

theorem idle_of_bare (same : c.bare = d.bare) (idle : c.execute = .idle) : d.execute = .idle := by
  rw [← bare_idle, ← (eq_of_bare same).2.2.2, bare_idle]
  exact idle

/-- A line of a chat that was read or is to be sent is the same. -/
theorem reads_of_bare (same : c.bare = d.bare) {caller : ChatCaller} {data : List UInt8}
    (stands : c.user = .checkChat caller data ∨ c.user = .sendText caller data) :
    d.user = .checkChat caller data ∨ d.user = .sendText caller data := by
  have line := (eq_of_bare same).2.1
  rcases stands with reads | sends
  · rw [reads] at line
    cases user : d.user with
    | checkChat other text => rw [user] at line; cases line; exact .inl rfl
    | _ => rw [user] at line; cases line
  · rw [sends] at line
    cases user : d.user with
    | sendText other text => rw [user] at line; cases line; exact .inr rfl
    | _ => rw [user] at line; cases line

theorem sends_bare (c : ChatClient) (event : Event) : c.bare.sends event = c.sends event := by
  cases event with
  | user =>
      obtain ⟨ids, request, requests, user, abort, execute, outgoing, incoming⟩ := c
      cases user <;> rfl
  | _ => rfl

theorem sends_of_bare (same : c.bare = d.bare) (event : Event) : c.sends event = d.sends event := by
  rw [← sends_bare c, same, sends_bare]

/-! ## Steps -/

/-- What a step leaves, and the messages that it sends. -/
def shows (self : ConnectionPtr) (c : ChatClient) (event : Event) :
    Option (ChatClient × List (Message CustomMsgTypes)) :=
  (c.step self event).map fun d =>
    (d.bare, (d.outgoing.drop c.outgoing.length).map Envelope.msg)

/-- The step takes a message off the queue. -/
def Takes (c : ChatClient) (event : Event) : Prop := event = .execute ∧ c.execute = .idle

theorem shows_command (self : ConnectionPtr) (c : ChatClient) (command : Command) :
    c.bare.shows self (.command command) = c.shows self (.command command) := by
  obtain ⟨ids, request, requests, user, abort, execute, outgoing, incoming⟩ := c
  cases user with
  | prompt =>
      cases command with
      | connectTo id =>
          simp [shows, step, bare, ChatClient.command, UserLine.bare, ChatClient.send]
      | _ =>
          simp only [shows, step, bare, ChatClient.command, UserLine.bare, answer]
          by_cases asked : 10000 ≤ ids.connectionRequestId
          all_goals simp [asked]
  | _ => simp [shows, step, bare, UserLine.bare]

theorem shows_user (self : ConnectionPtr) (c : ChatClient) :
    c.bare.shows self .user = c.shows self .user := by
  obtain ⟨ids, request, requests, user, abort, execute, outgoing, incoming⟩ := c
  cases user with
  | lockConnect ticket =>
      by_cases joined : abort = .off
      all_goals simp [shows, step, bare, userStep, UserLine.bare, muxFree, UserLine.holdsMux,
        AbortLine.holdsMux, joined]
  | checkRequest ticket =>
      by_cases same : ids.connectionRequestId = ticket.asked
      all_goals simp [shows, step, bare, userStep, UserLine.bare, same]
  | wait ticket =>
      by_cases free : AbortLine.holdsMux abort = false
      all_goals simp [shows, step, bare, userStep, UserLine.bare, muxFree, UserLine.holdsMux, free]
  | checkConnected =>
      by_cases connected : 10000 ≤ ids.connectedToId
      all_goals simp [shows, step, bare, userStep, UserLine.bare, connected]
  | joinAbort =>
      by_cases joined : abort = .off
      all_goals simp [shows, step, bare, userStep, UserLine.bare, joined]
  | sendAnswer accepted ticket =>
      cases accepted
      all_goals simp [shows, step, bare, userStep, UserLine.bare, ChatClient.send]
  | checkChat caller data =>
      by_cases left : ids.connectedToId = 0
      all_goals simp [shows, step, bare, userStep, UserLine.bare, left]
  | close caller line =>
      cases line
      all_goals simp [shows, step, bare, userStep, UserLine.bare, closeLine, ChatClient.send,
        changeConnectedToId, storeRequestId]
  | _ =>
      simp [shows, step, bare, userStep, UserLine.bare, storeRequestId, ChatClient.send,
        changeConnectedToId]

theorem shows_abort (self : ConnectionPtr) (c : ChatClient) (pressed : Bool) :
    c.bare.shows self (.abort pressed) = c.shows self (.abort pressed) := by
  obtain ⟨ids, request, requests, user, abort, execute, outgoing, incoming⟩ := c
  cases abort with
  | check id =>
      by_cases same : ids.connectionRequestId = id
      all_goals simp [shows, step, bare, abortStep, same]
  | lock id =>
      by_cases free : UserLine.holdsMux user = false
      all_goals simp [shows, step, bare, abortStep, muxFree, AbortLine.holdsMux, free]
  | close id line =>
      cases line
      all_goals simp [shows, step, bare, abortStep, closeLine, ChatClient.send,
        changeConnectedToId, storeRequestId]
  | _ => simp [shows, step, bare, abortStep]

theorem shows_execute (self : ConnectionPtr) (busy : c.execute ≠ .idle) :
    c.bare.shows self .execute = c.shows self .execute := by
  obtain ⟨ids, request, requests, user, abort, execute, outgoing, incoming⟩ := c
  cases execute with
  | idle => exact absurd rfl busy
  | reset =>
      by_cases free : UserLine.holdsMux user = false ∧ AbortLine.holdsMux abort = false
      all_goals simp [shows, step, bare, executeStep, ExecuteLine.bare, muxFree, free,
        storeRequestId]
  | _ =>
      simp [shows, step, bare, executeStep, ExecuteLine.bare, storeRequestId, changeConnectedToId]

/-- **A step that takes no message off the queue is the step of the bare client.** -/
theorem shows_bare (self : ConnectionPtr) (noMessage : ¬ c.Takes event) :
    c.bare.shows self event = c.shows self event := by
  cases event with
  | command command => exact shows_command self c command
  | type data =>
      obtain ⟨ids, request, requests, user, abort, execute, outgoing, incoming⟩ := c
      cases user <;> simp [shows, step, bare, UserLine.bare]
  | user => exact shows_user self c
  | abort pressed => exact shows_abort self c pressed
  | execute => exact shows_execute self fun idle => noMessage ⟨rfl, idle⟩

/-- What a step sends is appended to the queue. -/
theorem outgoing_step (taken : c.step self event = some d) :
    d.outgoing = c.outgoing ++ d.outgoing.drop c.outgoing.length := by
  rcases (step_cases taken).sends with same | ⟨envelope, -, appended⟩
  · rw [same, List.drop_length, List.append_nil]
  · rw [appended, List.drop_left]

/-- Only `ExecuteMessages` takes messages off the queue. -/
theorem incoming_step (noMessage : ¬ c.Takes event) (taken : c.step self event = some d) :
    d.incoming = c.incoming := by
  cases step_cases taken with
  | take envelope later line queue => exact absurd ⟨rfl, line⟩ noMessage
  | _ => rfl

/-- **Clients that are bare the same take the same steps**, and send the same messages. -/
theorem exists_step_of_bare (same : c.bare = d.bare) (noMessage : ¬ c.Takes event)
    (taken : c.step self event = some e) :
    ∃ next, d.step self event = some next ∧ next.bare = e.bare ∧ next.incoming = d.incoming ∧
      next.outgoing.map Envelope.msg =
        d.outgoing.map Envelope.msg ++ (e.outgoing.drop c.outgoing.length).map Envelope.msg := by
  have other : ¬ d.Takes event := fun takes => noMessage ⟨takes.1, idle_of_bare same.symm takes.2⟩
  have shown : d.shows self event =
      some (e.bare, (e.outgoing.drop c.outgoing.length).map Envelope.msg) := by
    rw [← shows_bare self other, ← same, shows_bare self noMessage, shows, taken]
    rfl
  obtain ⟨next, moved, agrees⟩ := Option.map_eq_some_iff.mp shown
  obtain ⟨sameNext, sent⟩ := Prod.mk.inj agrees
  refine ⟨next, moved, sameNext, incoming_step other moved, ?_⟩
  rw [outgoing_step moved, List.map_append, sent]

/-! ## Messages -/

/-- The line to which a message leads depends on what is read in it. -/
theorem bare_executeLine {first second : Envelope}
    (same : readMessage first.msg = readMessage second.msg) :
    ExecuteLine.bare (executeLine first) = ExecuteLine.bare (executeLine second) := by
  simp only [executeLine, same]
  cases readMessage second.msg with
  | error fault => rfl
  | ok received =>
      cases received with
      | requestToClient id =>
          simp only [receivedLine]
          split <;> rfl
      | requestAnswer code =>
          simp only [receivedLine]
          split <;> rfl
      | _ => rfl

theorem eq_of_take (idle : c.execute = .idle) (taken : c.step self .execute = some d) :
    ∃ envelope later, c.incoming = envelope :: later ∧
      d = { c with incoming := later, execute := executeLine envelope } := by
  simp only [step, executeStep, idle] at taken
  split at taken
  case h_1 => cases taken
  case h_2 envelope later queue => cases taken; exact ⟨envelope, later, queue, rfl⟩

/-- **Clients that are bare the same take messages the same way** in which the same is read. -/
theorem exists_take_of_bare (self : ConnectionPtr) (same : c.bare = d.bare)
    (idle : c.execute = .idle) {first second : Envelope} (earlier : List Envelope)
    {later : List Envelope} (queue : d.incoming = second :: later)
    (reads : readMessage first.msg = readMessage second.msg) :
    ∃ next, d.step self .execute = some next ∧
      next.bare = ChatClient.bare { c with incoming := earlier, execute := executeLine first } ∧
      next.incoming = later ∧ next.outgoing = d.outgoing := by
  refine ⟨{ d with incoming := later, execute := executeLine second }, ?_, ?_, rfl, rfl⟩
  · simp only [step, executeStep, idle_of_bare same idle, queue]
  · obtain ⟨ids, request, requests, user, abort, execute, outgoing, incoming⟩ := c
    obtain ⟨ids', request', requests', user', abort', execute', outgoing', incoming'⟩ := d
    simp only [bare, mk.injEq, true_and, and_true] at same ⊢
    obtain ⟨sameIds, sameRequests, sameUser, sameAbort, -⟩ := same
    exact ⟨sameIds.symm, sameRequests.symm, sameUser.symm, sameAbort.symm,
      (bare_executeLine reads).symm⟩

end ChatClient

end NetworkChat
