import NetworkChat.Chat.Room
import NetworkChat.Foundation.Accord

/-!
# Agreement in quiet states

`ConnectedToId` of a client is a copy of its partner in `ClientConnections`. The client that
accepts a request writes it after it has sent the acceptance, the other one when it hears of
that, and each erases it when it closes the chat or hears that the other one has.

When no message is on its way, a client that has a copy is paired with the client in it, whose
copy is the first client, in every run in which what is written is the partner, in which a client
that hears of an acceptance writes its copy after the one that accepted, and in which the server
makes pairs only of clients without acceptances left over from earlier ones and hears of a close
after the client has erased its copy (`copiesAgree_of_keeps`). A client can accept a request that it
has declined, and is then connected alone (`late_disagrees`).
-/

set_option autoImplicit false

namespace NetworkChat

open Foundation

namespace ChatClient

/-! ## What is on its way -/

/-- The line handles an acceptance. -/
def ExecuteLine.accepts : ExecuteLine → Bool
  | .loadRequest _ => true
  | .storeConnected _ _ => true
  | _ => false

@[simp] theorem accepts_loadRequest (answer : Envelope) :
    ExecuteLine.accepts (.loadRequest answer) = true := rfl

@[simp] theorem accepts_storeConnected (id : UInt32) (answer : Envelope) :
    ExecuteLine.accepts (.storeConnected id answer) = true := rfl

@[simp] theorem accepts_closeConnected : ExecuteLine.accepts .closeConnected = false := rfl

/-- The line handles neither an acceptance nor a close. -/
def Silent (line : ExecuteLine) : Prop :=
  ExecuteLine.accepts line = false ∧ line ≠ .closeConnected

/-- Some line handles an acceptance, and no line after it a close. -/
def acceptsLast : List ExecuteLine → Bool
  | [] => false
  | line :: later =>
      (ExecuteLine.accepts line && !decide (ExecuteLine.closeConnected ∈ later)) ||
        acceptsLast later

theorem acceptsLast_cons {line : ExecuteLine} (silent : ExecuteLine.accepts line = false)
    (later : List ExecuteLine) : acceptsLast (line :: later) = acceptsLast later := by
  simp only [acceptsLast, silent, Bool.false_and, Bool.false_or]

theorem acceptsLast_append (lines : List ExecuteLine) {line : ExecuteLine}
    (stays : line ≠ .closeConnected) :
    acceptsLast (lines ++ [line]) = (acceptsLast lines || ExecuteLine.accepts line) := by
  induction lines with
  | nil => simp [acceptsLast]
  | cons first later ih =>
      rw [List.cons_append, acceptsLast, acceptsLast, ih, Bool.or_assoc]
      simp [stays.symm]

/-- A close is the last word. -/
theorem acceptsLast_append_close (lines : List ExecuteLine) :
    acceptsLast (lines ++ [.closeConnected]) = false := by
  induction lines with
  | nil => rfl
  | cons first later ih =>
      rw [List.cons_append, acceptsLast, ih]
      simp

/-- The line of `ExecuteMessages`, and those to which the messages in the queue lead. -/
def lines (c : ChatClient) : List ExecuteLine := c.execute :: c.incoming.map executeLine

/-- It has sent an acceptance that the server has not handled. -/
def consents (c : ChatClient) : Bool :=
  c.outgoing.any fun envelope => ExecuteLine.accepts (executeLine envelope)

/-- It has sent a close that the server has not handled. -/
def leaves (c : ChatClient) : Bool :=
  c.outgoing.any fun envelope => executeLine envelope = .closeConnected

/-- It is to handle a close. -/
def dismissed (c : ChatClient) : Bool := ExecuteLine.closeConnected ∈ c.lines

/-- It is to handle an acceptance, and no close after that. -/
def hears (c : ChatClient) : Bool := acceptsLast c.lines

/-- No acceptance of it is to be handled by the server or written, and none is to be heard. -/
def settled (c : ChatClient) : Bool := !c.consents && !UserLine.writes c.user && !c.hears

/-- The partner for which an id stands. -/
def partnerOf (id : UInt32) : Option UInt32 := if id = 0 then none else some id

/-- What the agreement depends on. -/
def party (c : ChatClient) : Party UInt32 where
  copy := partnerOf c.ids.connectedToId
  leaves := c.leaves = true
  erases := c.erases = true
  dismissed := c.dismissed = true
  consents := c.consents = true
  writes := UserLine.writes c.user = true
  hears := c.hears = true

theorem settled_party {c : ChatClient} (settled : c.settled = true) : c.party.Settled := by
  simp only [ChatClient.settled, Bool.and_eq_true, Bool.not_eq_true'] at settled
  obtain ⟨⟨consents, writes⟩, hears⟩ := settled
  simp [Party.Settled, party, consents, writes, hears]

/-- A client is seen as a party that has the same facts. -/
theorem party_eq {c : ChatClient} {party : Party UInt32}
    (copy : partnerOf c.ids.connectedToId = party.copy) (leaves : c.leaves = true ↔ party.leaves)
    (erases : c.erases = true ↔ party.erases) (dismissed : c.dismissed = true ↔ party.dismissed)
    (consents : c.consents = true ↔ party.consents)
    (writes : UserLine.writes c.user = true ↔ party.writes)
    (hears : c.hears = true ↔ party.hears) : c.party = party := by
  cases party
  simp only [ChatClient.party, Party.mk.injEq, eq_iff_iff]
  exact ⟨copy, leaves, erases, dismissed, consents, writes, hears⟩

theorem party_congr {c d : ChatClient} (copy : d.ids.connectedToId = c.ids.connectedToId)
    (leaves : d.leaves = c.leaves) (erases : d.erases = c.erases)
    (dismissed : d.dismissed = c.dismissed) (consents : d.consents = c.consents)
    (writes : UserLine.writes d.user = UserLine.writes c.user) (hears : d.hears = c.hears) :
    d.party = c.party := by
  simp only [party, copy, leaves, erases, dismissed, consents, writes, hears]

/-- The id may be written to `ConnectedToId`: it is that of the partner, and of nobody where
the client has left or has no partner, unless a close will erase it. -/
def StoresPartner (c : ChatClient) (partner : Option UInt32) (id : UInt32) : Prop :=
  if c.leaves ∨ partner = none then id = 0 ∨ c.dismissed else partner = some id ∧ ¬ c.dismissed

/-- It has the other client as its copy, has left, or is not about to write. -/
def HoldsCopy (c : ChatClient) (id : UInt32) : Prop :=
  (c.ids.connectedToId = id ∧ c.dismissed = false) ∨ c.leaves = true ∨
    UserLine.writes c.user = false

instance decidableHoldsCopy (c : ChatClient) (id : UInt32) : Decidable (c.HoldsCopy id) := by
  unfold HoldsCopy
  infer_instance

/-- The id that the line writes to `ConnectedToId`, if it was read from `ConnectionRequestId`. -/
def UserLine.stores : UserLine → Option UInt32
  | .storeConnected id => some id
  | _ => none

/-- The id that the line writes to `ConnectedToId`, if it was read from `ConnectionRequestId`. -/
def ExecuteLine.stores : ExecuteLine → Option UInt32
  | .storeConnected id _ => some id
  | _ => none

/-- What the next line writes to `ConnectedToId` may be written. -/
def StoresCurrent (c : ChatClient) (partner : Option UInt32) : Event → Prop
  | .user => ∀ id ∈ UserLine.stores c.user, c.StoresPartner partner id
  | .execute => ∀ id ∈ ExecuteLine.stores c.execute, c.dismissed ∨ c.StoresPartner partner id
  | _ => True

instance decidableStoresPartner (c : ChatClient) (partner : Option UInt32) (id : UInt32) :
    Decidable (c.StoresPartner partner id) := by
  unfold StoresPartner
  infer_instance

instance decidableStoresCurrent (c : ChatClient) (partner : Option UInt32) (event : Event) :
    Decidable (c.StoresCurrent partner event) := by
  apply event.casesOn (motive := fun event => Decidable (c.StoresCurrent partner event))
  all_goals
    intros
    unfold StoresCurrent
  -- The ids are too many to be tried one after the other.
  case user => exact @Option.decidableForallMem _ _ (fun _ => inferInstance) _
  case execute => exact @Option.decidableForallMem _ _ (fun _ => inferInstance) _
  all_goals infer_instance

theorem StoresPartner.current {c : ChatClient} {partner : Option UInt32} {id : UInt32}
    (stores : c.StoresPartner partner id) (isPartner : partner ≠ some 0) :
    c.party.Current partner (partnerOf id) := by
  rw [StoresPartner] at stores
  split at stores
  case isTrue leaves =>
    right
    refine ⟨leaves, stores.imp_left ?_⟩
    rintro rfl
    rfl
  case isFalse stays =>
    obtain ⟨rfl, notDismissed⟩ := stores
    have notZero : id ≠ 0 := by
      rintro rfl
      exact isPartner rfl
    left
    refine ⟨fun leaves => stays (.inl leaves), notDismissed, Option.some_ne_none id, ?_⟩
    rw [partnerOf, if_neg notZero]

theorem HoldsCopy.bound {c : ChatClient} {id : UInt32} (holds : c.HoldsCopy id)
    (notZero : id ≠ 0) : c.party.Bound id ∨ ¬ c.party.writes := by
  rcases holds with ⟨copy, stays⟩ | leaves | notWrites
  · refine .inl (.inl ⟨?_, ?_⟩)
    · rw [party, partnerOf, copy, if_neg notZero]
    · rw [party, stays]
      exact Bool.false_ne_true
  · exact .inl (.inr leaves)
  · refine .inr ?_
    rw [party, notWrites]
    exact Bool.false_ne_true

/-! ## The messages -/

theorem silent_connectRequest (sender : ConnectionPtr) (asked : UInt32) (ticket : Option Ticket) :
    Silent (executeLine ⟨sender, CustomClient.connectRequest asked, ticket⟩) := by
  have reads : readMessage (CustomClient.connectRequest asked) = .ok (.requestToClient asked) :=
    readMessage_idMsg asked
  simp only [executeLine, reads, receivedLine]
  split
  · exact ⟨rfl, by simp⟩
  · exact ⟨rfl, by simp⟩

theorem silent_text (data : List UInt8) (sender : ConnectionPtr) (ticket : Option Ticket) :
    Silent (executeLine ⟨sender, CustomClient.sendToClient data, ticket⟩) := by
  rcases executeLine_text data sender ticket with line | line
  · rw [line]
    exact ⟨rfl, by simp⟩
  · rw [line]
    exact ⟨rfl, by simp⟩

theorem silent_declined (sender : ConnectionPtr) (ticket : Option Ticket) :
    Silent (executeLine ⟨sender, CustomClient.requestAnswer false, ticket⟩) := by
  rw [executeLine_answer]
  exact ⟨rfl, by simp⟩

theorem executeLine_accepted (sender : ConnectionPtr) (ticket : Option Ticket) :
    executeLine ⟨sender, CustomClient.requestAnswer true, ticket⟩ =
      .loadRequest ⟨sender, CustomClient.requestAnswer true, ticket⟩ :=
  executeLine_answer true sender ticket

theorem executeLine_closeClient (sender : ConnectionPtr) (ticket : Option Ticket) :
    executeLine ⟨sender, CustomClient.closeClient, ticket⟩ = .closeConnected := rfl

/-! ## What a step of a thread does -/

section Steps

variable {self : ConnectionPtr} {c d : ChatClient} {event : Event}

/-- A message that is sent adds what its line says. -/
theorem consents_append (outgoing : List Envelope) (sent : Envelope) :
    ((outgoing ++ [sent]).any fun envelope => ExecuteLine.accepts (executeLine envelope)) =
      ((outgoing.any fun envelope => ExecuteLine.accepts (executeLine envelope)) ||
        ExecuteLine.accepts (executeLine sent)) := by
  simp only [List.any_append, List.any_cons, List.any_nil, Bool.or_false]

theorem leaves_append (outgoing : List Envelope) (sent : Envelope) :
    ((outgoing ++ [sent]).any fun envelope => executeLine envelope = .closeConnected) =
      ((outgoing.any fun envelope => executeLine envelope = .closeConnected) ||
        executeLine sent = .closeConnected) := by
  simp only [List.any_append, List.any_cons, List.any_nil, Bool.or_false]

/-- Sending a silent message changes nothing. -/
theorem party_send {sent : Envelope} (silent : Silent (executeLine sent)) {user : UserLine}
    (erases : UserLine.erases user = UserLine.erases c.user)
    (writes : UserLine.writes user = UserLine.writes c.user) (requests : ℕ) :
    { c with outgoing := c.outgoing ++ [sent], requests := requests, user := user }.party =
      c.party := by
  refine party_congr rfl ?_ ?_ rfl ?_ writes rfl
  · simp only [leaves, leaves_append, silent.2, decide_false, Bool.or_false]
  · simp only [ChatClient.erases, erases]
  · simp only [consents, consents_append, silent.1, Bool.or_false]

/-- An acceptance is sent. -/
theorem party_accept {ticket : Option Ticket} (line : c.user = .sendAnswer true ticket) :
    { c.send self (CustomClient.requestAnswer true) ticket with user := .loadRequest }.party =
      { c.party with consents := True, writes := True } := by
  refine party_eq rfl ?_ ?_ Iff.rfl ?_ ?_ Iff.rfl
  · simp only [leaves, send, leaves_append, executeLine_accepted, reduceCtorEq, decide_false,
      Bool.or_false, party]
  · simp only [party, ChatClient.erases, line]
    exact Iff.rfl
  · simp only [consents, send, consents_append, executeLine_accepted, accepts_loadRequest,
      Bool.or_true]
  · exact iff_of_true rfl trivial

/-- A close is sent, and a thread is about to erase the copy. -/
theorem party_close {user : UserLine} {abort : AbortLine}
    (erases : (UserLine.erases user || AbortLine.erases abort) = true)
    (writes : UserLine.writes user = UserLine.writes c.user) :
    { c.send self CustomClient.closeClient none with user := user, abort := abort }.party =
      { c.party with leaves := True, erases := True } := by
  refine party_eq rfl ?_ ?_ Iff.rfl ?_ ?_ Iff.rfl
  · simp only [leaves, send, leaves_append, executeLine_closeClient, decide_true, Bool.or_true]
  · exact iff_of_true erases trivial
  · simp only [consents, send, consents_append, executeLine_closeClient, accepts_closeConnected,
      Bool.or_false, party]
  · rw [writes]
    exact Iff.rfl

/-- The lines of the threads of the user matter only as far as they erase or write the copy. -/
theorem party_lines {user : UserLine} {abort : AbortLine}
    (erases : (UserLine.erases user || AbortLine.erases abort) = c.erases)
    (writes : UserLine.writes user = UserLine.writes c.user) :
    { c with user := user, abort := abort }.party = c.party :=
  party_congr rfl rfl erases rfl rfl writes rfl

/-- The copy is written or erased by a thread of the user. -/
theorem party_store (id : UInt32) {user : UserLine} {abort : AbortLine} :
    { c.changeConnectedToId id with user := user, abort := abort }.party =
      { c.party with
        copy := partnerOf id,
        erases := (UserLine.erases user || AbortLine.erases abort) = true,
        writes := UserLine.writes user = true } := rfl

/-- `ExecuteMessages` sets `ConnectionRequestId`, and handles no acceptance and no close. -/
theorem party_storeRequestId {before after : ExecuteLine} (line : c.execute = before)
    (silentBefore : Silent before) (silentAfter : Silent after) (id : UInt32)
    (ticket : Option Ticket) :
    { c.storeRequestId id ticket with execute := after }.party = c.party := by
  subst line
  refine party_congr rfl rfl rfl ?_ rfl rfl ?_
  · simp [dismissed, lines, storeRequestId, silentBefore.2.symm, silentAfter.2.symm]
  · simp only [hears, lines, storeRequestId, acceptsLast_cons silentBefore.1,
      acceptsLast_cons silentAfter.1]

/-- Between the lines of `ExecuteMessages` that handle an acceptance. -/
theorem party_load {answer : Envelope} (line : c.execute = .loadRequest answer) (id : UInt32) :
    { c with execute := .storeConnected id answer }.party = c.party := by
  refine party_congr rfl rfl rfl ?_ rfl rfl ?_
  · simp [dismissed, lines, line]
  · simp [hears, lines, line, acceptsLast]

/-- An idle `ExecuteMessages` takes the next message off its queue. -/
theorem party_take {envelope : Envelope} {later : List Envelope} (line : c.execute = .idle)
    (queue : c.incoming = envelope :: later) :
    { c with incoming := later, execute := executeLine envelope }.party = c.party := by
  refine party_congr rfl rfl rfl ?_ rfl rfl ?_
  · simp [dismissed, lines, line, queue]
  · simp only [hears, lines, line, queue, List.map_cons]
    exact (acceptsLast_cons rfl _).symm

/-- A close is handled, and the copy is erased. -/
theorem party_dismissed (line : c.execute = .closeConnected) :
    { c.changeConnectedToId 0 with execute := .closeRequest }.party =
      { c.party with
        copy := none,
        dismissed :=
          { c.changeConnectedToId 0 with execute := .closeRequest }.dismissed = true } := by
  refine party_eq rfl Iff.rfl Iff.rfl Iff.rfl Iff.rfl Iff.rfl ?_
  simp only [party, hears, lines, line]
  exact Iff.rfl

/-- An acceptance is handled, and the copy is written. -/
theorem party_accepted {id : UInt32} {answer : Envelope}
    (line : c.execute = .storeConnected id answer) :
    { c.changeConnectedToId id with execute := .reset }.party =
      { c.party with
        copy := partnerOf id,
        hears := { c.changeConnectedToId id with execute := .reset }.hears = true } := by
  refine party_eq rfl Iff.rfl Iff.rfl ?_ Iff.rfl Iff.rfl Iff.rfl
  simp [party, dismissed, lines, changeConnectedToId, line]

/-- What is handled is heard, unless a close comes after it. -/
theorem hears_of_storeConnected {id : UInt32} {answer : Envelope}
    (line : c.execute = .storeConnected id answer) (stays : c.dismissed = false) :
    c.hears = true := by
  have notLater : ExecuteLine.closeConnected ∉ c.incoming.map executeLine := by
    simpa [dismissed, lines, line] using stays
  simp only [hears, lines, line, acceptsLast, accepts_storeConnected, decide_eq_false notLater,
    Bool.not_false, Bool.and_self, Bool.true_or]

/-- An acceptance with a close after it is not heard. -/
theorem hears_of_dismissed {id : UInt32} {answer : Envelope}
    (line : c.execute = .storeConnected id answer) (dismissed : c.dismissed = true) :
    { c.changeConnectedToId id with execute := .reset }.hears = c.hears := by
  have later : ExecuteLine.closeConnected ∈ c.incoming.map executeLine := by
    simpa [ChatClient.dismissed, lines, line] using dismissed
  simp only [hears, lines, line, changeConnectedToId, acceptsLast, decide_eq_true later,
    Bool.not_true, Bool.and_false, Bool.false_or]

/-- **A step of a thread that meets the condition is a move of its party.** -/
theorem Steps.move (steps : Steps self c event d) {partner : Option UInt32} {told : Prop}
    (isPartner : partner ≠ some 0) (sound : c.party.Sound partner)
    (current : c.StoresCurrent partner event)
    (hearsAfter : ∀ id answer, event = .execute → c.execute = .storeConnected id answer →
      c.dismissed = false → told) : Party.Move partner told c.party d.party := by
  have stays : d.party = c.party → Party.Move partner told c.party d.party := by
    intro same
    rw [same]
    exact sound.stay
  cases steps with
  | lines event user abort passes erases => exact stays (party_lines erases passes.writes)
  | answer command accepted line asked =>
      apply stays
      refine party_lines ?_ ?_
      · rw [ChatClient.erases, line]
        rfl
      · rw [line]
        rfl
  | connectTo id line =>
      apply stays
      exact party_send (silent_connectRequest self id _) (by rw [line]) (by rw [line])
        (c.requests + 1)
  | storeRequest ticket line =>
      apply stays
      refine party_congr rfl rfl ?_ rfl rfl ?_ rfl
      · rw [ChatClient.erases, ChatClient.erases, line]
        rfl
      · rw [line]
        rfl
  | sendAnswer accepted ticket line =>
      cases accepted with
      | true =>
          rw [if_pos rfl, party_accept line]
          exact sound.consent
      | false =>
          apply stays
          exact party_send (silent_declined self ticket) (by rw [line]) (by rw [line])
            c.requests
  | storeConnected id line =>
      have may : c.StoresPartner partner id := current id (by rw [line]; rfl)
      have notErases : UserLine.erases c.user = false := by rw [line]; rfl
      have same : { c.changeConnectedToId id with user := .chat .requestAccept }.party =
          { c.party with copy := partnerOf id, writes := False } := by
        refine party_eq rfl Iff.rfl ?_ Iff.rfl Iff.rfl ?_ Iff.rfl
        · simp only [party, ChatClient.erases, notErases]
          exact Iff.rfl
        · simp [UserLine.writes]
      rw [same]
      exact sound.write (by simp [party, line, UserLine.writes]) (may.current isPartner)
  | sendText caller data line =>
      apply stays
      exact party_send (silent_text data self none) (by rw [line]) (by rw [line]) c.requests
  | sendClose event user abort passes erases =>
      rw [party_close erases passes.writes]
      exact sound.leave
  | eraseConnected event user abort passes erases =>
      rw [party_store, passes.writes]
      exact sound.erase erases
  | eraseRequest event user abort passes erases stores =>
      exact stays (party_lines erases passes.writes)
  | take envelope later line queue => exact stays (party_take line queue)
  | executeStoreRequest id ticket line =>
      exact stays (party_storeRequestId line ⟨rfl, by simp⟩ ⟨rfl, by simp⟩ id ticket)
  | executeLoad answer line => exact stays (party_load line _)
  | executeStoreConnected id answer line =>
      have may : c.dismissed = true ∨ c.StoresPartner partner id := current id (by rw [line]; rfl)
      cases isDismissed : c.dismissed with
      | true =>
          rw [party_accepted line, hears_of_dismissed line isDismissed]
          exact sound.overwrite isDismissed
      | false =>
          have stores := may.resolve_left (by simp [isDismissed])
          rw [party_accepted line]
          exact sound.hear (hears_of_storeConnected line isDismissed)
            (hearsAfter id answer rfl line isDismissed) (stores.current isPartner)
  | executeReset line =>
      exact stays (party_storeRequestId line ⟨rfl, by simp⟩ ⟨rfl, by simp⟩ 0 none)
  | executeCloseConnected line =>
      rw [party_dismissed line]
      have dismissed : c.dismissed = true := by simp [ChatClient.dismissed, ChatClient.lines, line]
      exact sound.hearDismissal dismissed
  | executeCloseRequest line =>
      exact stays (party_storeRequestId line ⟨rfl, by simp⟩ ⟨rfl, by simp⟩ 0 none)

end Steps

/-! ## What the server does to its clients -/

/-- A message arrives. -/
def receive (c : ChatClient) (arrived : Envelope) : ChatClient :=
  { c with incoming := c.incoming ++ [arrived] }

/-- The server has handled a message, and these are left. -/
def handled (c : ChatClient) (later : List Envelope) : ChatClient := { c with outgoing := later }

section Serve

variable {c : ChatClient}

theorem lines_receive (arrived : Envelope) :
    (c.receive arrived).lines = c.lines ++ [executeLine arrived] := by
  simp only [lines, receive, List.map_append, List.map_cons, List.map_nil, List.cons_append]

theorem party_receive {arrived : Envelope} (silent : Silent (executeLine arrived)) :
    (c.receive arrived).party = c.party := by
  refine party_congr rfl rfl rfl ?_ rfl rfl ?_
  · simp [dismissed, lines_receive, silent.2.symm]
  · rw [hears, hears, lines_receive, acceptsLast_append _ silent.2, silent.1, Bool.or_false]

theorem party_receive_accepted {arrived answer : Envelope}
    (line : executeLine arrived = .loadRequest answer) :
    (c.receive arrived).party = { c.party with hears := True } := by
  refine party_eq rfl Iff.rfl Iff.rfl ?_ Iff.rfl Iff.rfl ?_
  · simp [party, dismissed, lines_receive, line]
  · rw [hears, lines_receive, line, acceptsLast_append _ (by simp), accepts_loadRequest,
      Bool.or_true]
    exact iff_of_true rfl trivial

theorem party_receive_close {arrived : Envelope} (line : executeLine arrived = .closeConnected) :
    (c.receive arrived).party = { c.party with dismissed := True, hears := False } := by
  refine party_eq rfl Iff.rfl Iff.rfl ?_ Iff.rfl Iff.rfl ?_
  · simp [dismissed, lines_receive, line]
  · rw [hears, lines_receive, line, acceptsLast_append_close]
    simp

variable {envelope : Envelope} {later : List Envelope}

theorem party_handled (queue : c.outgoing = envelope :: later)
    (silent : Silent (executeLine envelope)) : (c.handled later).party = c.party := by
  refine party_congr rfl ?_ rfl rfl ?_ rfl rfl
  · simp only [leaves, handled, queue, List.any_cons, silent.2, decide_false, Bool.false_or]
  · simp only [consents, handled, queue, List.any_cons, silent.1, Bool.false_or]

theorem party_handled_accepted {answer : Envelope} (queue : c.outgoing = envelope :: later)
    (line : executeLine envelope = .loadRequest answer) :
    (c.handled later).party = { c.party with consents := (c.handled later).consents = true } := by
  refine party_eq rfl ?_ Iff.rfl Iff.rfl Iff.rfl Iff.rfl Iff.rfl
  simp only [party, leaves, handled, queue, List.any_cons, line, reduceCtorEq, decide_false,
    Bool.false_or]

theorem party_handled_close (queue : c.outgoing = envelope :: later)
    (line : executeLine envelope = .closeConnected) :
    (c.handled later).party = { c.party with leaves := (c.handled later).leaves = true } := by
  refine party_eq rfl Iff.rfl Iff.rfl Iff.rfl ?_ Iff.rfl Iff.rfl
  simp only [party, consents, handled, queue, List.any_cons, line, accepts_closeConnected,
    Bool.false_or]

end Serve

end ChatClient

namespace ChatRoom

/-- The client that has an id. -/
def holder (room : ChatRoom) (key : UInt32) : Option ConnectionPtr :=
  if 10000 ≤ key.toNat ∧ key.toNat - 10000 < room.hall.peers.length then
    some (key.toNat - 10000)
  else none

/-- The clients by their ids. -/
def party (room : ChatRoom) (key : UInt32) : Party UInt32 :=
  match room.holder key with
  | some client => (room.clients client).party
  | none => ChatClient.start.party

theorem Honest.holder_id {room : ChatRoom} (honest : Honest room)
    (few : room.hall.peers.length + 10000 ≤ 2 ^ 32) {client : ConnectionPtr}
    (known : client < room.hall.peers.length) : room.holder (room.id client) = some client := by
  rw [holder, honest.toNat_id few known, Nat.add_sub_cancel_left, if_pos]
  exact ⟨Nat.le_add_right 10000 client, known⟩

theorem Honest.of_holder {room : ChatRoom} (honest : Honest room)
    (few : room.hall.peers.length + 10000 ≤ 2 ^ 32) {client : ConnectionPtr} {key : UInt32}
    (holds : room.holder key = some client) :
    client < room.hall.peers.length ∧ room.id client = key := by
  rw [holder] at holds
  split at holds
  case isFalse => cases holds
  case isTrue known =>
    obtain ⟨large, isKnown⟩ := known
    rw [Option.some.inj holds] at isKnown
    refine ⟨isKnown, UInt32.toNat_inj.mp ?_⟩
    rw [honest.toNat_id few isKnown, ← Option.some.inj holds]
    exact Nat.add_sub_of_le large

theorem Honest.party_id {room : ChatRoom} (honest : Honest room)
    (few : room.hall.peers.length + 10000 ≤ 2 ^ 32) {client : ConnectionPtr}
    (known : client < room.hall.peers.length) :
    room.party (room.id client) = (room.clients client).party := by
  simp only [party, honest.holder_id few known]

/-! ## The property and the condition -/

/-- In a quiet state, who is connected to a client is paired with it, and the client is connected
to it. -/
def CopiesAgree (room : ChatRoom) : Prop :=
  room.Quiet → ∀ client < room.hall.peers.length, (room.clients client).ids.connectedToId ≠ 0 →
    ∃ other < room.hall.peers.length,
      room.id other = (room.clients client).ids.connectedToId ∧
      (room.clients other).ids.connectedToId = room.id client ∧
      room.hall.server.clientConnections (room.id client) = some (room.id other) ∧
      room.hall.server.clientConnections (room.id other) = some (room.id client)

/-- A request makes a pair only of clients without acceptances left over from earlier pairs. -/
def PairsSettled (room : ChatRoom) (client : ConnectionPtr) (envelope : Envelope) : Prop :=
  envelope.msg.header.id = .requestToClient → ∀ ticket ∈ envelope.ticket,
    room.hall.server.clientConnections (room.id client) = none →
    room.hall.server.clientConnections ticket.asked = none →
    ∀ other < room.hall.peers.length, room.id other = ticket.asked → other ≠ client →
      (room.clients client).settled = true ∧ (room.clients other).settled = true

/-- A close is handled after its sender has erased its copy. -/
def HandlesAfter (room : ChatRoom) (client : ConnectionPtr) (envelope : Envelope) : Prop :=
  ChatClient.executeLine envelope = .closeConnected → (room.clients client).erases = false

/-- A client that hears of an acceptance, and of no close after it, writes its copy when its partner
holds one. -/
def HearsAfter (room : ChatRoom) (client : ConnectionPtr) : ChatClient.Event → Prop
  | .execute => ∀ _id ∈ ChatClient.ExecuteLine.stores (room.clients client).execute,
      (room.clients client).dismissed = true ∨ ∀ other < room.hall.peers.length,
        room.hall.server.clientConnections (room.id client) = some (room.id other) →
          (room.clients other).HoldsCopy (room.id client)
  | _ => True

/-- Copies are written with the id of the partner, that of a client that accepts before that of the
client that hears of it, and the server handles a close after the copy is erased. The ids do not
wrap. -/
def KeepsCopies (room : ChatRoom) : Event → Prop
  | .join => 10000 + room.hall.peers.length < 2 ^ 32
  | .client client event =>
      (room.clients client).StoresCurrent
        (room.hall.server.clientConnections (room.id client)) event ∧
      room.HearsAfter client event
  | .serve client => ∀ envelope ∈ (room.clients client).outgoing.head?,
      room.PairsSettled client envelope ∧ room.HandlesAfter client envelope

instance decidablePairsSettled (room : ChatRoom) (client : ConnectionPtr) (envelope : Envelope) :
    Decidable (room.PairsSettled client envelope) := by
  unfold PairsSettled
  refine @instDecidableForall _ _ inferInstance ?_
  refine @Option.decidableForallMem _ _ (fun ticket => ?_) _
  refine @instDecidableForall _ _ inferInstance (@instDecidableForall _ _ inferInstance ?_)
  infer_instance

instance decidableHearsAfter (room : ChatRoom) (client : ConnectionPtr)
    (event : ChatClient.Event) : Decidable (room.HearsAfter client event) := by
  apply event.casesOn (motive := fun event => Decidable (room.HearsAfter client event))
  all_goals
    intros
    unfold HearsAfter
  case execute => exact @Option.decidableForallMem _ _ (fun _ => inferInstance) _
  all_goals infer_instance

instance decidableHandlesAfter (room : ChatRoom) (client : ConnectionPtr) (envelope : Envelope) :
    Decidable (room.HandlesAfter client envelope) := by
  unfold HandlesAfter
  infer_instance

instance decidableKeepsCopies (room : ChatRoom) (event : Event) :
    Decidable (room.KeepsCopies event) := by
  apply event.casesOn (motive := fun event => Decidable (room.KeepsCopies event))
  all_goals
    intros
    unfold KeepsCopies
    infer_instance

/-- The copies agree with the pairing, as far as nothing is on its way that will change them. -/
structure Agreeing (room : ChatRoom) : Prop where
  honest : room.Honest
  few : room.hall.peers.length + 10000 ≤ 2 ^ 32
  accord : ∃ matching : Matching UInt32, room.hall.server.clientConnections = matching.partner ∧
    Accord matching room.party

theorem party_start (key : UInt32) : start.party key = ChatClient.start.party := by
  cases holds : start.holder key with
  | none => simp only [party, holds]
  | some client => simp only [party, holds]; rfl

/-- A client that has just connected is seen as one that is not there. -/
theorem party_welcome {welcome : Envelope} (greets : ChatClient.executeLine welcome = .idle) :
    { ChatClient.start with incoming := [welcome] }.party = ChatClient.start.party := by
  have silent : ChatClient.Silent (ChatClient.executeLine welcome) := by
    rw [greets]
    exact ⟨rfl, by simp⟩
  exact ChatClient.party_receive (c := ChatClient.start) silent

theorem agreeing_start : Agreeing start where
  honest := honest_start
  few := by simp [start, Hall.start]
  accord := by
    refine ⟨Matching.empty, rfl, ?_, ?_, ?_, ?_⟩
    · intro key
      rw [party_start]
      constructor
      all_goals
        simp [ChatClient.party, ChatClient.start, ChatClient.leaves, ChatClient.erases,
          ChatClient.consents, ChatClient.UserLine.erases, ChatClient.AbortLine.erases,
          ChatClient.UserLine.writes]
    · intro key other held
      rw [party_start] at held
      cases held
    · intro key other has
      cases has
    · intro key other has
      cases has

section Step

variable {room next : ChatRoom}

/-- The new client has an id that nobody had. -/
theorem holder_join (room : ChatRoom) (key : UInt32) :
    (room.join.holder key = some room.hall.peers.length ∧ room.holder key = none) ∨
      room.join.holder key = room.holder key := by
  by_cases known : 10000 ≤ key.toNat ∧ key.toNat - 10000 < room.hall.peers.length
  · right
    rw [holder, holder, if_pos known, join_length, if_pos ⟨known.1, Nat.lt_succ_of_lt known.2⟩]
  · by_cases isNew : 10000 ≤ key.toNat ∧ key.toNat - 10000 < room.hall.peers.length + 1
    · have same : key.toNat - 10000 = room.hall.peers.length :=
        Nat.le_antisymm (Nat.le_of_lt_succ isNew.2)
          (Nat.le_of_not_lt fun before => known ⟨isNew.1, before⟩)
      left
      refine ⟨?_, if_neg known⟩
      rw [holder, join_length, if_pos isNew, same]
    · right
      rw [holder, holder, if_neg known, join_length, if_neg isNew]

theorem Agreeing.join (agreeing : Agreeing room) (small : 10000 + room.hall.peers.length < 2 ^ 32)
    (honest : room.join.Honest) : Agreeing room.join := by
  have same : room.join.party = room.party := by
    funext key
    rcases holder_join room key with ⟨isNew, nobody⟩ | still
    · have greets := ChatClient.executeLine_welcome room.hall.peers.length
        room.hall.server.nIDCounter
      simp only [party, isNew, nobody, join_new, party_welcome greets]
    · cases holds : room.holder key with
      | none => simp only [party, still, holds]
      | some client =>
          have known := (agreeing.honest.of_holder agreeing.few holds).1
          simp only [party, still, holds, join_other room (Nat.ne_of_lt known)]
  obtain ⟨matching, represents, accord⟩ := agreeing.accord
  refine ⟨honest, ?_, matching, represents, ?_⟩
  · rw [join_length]
    omega
  · rw [same]
    exact accord

/-- A step of a thread is seen at its client only. -/
theorem Agreeing.party_moved (agreeing : Agreeing room) {client : ConnectionPtr}
    (known : client < room.hall.peers.length) (c : ChatClient) :
    (room.moved client c).party = Function.update room.party (room.id client) c.party := by
  funext key
  by_cases isMover : key = room.id client
  · rw [isMover, Function.update_self]
    have holds : (room.moved client c).holder (room.id client) = some client :=
      agreeing.honest.holder_id agreeing.few known
    simp only [party, holds, moved_self]
  · rw [Function.update_of_ne isMover]
    cases holds : room.holder key with
    | none =>
        have still : (room.moved client c).holder key = none := holds
        simp only [party, holds, still]
    | some other =>
        have still : (room.moved client c).holder key = some other := holds
        have differs : other ≠ client := by
          rintro rfl
          exact isMover (agreeing.honest.of_holder agreeing.few holds).2.symm
        simp only [party, holds, still, moved_other room c differs]

/-- No partner has the id 0. -/
theorem Agreeing.partner_ne_zero (agreeing : Agreeing room) {matching : Matching UInt32}
    (represents : room.hall.server.clientConnections = matching.partner) (key : UInt32) :
    matching.partner key ≠ some 0 := by
  intro zero
  obtain ⟨receiver, found⟩ := agreeing.honest.found_of_paired represents zero
  obtain ⟨known, isZero⟩ := agreeing.honest.known_of_findClient found
  have large := agreeing.honest.le_id agreeing.few known
  rw [isZero] at large
  exact absurd large (by decide)

/-- The partner of a client that hears of an acceptance holds its copy. -/
theorem Agreeing.told (agreeing : Agreeing room) {matching : Matching UInt32}
    (represents : room.hall.server.clientConnections = matching.partner) {client : ConnectionPtr}
    {event : ChatClient.Event} (known : client < room.hall.peers.length)
    (hearsAfter : room.HearsAfter client event) (id : UInt32) (answer : Envelope)
    (executes : event = .execute) (line : (room.clients client).execute = .storeConnected id answer)
    (stays : (room.clients client).dismissed = false) :
    PartnerWrote matching room.party (room.id client) := by
  subst executes
  have large := agreeing.honest.le_id agreeing.few known
  have notZero : room.id client ≠ 0 := by
    intro zero
    rw [zero] at large
    exact absurd large (by decide)
  have holds := (hearsAfter id (by rw [line]; rfl)).resolve_left (by simp [stays])
  intro key partnered
  obtain ⟨other, found⟩ := agreeing.honest.found_of_paired represents partnered
  obtain ⟨otherKnown, rfl⟩ := agreeing.honest.known_of_findClient found
  rw [agreeing.honest.party_id agreeing.few otherKnown]
  exact (holds other otherKnown (represents ▸ partnered)).bound notZero

theorem Agreeing.moved (agreeing : Agreeing room) {client : ConnectionPtr}
    {event : ChatClient.Event} {c : ChatClient} (known : client < room.hall.peers.length)
    (keeps : room.KeepsCopies (.client client event))
    (taken : (room.clients client).step client event = some c)
    (honest : (room.moved client c).Honest) : Agreeing (room.moved client c) := by
  obtain ⟨matching, represents, accord⟩ := agreeing.accord
  refine ⟨honest, agreeing.few, matching, represents, ?_⟩
  rw [agreeing.party_moved known]
  apply accord.move
  have sound := accord.sound (room.id client)
  have told := agreeing.told represents known keeps.2
  rw [agreeing.honest.party_id agreeing.few known] at sound ⊢
  refine (ChatClient.step_cases taken).move (agreeing.partner_ne_zero represents _) sound ?_ told
  rw [← represents]
  exact keeps.1

/-! ### The server handles a message -/

section Serves

variable {matching : Matching UInt32} {client receiver : ConnectionPtr} {envelope : Envelope}
  {later : List Envelope} {msg : Message CustomMsgTypes}

/-- What is seen after the server has handled a message, client by client. -/
theorem Agreeing.party_settle (agreeing : Agreeing room)
    (samePeers : next.hall.peers = room.hall.peers) (key : UInt32) {calls : List Call}
    (clients : next.clients = room.settle client envelope later calls) :
    (∃ other < room.hall.peers.length, room.id other = key ∧
        next.party key = (room.settle client envelope later calls other).party ∧
        room.party key = (room.clients other).party) ∨
      next.party key = room.party key := by
  have still : next.holder key = room.holder key := by rw [holder, holder, samePeers]
  cases holds : room.holder key with
  | none => exact .inr (by simp only [party, still, holds])
  | some other =>
      obtain ⟨known, isId⟩ := agreeing.honest.of_holder agreeing.few holds
      exact .inl ⟨other, known, isId, by simp only [party, still, holds, clients],
        by simp only [party, holds]⟩

theorem settle_send (room : ChatRoom) (client receiver other : ConnectionPtr) (envelope : Envelope)
    (later : List Envelope) (msg : Message CustomMsgTypes) :
    room.settle client envelope later [.send receiver msg] other =
      if receiver = other then
        (if other = client then (room.clients other).handled later
          else room.clients other).receive ⟨envelope.sender, msg, envelope.ticket⟩
      else if other = client then (room.clients other).handled later
      else room.clients other := by
  simp only [settle, deliveries_send, ChatClient.receive, ChatClient.handled]
  by_cases isReceiver : receiver = other
  · by_cases isClient : other = client
    · simp only [if_pos isReceiver, if_pos isClient, List.map_cons, List.map_nil]
    · simp only [if_pos isReceiver, if_neg isClient, List.map_cons, List.map_nil]
  · by_cases isClient : other = client
    · simp only [if_neg isReceiver, if_pos isClient, List.map_nil, List.append_nil]
    · simp only [if_neg isReceiver, if_neg isClient, List.map_nil, List.append_nil]

/-- The clients that a message goes from and to are seen to change, and no others. -/
theorem Agreeing.party_relay (agreeing : Agreeing room) (envelope : Envelope)
    (samePeers : next.hall.peers = room.hall.peers) (distinct : receiver ≠ client)
    (clientKnown : client < room.hall.peers.length)
    (receiverKnown : receiver < room.hall.peers.length)
    (clients : next.clients = room.settle client envelope later [.send receiver msg]) :
    next.party (room.id client) = ((room.clients client).handled later).party ∧
      next.party (room.id receiver) =
        ((room.clients receiver).receive ⟨envelope.sender, msg, envelope.ticket⟩).party ∧
      ∀ key, key ≠ room.id client → key ≠ room.id receiver → next.party key = room.party key := by
  have seen : ∀ other < room.hall.peers.length, next.party (room.id other) =
      (room.settle client envelope later [.send receiver msg] other).party := by
    intro other known
    have holds : next.holder (room.id other) = some other := by
      rw [holder, samePeers]
      exact agreeing.honest.holder_id agreeing.few known
    simp only [party, holds, clients]
  refine ⟨?_, ?_, ?_⟩
  · rw [seen client clientKnown, settle_send, if_neg distinct, if_pos rfl]
  · rw [seen receiver receiverKnown, settle_send, if_pos rfl, if_neg distinct]
  · intro key notClient notReceiver
    rcases agreeing.party_settle samePeers key clients with ⟨other, known, rfl, now, before⟩ | same
    · rw [now, before, settle_send, if_neg, if_neg]
      · rintro rfl
        exact notClient rfl
      · rintro rfl
        exact notReceiver rfl
    · exact same

/-- A message that is silent when it is sent and when it arrives is not seen. -/
theorem Agreeing.party_silent (agreeing : Agreeing room)
    (samePeers : next.hall.peers = room.hall.peers)
    (queue : (room.clients client).outgoing = envelope :: later)
    (sent : ChatClient.Silent (ChatClient.executeLine envelope))
    (arrives : ChatClient.Silent
      (ChatClient.executeLine ⟨envelope.sender, msg, envelope.ticket⟩))
    (clients : next.clients = room.settle client envelope later [.send receiver msg]) :
    next.party = room.party := by
  funext key
  rcases agreeing.party_settle samePeers key clients with ⟨other, known, rfl, now, before⟩ | same
  · have handled : (if other = client then (room.clients other).handled later
        else room.clients other).party = (room.clients other).party := by
      split
      case isTrue isClient =>
        subst isClient
        exact ChatClient.party_handled queue sent
      case isFalse => rfl
    rw [now, before, settle_send]
    split
    · rw [ChatClient.party_receive arrives, handled]
    · exact handled
  · exact same

theorem settle_nil (room : ChatRoom) (client other : ConnectionPtr) (envelope : Envelope)
    (later : List Envelope) :
    room.settle client envelope later [] other =
      if other = client then (room.clients other).handled later else room.clients other := by
  by_cases isClient : other = client
  · simp [settle, isClient, ChatClient.handled]
  · simp [settle, isClient]

/-- The message of a client without partner is lost. -/
theorem Agreeing.accord_lose (agreeing : Agreeing room) (accord : Accord matching room.party)
    (alone : matching.partner (room.id client) = none)
    (clientKnown : client < room.hall.peers.length)
    (queue : (room.clients client).outgoing = envelope :: later)
    (handles : room.HandlesAfter client envelope)
    (samePeers : next.hall.peers = room.hall.peers)
    (clients : next.clients = room.settle client envelope later []) :
    Accord matching next.party := by
  have isParty := agreeing.honest.party_id agreeing.few clientKnown
  have sound := accord.sound (room.id client)
  rw [isParty] at sound
  have sender : next.party (room.id client) =
      { room.party (room.id client) with
        leaves := ((room.clients client).handled later).leaves = true,
        consents := ((room.clients client).handled later).consents = true } := by
    have holds : next.holder (room.id client) = some client := by
      rw [holder, samePeers]
      exact agreeing.honest.holder_id agreeing.few clientKnown
    rw [isParty]
    simp only [party, holds, clients, settle_nil, if_pos]
    rfl
  refine accord.lose alone ?_ ?_ sender ?_
  · intro leaves
    rw [isParty]
    simp only [ChatClient.party, ChatClient.leaves, queue, List.any_cons, Bool.or_eq_true]
    exact .inr leaves
  · intro erases
    rw [isParty] at erases
    have leaves : (room.clients client).leaves = true := sound.erases erases
    simp only [ChatClient.leaves, queue, List.any_cons, Bool.or_eq_true, decide_eq_true_eq]
      at leaves
    apply leaves.resolve_left
    intro close
    have erased : (room.clients client).erases = true := erases
    cases erased.symm.trans (handles close)
  · intro key notClient
    rcases agreeing.party_settle samePeers key clients with ⟨other, known, rfl, now, before⟩ | same
    · rw [now, before, settle_nil, if_neg]
      rintro rfl
      exact notClient rfl
    · exact same

theorem Agreeing.serves (agreeing : Agreeing room)
    (represents : room.hall.server.clientConnections = matching.partner)
    (accord : Accord matching room.party) (clientKnown : client < room.hall.peers.length)
    (queue : (room.clients client).outgoing = envelope :: later)
    (keeps : room.PairsSettled client envelope ∧ room.HandlesAfter client envelope)
    (serves : Serves room matching client later envelope next) (honest : next.Honest) :
    Agreeing next := by
  have samePeers := serves.deque.2.2
  have few : next.hall.peers.length + 10000 ≤ 2 ^ 32 := samePeers ▸ agreeing.few
  -- A message that is not seen leaves the accord as it is.
  have unseen : next.hall.server.clientConnections = matching.partner →
      next.party = room.party → Agreeing next := by
    intro still same
    exact ⟨honest, few, matching, still, same ▸ accord⟩
  have isParty := agreeing.honest.party_id agreeing.few clientKnown
  cases serves with
  | fails fault _ alone noRequest =>
      exact ⟨honest, few, matching, represents,
        agreeing.accord_lose accord alone clientKnown queue keeps.2 samePeers rfl⟩
  | refuse asked number code coded _ isRequest =>
      subst isRequest
      apply unseen represents
      refine agreeing.party_silent samePeers queue
        (ChatClient.silent_connectRequest client asked _) ?_ rfl
      rw [ChatClient.executeLine_code coded]
      exact ⟨rfl, by simp⟩
  | pair asked number receiver _ isRequest known isAsked distinct clientFree askedFree =>
      subst isRequest
      have differs : receiver ≠ client := by
        rintro rfl
        exact distinct isAsked
      have same : ChatRoom.party _ = room.party := agreeing.party_silent samePeers queue
        (ChatClient.silent_connectRequest client asked _) (by
          rw [ChatClient.executeLine_request (agreeing.honest.le_id agreeing.few clientKnown)]
          exact ⟨rfl, by simp⟩) rfl
      obtain ⟨clientSettled, receiverSettled⟩ := keeps.1 rfl ⟨client, asked, number⟩ rfl
        (represents ▸ clientFree) (represents ▸ askedFree) receiver known isAsked differs
      refine ⟨honest, few, _, rfl, ?_⟩
      rw [same]
      have receiverParty := agreeing.honest.party_id agreeing.few known
      rw [isAsked] at receiverParty
      apply accord.join distinct clientFree askedFree
      · rw [isParty]
        exact ChatClient.settled_party clientSettled
      · rw [receiverParty]
        exact ChatClient.settled_party receiverSettled
  | text data receiver _ isText known paired =>
      subst isText
      apply unseen represents
      exact agreeing.party_silent samePeers queue (ChatClient.silent_text data client none)
        (ChatClient.silent_text data client none) rfl
  | answer accepted ticket receiver _ isAnswer known paired =>
      subst isAnswer
      cases accepted with
      | false =>
          apply unseen represents
          exact agreeing.party_silent samePeers queue (ChatClient.silent_declined client ticket)
            (ChatClient.silent_declined client ticket) rfl
      | true =>
          have line := ChatClient.executeLine_accepted client ticket
          have differs : receiver ≠ client := by
            rintro rfl
            exact matching.irreflexive _ paired
          obtain ⟨sender, receives, others⟩ := agreeing.party_relay
            ⟨client, CustomClient.requestAnswer true, ticket⟩ samePeers differs clientKnown known
              rfl
          rw [ChatClient.party_handled_accepted queue line, ← isParty] at sender
          rw [ChatClient.party_receive_accepted line,
            ← agreeing.honest.party_id agreeing.few known] at receives
          refine ⟨honest, few, matching, represents, ?_⟩
          refine accord.pass paired ?_ sender receives others
          rw [isParty]
          simp [ChatClient.party, ChatClient.consents, queue, line]
  | close receiver _ isClose known paired =>
      subst isClose
      have line := ChatClient.executeLine_closeClient client none
      have differs : receiver ≠ client := by
        rintro rfl
        exact matching.irreflexive _ paired
      obtain ⟨sender, receives, others⟩ := agreeing.party_relay
        ⟨client, CustomClient.closeClient, none⟩ samePeers differs clientKnown known rfl
      rw [ChatClient.party_handled_close queue line, ← isParty] at sender
      rw [ChatClient.party_receive_close (ChatClient.executeLine_close client none),
        ← agreeing.honest.party_id agreeing.few known] at receives
      refine ⟨honest, few, _, rfl, ?_⟩
      refine accord.part paired ?_ ?_ sender receives others
      · rw [isParty]
        simp [ChatClient.party, ChatClient.leaves, queue, line]
      · rw [isParty]
        have erased := keeps.2 line
        simp [ChatClient.party, erased]

end Serves

/-- **A step that meets the condition keeps the copies in agreement.** -/
theorem Agreeing.step {event : Event} (agreeing : Agreeing room) (keeps : room.KeepsCopies event)
    (taken : room.step event = some next) : Agreeing next := by
  have honest := agreeing.honest.step taken
  obtain ⟨-, acted⟩ := step_eq_some taken
  cases event with
  | join => cases acted; exact agreeing.join keeps honest
  | client client event =>
      obtain ⟨known, c, moved, rfl⟩ := act_client acted
      exact agreeing.moved known keeps moved honest
  | serve client =>
      obtain ⟨known, envelope, later, queue, rfl⟩ := act_serve acted
      obtain ⟨matching, represents, accord⟩ := agreeing.accord
      have wrote := agreeing.honest.wrote client envelope
        (by rw [queue]; exact List.mem_cons_self)
      have handled := keeps envelope (by rw [queue]; rfl)
      exact agreeing.serves represents accord known queue handled
        (agreeing.honest.serve_cases represents wrote later) honest

/-- In a quiet state nothing is on its way to or from anybody. -/
theorem Agreeing.quiet (agreeing : Agreeing room) (quiet : room.Quiet) (key : UInt32) :
    ¬ (room.party key).leaves ∧ ¬ (room.party key).dismissed ∧ ¬ (room.party key).consents ∧
      ¬ (room.party key).hears := by
  have silent : ∀ c : ChatClient, c.outgoing = [] → c.incoming = [] → c.execute = .idle →
      ¬ c.party.leaves ∧ ¬ c.party.dismissed ∧ ¬ c.party.consents ∧ ¬ c.party.hears := by
    intro c outgoing incoming idle
    simp [ChatClient.party, ChatClient.leaves, ChatClient.dismissed, ChatClient.consents,
      ChatClient.hears, ChatClient.lines, ChatClient.acceptsLast, ChatClient.ExecuteLine.accepts,
      outgoing, incoming, idle]
  cases holds : room.holder key with
  | none =>
      simp only [party, holds]
      exact silent ChatClient.start rfl rfl rfl
  | some client =>
      obtain ⟨outgoing, incoming, idle⟩ :=
        quiet client (agreeing.honest.of_holder agreeing.few holds).1
      simp only [party, holds]
      exact silent (room.clients client) outgoing incoming idle

theorem Agreeing.copiesAgree (agreeing : Agreeing room) : room.CopiesAgree := by
  intro quiet client known connected
  obtain ⟨matching, represents, accord⟩ := agreeing.accord
  have held : (room.party (room.id client)).copy =
      some (room.clients client).ids.connectedToId := by
    rw [agreeing.honest.party_id agreeing.few known]
    exact if_neg connected
  obtain ⟨copy, paired, back⟩ := accord.agree (agreeing.quiet quiet) held
  obtain ⟨other, found⟩ := agreeing.honest.found_of_paired represents paired
  obtain ⟨otherKnown, isOther⟩ := agreeing.honest.known_of_findClient found
  rw [← isOther, agreeing.honest.party_id agreeing.few otherKnown] at copy
  refine ⟨other, otherKnown, isOther, ?_, ?_, ?_⟩
  · have same : ChatClient.partnerOf (room.clients other).ids.connectedToId =
        some (room.id client) := copy
    rw [ChatClient.partnerOf] at same
    split at same
    case isTrue => cases same
    case isFalse => exact Option.some.inj same
  · rw [represents, isOther]
    exact paired
  · rw [represents, isOther]
    exact back

end Step

/-- **The copies agree in the quiet states of every run whose steps meet the condition.** -/
theorem copiesAgree_of_keeps (events : List Event) (keeps : Meets step KeepsCopies start events) :
    Throughout step CopiesAgree start events := by
  have agreeing : Throughout step Agreeing start events :=
    throughout_of_meets (fun room event next agreeing keeps taken => agreeing.step keeps taken)
      agreeing_start keeps
  exact agreeing.mono fun room => Agreeing.copiesAgree

/-- A client requests another, which accepts; they chat, and the second closes the chat. -/
def chatted : List Event :=
  [.join, .join, .client 0 .execute, .client 1 .execute,
    .client 0 (.command (.connectTo 10001)), .client 0 .user, .serve 0,
    .client 1 .execute, .client 1 .execute,
    .client 1 (.command .requestAccept), .client 1 .user, .client 1 .user, .client 1 .user,
    .serve 1, .client 0 .execute, .client 0 .execute, .client 0 .execute, .client 0 .execute,
    .client 1 (.type [104, 105]), .client 1 .user, .client 1 .user, .serve 1, .client 0 .execute,
    .client 1 (.type ChatClient.closeText), .client 1 .user, .client 1 .user, .client 1 .user,
    .serve 1, .client 0 .execute, .client 0 .execute, .client 0 .execute]

/-- The same, but the first client has read the acceptance before the second writes its copy. -/
def relayedFirst : List Event :=
  [.join, .join, .client 0 .execute, .client 1 .execute,
    .client 0 (.command (.connectTo 10001)), .client 0 .user, .serve 0,
    .client 1 .execute, .client 1 .execute,
    .client 1 (.command .requestAccept), .client 1 .user, .serve 1,
    .client 0 .execute, .client 0 .execute, .client 1 .user, .client 1 .user,
    .client 0 .execute, .client 0 .execute,
    .client 1 (.type ChatClient.closeText), .client 1 .user, .client 1 .user, .client 1 .user,
    .serve 1, .client 0 .execute, .client 0 .execute, .client 0 .execute]

theorem copiesAgree_chatted :
    Throughout step CopiesAgree start chatted ∧ Throughout step CopiesAgree start relayedFirst :=
  ⟨copiesAgree_of_keeps chatted (by decide +kernel),
    copiesAgree_of_keeps relayedFirst (by decide +kernel)⟩

/-- A client declines a request, which the first client hears, and then accepts it. -/
def late : List Event :=
  [.join, .join, .client 0 .execute, .client 1 .execute,
    .client 0 (.command (.connectTo 10001)), .client 0 .user, .serve 0,
    .client 1 .execute, .client 1 .execute,
    .client 1 (.command .requestDecline), .client 1 .user, .serve 1,
    .client 0 .execute, .client 0 .execute,
    -- The command of the first client returns.
    .client 0 .user, .client 0 (.abort false), .client 0 .user, .client 0 .user, .client 0 .user,
    .client 1 (.command .requestAccept), .client 1 .user, .client 1 .user, .client 1 .user,
    .serve 1, .client 0 .execute, .client 0 .execute, .client 0 .execute, .client 0 .execute]

/-- **The client that accepts late is connected to one that is not connected.** -/
theorem late_disagrees :
    ∃ final, runFrom step start late = some final ∧ final.Quiet ∧
      (final.clients 1).ids.connectedToId = final.id 0 ∧
      (final.clients 0).ids.connectedToId = 0 ∧ ¬ final.CopiesAgree := by
  have quiet : ((runFrom step start late).get (by decide +kernel)).Quiet := by
    unfold Quiet
    decide +kernel
  refine ⟨(runFrom step start late).get (by decide +kernel), (Option.some_get _).symm, quiet,
    by decide +kernel, by decide +kernel, ?wrong⟩
  case wrong =>
    intro agree
    exact absurd (agree quiet 1 (by decide +kernel) (by decide +kernel)) (by decide +kernel)

end ChatRoom

end NetworkChat
