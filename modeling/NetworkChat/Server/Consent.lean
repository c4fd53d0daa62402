import NetworkChat.Server.Effects
import NetworkChat.Server.Hall

/-!
# Texts between partners

`OnMessage` passes a text on to the partner of its sender, whoever made the pair and
whether or not the request was answered: the server keeps no record of answers. What
holds of a text that is passed on is that the two are partners since one of them asked
for the other (`text_between_partners`).
-/

set_option autoImplicit false

namespace NetworkChat

open Foundation

namespace Hall

/-- `OnMessage` sends the text of the client to the receiver. -/
def ForwardsText (hall : Hall) (client : ConnectionPtr) (msg : Message CustomMsgTypes)
    (receiver : ConnectionPtr) : Prop :=
  msg.header.id = .textClient ∧
    ∃ after calls, hall.server.onMessage hall.view client msg = .ok (after, calls) ∧
      Call.send receiver msg ∈ calls

/-- A client asks for another one, and neither has a partner. -/
def AsksFor (requester requested : UInt32) (hall : Hall) (event : Event) : Prop :=
  ∃ client msg rest, event = .message client msg ∧ (hall.view client).id = requester ∧
    msg.header.id = .requestToClient ∧ msg.pop UInt32 = .ok (requested, rest) ∧
      hall.server.clientConnections requester = none ∧
        hall.server.clientConnections requested = none

def Partners (first second : UInt32) (hall : Hall) : Prop :=
  hall.server.clientConnections first = some second ∧
    hall.server.clientConnections second = some first

/-- A request of the first for the second made them partners, and they are since then. -/
def PairedByRequest (events : List Event) (requester requested : UInt32) : Prop :=
  Since step start (AsksFor requester requested) (Partners requester requested) events

theorem Partners.symm {hall : Hall} {first second : UInt32}
    (partners : Partners first second hall) :
    Partners second first hall :=
  ⟨partners.2, partners.1⟩

/-- Partners have each other. -/
theorem Paired.partners {hall : Hall} (paired : Paired hall) {first second : UInt32}
    (has : hall.server.clientConnections first = some second) : Partners first second hall := by
  obtain ⟨matching, represents⟩ := paired
  refine ⟨has, ?_⟩
  rw [represents] at has ⊢
  exact matching.symmetric _ _ has

/-- Two clients become partners when one of them asks for the other. -/
theorem asksFor_of_new {hall next : Hall} {event : Event} {first second : UInt32}
    (paired : Paired hall) (taken : hall.step event = some next)
    (were : ¬ Partners first second hall) (are : Partners first second next) :
    AsksFor first second hall event ∨ AsksFor second first hall event := by
  have new : hall.server.clientConnections first ≠ some second :=
    fun has => were (paired.partners has)
  obtain ⟨matching, represents⟩ := paired
  obtain ⟨-, taken⟩ := step_eq_some taken
  cases event with
  | accept => cases taken; exact absurd are were
  | close client => obtain ⟨-, rfl⟩ := act_close taken; exact absurd are were
  | message client msg =>
      obtain ⟨-, rfl⟩ := act_message taken
      cases returned : hall.server.onMessage hall.view client msg with
      | error fault =>
          rw [handle, returned] at are
          exact absurd are were
      | ok result =>
          obtain ⟨after, calls⟩ := result
          rw [handle, returned] at are
          have effect := CustomServer.onMessage_effect represents returned
          obtain ⟨id, rest, type, asks, who, firstFree, secondFree⟩ :=
            effect.new_pair represents are.1 new
          rcases who with ⟨rfl, rfl⟩ | ⟨rfl, rfl⟩
          · exact .inl ⟨client, msg, rest, rfl, rfl, type, asks, firstFree, secondFree⟩
          · exact .inr ⟨client, msg, rest, rfl, rfl, type, asks, secondFree, firstFree⟩

/-- Who are partners are it since one of them asked for the other. -/
theorem pairedByRequest_of_run {final : Hall} {events : List Event} {first second : UInt32}
    (run : runFrom step start events = some final)
    (has : final.server.clientConnections first = some second) :
    PairedByRequest events first second ∨ PairedByRequest events second first := by
  have keeps : ∀ hall event next, Paired hall → step hall event = some next → Paired next :=
    fun _ _ _ paired taken => paired.step taken
  have partners := (invariant_of_run keeps paired_start run).partners has
  have notYet : ¬ Partners first second start := fun partners => nomatch partners.1
  obtain ⟨before, event, after, middle, next, split, reached, taken, made, throughout⟩ :=
    since_of_run keeps (fun _ _ _ paired taken were are => asksFor_of_new paired taken were are)
      paired_start notYet run partners
  rcases made with asked | asked
  · exact .inl ⟨before, event, after, middle, next, split, reached, taken, asked, throughout⟩
  · exact .inr ⟨before, event, after, middle, next, split, reached, taken, asked,
      throughout.mono fun _ => Partners.symm⟩

/-- A text that is passed on goes to the partner of its sender. -/
theorem ForwardsText.partner {hall : Hall} {client receiver : ConnectionPtr}
    {msg : Message CustomMsgTypes} (paired : Paired hall)
    (forwards : hall.ForwardsText client msg receiver) :
    hall.server.clientConnections (hall.view client).id = some (hall.view receiver).id := by
  obtain ⟨matching, represents⟩ := paired
  obtain ⟨type, after, calls, returned, called⟩ := forwards
  rw [represents]
  cases CustomServer.onMessage_effect represents returned with
  | relay id found _ paired receives =>
      cases List.mem_singleton.mp called
      have isId : (hall.view receiver).id = id := by simpa using List.find?_some receives
      rw [isId]
      exact paired
  | hangUp id found _ paired receives isClosed =>
      cases List.mem_singleton.mp called
      cases type
  | drop => cases called
  | echo other => cases other.symm.trans type
  | greet other => cases other.symm.trans type
  | list other => cases other.symm.trans type
  | unknown id rest other => cases other.symm.trans type
  | busy id rest found other => cases other.symm.trans type
  | pair id rest found other => cases other.symm.trans type
  | close id other => cases other.symm.trans type
  | ignore => cases called

/-- **A text is passed on between partners only, and they are partners since one of them
asked for the other.** -/
theorem text_between_partners {final : Hall} {events : List Event}
    (run : runFrom step start events = some final) {client receiver : ConnectionPtr}
    {msg : Message CustomMsgTypes} (forwards : final.ForwardsText client msg receiver) :
    PairedByRequest events (final.view client).id (final.view receiver).id ∨
      PairedByRequest events (final.view receiver).id (final.view client).id := by
  have keeps : ∀ hall event next, Paired hall → step hall event = some next → Paired next :=
    fun _ _ _ paired taken => paired.step taken
  exact pairedByRequest_of_run run (forwards.partner (invariant_of_run keeps paired_start run))

/-- Whether the event is an answer to a request. -/
def Event.answers : Event → Bool
  | .message _ msg => msg.header.id == .requestAnswer
  | _ => false

def hello : Message CustomMsgTypes := Message.pushString (.ofType .textClient) [104]

theorem forwardsText_of_relayTarget {hall : Hall} {client receiver : ConnectionPtr}
    {msg : Message CustomMsgTypes} (type : msg.header.id = .textClient)
    (relays : CustomServer.relayTarget hall.view hall.server client msg = some receiver) :
    hall.ForwardsText client msg receiver := by
  obtain ⟨calls, returned, called⟩ := CustomServer.relayTarget_sends relays
  exact ⟨type, hall.server, calls, returned, called⟩

/-- After the request a text of the first client is passed on to the second. -/
theorem forwardsText_hello :
    ((runFrom step start requestToSecond).get (by decide)).ForwardsText 0 hello 1 :=
  forwardsText_of_relayTarget rfl (by decide)

/-- The first client asks for the second, nobody answers, and a text of the first is passed
on to the second. -/
theorem text_before_answer :
    ∃ final, runFrom step start requestToSecond = some final ∧ final.ForwardsText 0 hello 1 ∧
      ∀ event ∈ requestToSecond, event.answers = false :=
  ⟨(runFrom step start requestToSecond).get (by decide), (Option.some_get _).symm,
    forwardsText_hello, by decide⟩

theorem text_between_first_two :
    ∃ final, runFrom step start requestToSecond = some final ∧ final.ForwardsText 0 hello 1 ∧
      (PairedByRequest requestToSecond (final.view 0).id (final.view 1).id ∨
        PairedByRequest requestToSecond (final.view 1).id (final.view 0).id) :=
  ⟨(runFrom step start requestToSecond).get (by decide), (Option.some_get _).symm,
    forwardsText_hello, text_between_partners (Option.some_get _).symm forwardsText_hello⟩

end Hall

end NetworkChat
