import NetworkChat.Chat.Client

/-!
# A client that waits for its request

`ConnectTo` holds `muxConnect` and waits on `cvConnect` as long as `ConnectionRequestId` is the id
that was asked for. The wait and the notifications are steps of their own here, beside those of the
threads of the client. The thread of the user holds the lock from its look at the id until it
blocks, and a wait ends with a notification or spuriously. `ExecuteMessages` notifies after a store
under the lock, the thread that polls after its close, and both hold the lock until they have
notified.

What arrives is arbitrary: at any time a message of any type and content is put on the queue. Every
step that is not one of the wait, of a notification or of the socket is a step of the client
(`step_cases`).

Beside the state of the source, `command` is the request of a `ConnectTo` that has stored its id and
has neither returned to the prompt nor opened its chat, and `answered` lists the requests that are
done with: the reply to the request was handled, or the user aborted it. No step reads them.
-/

set_option autoImplicit false

namespace NetworkChat

open Foundation

/-- Where the thread of the user stands in `cvConnect.wait`. -/
inductive Sleep where
  /-- It runs. At the line of the wait it holds `muxConnect` and has not blocked. -/
  | awake
  | blocked
  /-- It was woken and takes the lock. -/
  | woken
  deriving DecidableEq, Repr

/-- A thread that notifies. -/
inductive Notifier where
  | abort
  | execute
  deriving DecidableEq, Repr

structure Requester where
  client : ChatClient
  sleep : Sleep
  /-- The thread in front of `cvConnect.notify_one()`, with `muxConnect` held. -/
  notifies : Option Notifier
  /-- The request that the message belongs to that `ExecuteMessages` handles. -/
  handling : Option Ticket
  /-- The requests whose reply was handled or that were aborted. -/
  answered : List Ticket
  /-- The request whose `ConnectTo` is between the store of its id and the prompt or its chat. -/
  command : Option Ticket
  deriving DecidableEq

/-- The request that a `ConnectTo` has stored and waits for. -/
def UserLine.awaits : UserLine → Option Ticket
  | .lockConnect ticket => some ticket
  | .checkRequest ticket => some ticket
  | .wait ticket => some ticket
  | _ => none

/-- The request in whose `cvConnect.wait` the thread stands. -/
def UserLine.waits : UserLine → Option Ticket
  | .wait ticket => some ticket
  | _ => none

/-- The lines of a `ConnectTo` from the lock on, but for those of its chat. -/
def UserLine.connects : UserLine → Bool
  | .lockConnect _ => true
  | .checkRequest _ => true
  | .wait _ => true
  | .checkConnected => true
  | .joinAbort => true
  | _ => false

namespace Requester

def start : Requester := ⟨.start, .awake, none, none, [], none⟩

inductive Event where
  /-- A message arrives. -/
  | arrive (envelope : Envelope)
  /-- A thread of the client takes a step. -/
  | client (event : ChatClient.Event)
  /-- The wait gives the lock back and blocks. -/
  | block
  /-- `cvConnect.notify_one()`. -/
  | notify
  /-- The wait ends without a notification. -/
  | wakeUp
  deriving DecidableEq

/-! ## Steps -/

/-- A reply to a request of the client comes after the request. -/
def follows (self : ConnectionPtr) (r : Requester) (envelope : Envelope) : Bool :=
  envelope.ticket.all fun ticket => ticket.asker ≠ self || ticket.number < r.client.requests

/-- The thread of the user is at the line of the wait and has not blocked. -/
def entersWait (r : Requester) : Bool := (UserLine.waits r.client.user).isSome && r.sleep = .awake

/-- What a step of the client needs beside what `ChatClient.step` checks: no other thread holds
`muxConnect`, a wait was woken, and who has to notify notifies first. -/
def allows (r : Requester) : ChatClient.Event → Bool
  | .command _ => true
  | .type _ => true
  | .user =>
      match r.client.user with
      | .lockConnect _ => r.notifies ≠ some .execute
      | .wait _ => r.sleep = .woken && r.notifies ≠ some .execute
      | _ => true
  | .abort _ =>
      match r.client.abort with
      | .lock _ => r.notifies = none && !r.entersWait
      | _ => r.notifies ≠ some .abort
  | .execute =>
      match r.client.execute with
      | .reset => r.notifies = none && !r.entersWait
      | _ => r.notifies ≠ some .execute

/-- The request of the command once its thread has taken a step to a line. -/
def commandAt (r : Requester) (line : UserLine) : Option Ticket :=
  match r.client.user with
  | .storeRequest ticket => some ticket
  | _ => if UserLine.connects line then r.command else none

/-- The client has taken a step to `d`. -/
def after (r : Requester) (d : ChatClient) : ChatClient.Event → Requester
  | .command _ => { r with client := d, sleep := .awake }
  | .type _ => { r with client := d, sleep := .awake }
  | .user => { r with client := d, sleep := .awake, command := r.commandAt d.user }
  | .abort _ =>
      match r.client.abort with
      | .lock _ => { r with client := d, notifies := some .abort }
      | .close _ .request =>
          { r with
            client := d
            answered := r.answered ++ r.command.toList }
      | _ => { r with client := d }
  | .execute =>
      match r.client.execute with
      | .idle =>
          { r with
            client := d
            handling := r.client.incoming.head?.bind fun envelope => envelope.ticket }
      | .reset =>
          { r with
            client := d
            notifies := some .execute
            answered := r.answered ++ r.handling.toList }
      | _ => { r with client := d }

/-- The next state, if the event can happen. -/
def step (self : ConnectionPtr) (r : Requester) : Event → Option Requester
  | .arrive envelope =>
      if r.follows self envelope then
        some { r with client := { r.client with incoming := r.client.incoming ++ [envelope] } }
      else none
  | .client event =>
      if r.allows event then (r.client.step self event).map fun d => r.after d event else none
  | .block => if r.entersWait then some { r with sleep := .blocked } else none
  | .notify =>
      match r.notifies with
      | none => none
      | some _ =>
          some { r with notifies := none, sleep := if r.sleep = .blocked then .woken else r.sleep }
  | .wakeUp => if r.sleep = .blocked then some { r with sleep := .woken } else none

/-- What a step does, one case for each event. -/
inductive Steps (self : ConnectionPtr) (r : Requester) : Event → Requester → Prop where
  | arrive (envelope : Envelope) :
      Steps self r (.arrive envelope)
        { r with client := { r.client with incoming := r.client.incoming ++ [envelope] } }
  | client (event : ChatClient.Event) (d : ChatClient) (allowed : r.allows event = true)
      (taken : r.client.step self event = some d) :
      Steps self r (.client event) (r.after d event)
  | block (enters : r.entersWait = true) : Steps self r .block { r with sleep := .blocked }
  | notify (notifier : Notifier) (isNotifier : r.notifies = some notifier) :
      Steps self r .notify
        { r with notifies := none, sleep := if r.sleep = .blocked then .woken else r.sleep }
  | wakeUp (blocked : r.sleep = .blocked) : Steps self r .wakeUp { r with sleep := .woken }

section Steps

variable {self : ConnectionPtr} {r next : Requester} {event : Event}

/-- **A step has one of the effects.** -/
theorem step_cases (taken : r.step self event = some next) : Steps self r event next := by
  cases event with
  | arrive envelope =>
      simp only [step] at taken
      split at taken
      case isTrue => cases taken; exact .arrive envelope
      case isFalse => cases taken
  | client event =>
      simp only [step] at taken
      split at taken
      case isTrue allowed =>
        obtain ⟨d, moved, rfl⟩ := Option.map_eq_some_iff.mp taken
        exact .client event d allowed moved
      case isFalse => cases taken
  | block =>
      simp only [step] at taken
      split at taken
      case isTrue enters => cases taken; exact .block enters
      case isFalse => cases taken
  | notify =>
      simp only [step] at taken
      split at taken
      case h_1 => cases taken
      case h_2 notifier isNotifier => cases taken; exact .notify notifier isNotifier
  | wakeUp =>
      simp only [step] at taken
      split at taken
      case isTrue blocked => cases taken; exact .wakeUp blocked
      case isFalse => cases taken

/-! ### What a step of the client leaves -/

variable {d : ChatClient}

@[simp] theorem after_client (r : Requester) (d : ChatClient) (event : ChatClient.Event) :
    (r.after d event).client = d := by
  cases event with
  | abort pressed => simp only [after]; split <;> rfl
  | execute => simp only [after]; split <;> rfl
  | _ => rfl

/-- The thread of the user takes no step while it is blocked. -/
theorem after_sleep_abort (r : Requester) (d : ChatClient) (pressed : Bool) :
    (r.after d (.abort pressed)).sleep = r.sleep := by
  simp only [after]
  split <;> rfl

theorem after_sleep_execute (r : Requester) (d : ChatClient) :
    (r.after d .execute).sleep = r.sleep := by
  simp only [after]
  split <;> rfl

end Steps

end Requester

end NetworkChat
