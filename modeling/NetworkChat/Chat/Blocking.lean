import NetworkChat.Chat.Room
import NetworkChat.Chat.Waiting

/-!
# The chat of a request and the thread of messages

`ConnectTo` opens the chat inside the scope of its lock, so the thread of the user holds
`muxConnect` while it waits for input. `ExecuteMessages` takes the lock for a refusal and for an
answer, and then shows nothing and ends no chat until the chat is left. The chat of `Accept` holds
no lock.

`free_iff_keepsFree` says which steps block `ExecuteMessages`: a message of these that is taken off
the queue during the chat, and a chat that is opened with such a message at its lock. Honest clients
reach the first (`jams_in_room`).
-/

set_option autoImplicit false

namespace NetworkChat

open Foundation

/-- The thread is in `OpenChatWithClient` and holds `muxConnect`. -/
def UserLine.chatsLocked : UserLine → Bool
  | .chat .connectTo => true
  | .checkChat .connectTo _ => true
  | .sendText .connectTo _ => true
  | .close .connectTo _ => true
  | _ => false

namespace Requester

/-- `ExecuteMessages` is not blocked by the lock of a chat. -/
def Free (r : Requester) : Prop :=
  ¬ (r.client.execute = .reset ∧ UserLine.chatsLocked r.client.user = true)

/-- The next step of `ExecuteMessages` leads to the lock. -/
def comesToLock (r : Requester) : Bool :=
  match r.client.execute with
  | .idle => (r.client.incoming.head?.map ChatClient.executeLine).any fun line =>
      line = ExecuteLine.reset
  | .storeConnected _ _ => true
  | _ => false

/-- During the chat of a `ConnectTo` no message comes to the lock, and the chat is not opened when
one is there. -/
def KeepsFree (r : Requester) : Event → Prop
  | .client .execute => UserLine.chatsLocked r.client.user = true → r.comesToLock = false
  | .client .user => r.client.user = .checkConnected → 10000 ≤ r.client.ids.connectedToId →
      r.client.execute ≠ .reset
  | _ => True

variable {self : ConnectionPtr} {r next : Requester} {event : Event} {d : ChatClient}

instance (r : Requester) : Decidable (Free r) := inferInstanceAs (Decidable (¬ _))

instance (r : Requester) : (event : Event) → Decidable (r.KeepsFree event)
  | .client .execute => inferInstanceAs (Decidable (_ = true → _ = false))
  | .client .user =>
      let connected : Decidable (10000 ≤ r.client.ids.connectedToId) := UInt32.decLe _ _
      let opens : Decidable (10000 ≤ r.client.ids.connectedToId → r.client.execute ≠ .reset) :=
        @instDecidableForall _ _ connected inferInstance
      @instDecidableForall (r.client.user = .checkConnected) _ inferInstance opens
  | .client (.command _) | .client (.type _) | .client (.abort _) => .isTrue trivial
  | .arrive _ | .block | .notify | .wakeUp => .isTrue trivial

/-- Where the next step of `ExecuteMessages` leads to the lock. -/
theorem comesToLock_iff (taken : r.client.executeStep = some d) :
    d.execute = .reset ↔ r.comesToLock = true := by
  rw [ChatClient.executeStep] at taken
  split at taken
  case h_1 line =>
    split at taken
    case h_1 => cases taken
    case h_2 envelope later queue =>
      cases taken
      simp only [comesToLock, line, queue, List.head?_cons, Option.map_some, Option.any_some,
        decide_eq_true_eq]
  case h_5 line =>
    split at taken
    case isTrue => cases taken; simp [comesToLock, line]
    case isFalse => cases taken
  case h_8 => cases taken
  all_goals
    cases taken
    simp only [comesToLock, *, reduceCtorEq]

/-- A step of the user stays in a chat, or opens it. -/
theorem chatsLocked_userStep (taken : r.client.userStep self = some d)
    (chats : UserLine.chatsLocked d.user = true) :
    UserLine.chatsLocked r.client.user = true ∨
      (r.client.user = .checkConnected ∧ 10000 ≤ r.client.ids.connectedToId) := by
  cases line : r.client.user with
  | checkConnected =>
      simp only [ChatClient.userStep, line] at taken
      split at taken
      case isTrue connected => exact .inr ⟨rfl, connected⟩
      case isFalse =>
        cases taken
        cases chats
  | checkChat caller data =>
      left
      simp only [ChatClient.userStep, line] at taken
      split at taken
      case isTrue =>
        cases taken
        by_cases closes : data = ChatClient.closeText
        · simp only [if_pos closes] at chats
          cases caller <;> exact chats
        · simp only [if_neg closes] at chats
          cases caller <;> exact chats
      case isFalse =>
        cases taken
        cases caller <;> cases chats
  | sendText caller data =>
      left
      simp only [ChatClient.userStep, line] at taken
      cases taken
      cases caller <;> exact chats
  | close caller closeLine =>
      left
      cases closeLine
      all_goals
        simp only [ChatClient.userStep, line] at taken
        cases taken
        cases caller <;> exact chats
  | sendAnswer accepted ticket =>
      simp only [ChatClient.userStep, line] at taken
      cases taken
      cases accepted <;> cases chats
  | _ =>
      simp only [ChatClient.userStep, line] at taken
      try split at taken
      all_goals cases taken
      all_goals cases chats

theorem free_user_iff (free : Free r) (taken : r.client.step self .user = some d) :
    Free (r.after d .user) ↔ r.KeepsFree (.client .user) := by
  have execute := ChatClient.frame_of_userStep taken
  constructor
  · intro after line connected locks
    refine after ⟨?_, ?_⟩
    · rw [after_client, execute]
      exact locks
    · simp only [ChatClient.step, ChatClient.userStep, line, if_pos connected] at taken
      cases taken
      rfl
  · rintro keeps ⟨locks, chats⟩
    rw [after_client] at locks chats
    rw [execute] at locks
    rcases chatsLocked_userStep taken chats with before | ⟨line, connected⟩
    · exact free ⟨locks, before⟩
    · exact keeps line connected locks

theorem free_execute_iff (taken : r.client.step self .execute = some d) :
    Free (r.after d .execute) ↔ r.KeepsFree (.client .execute) := by
  rw [Free, KeepsFree, after_client, (ChatClient.frame_of_executeStep taken).1,
    comesToLock_iff taken, not_and', Bool.not_eq_true]

/-- **A step leaves `ExecuteMessages` free exactly if it meets the condition.** -/
theorem free_step_iff (free : Free r) (taken : r.step self event = some next) :
    Free next ↔ r.KeepsFree event := by
  cases step_cases taken with
  | client event d allowed moved =>
      cases event with
      | command command =>
          refine iff_of_true ?_ trivial
          rintro ⟨-, chats⟩
          rw [after_client] at chats
          rcases ChatClient.user_of_command moved with
            line | ⟨ticket, line⟩ | ⟨accepted, ticket, line⟩
          all_goals
            rw [line] at chats
            cases chats
      | type data =>
          refine iff_of_true ?_ trivial
          obtain ⟨caller, line, rfl⟩ := ChatClient.eq_of_type moved
          rintro ⟨locks, chats⟩
          refine free ⟨locks, ?_⟩
          rw [line]
          cases caller <;> exact chats
      | user => exact free_user_iff free moved
      | abort pressed =>
          refine iff_of_true ?_ trivial
          obtain ⟨user, execute⟩ := ChatClient.frame_of_abortStep moved
          rw [Free, after_client, user, execute]
          exact free
      | execute => exact free_execute_iff moved
  | _ => exact iff_of_true free trivial

/-- **`ExecuteMessages` is free throughout a run exactly if every step meets the condition.** -/
theorem free_iff_keepsFree (self : ConnectionPtr) {events : List Event} {final : Requester}
    (run : runFrom (step self) start events = some final) :
    Throughout (step self) Free start events ↔ Meets (step self) KeepsFree start events := by
  have initially : Free start := by
    rintro ⟨-, chats⟩
    cases chats
  exact throughout_iff_meets_of_step (fun _ _ _ => free_step_iff) initially run

/-- The user is in the chat when a text comes. -/
def chatting : List Event :=
  accepted ++ [.client .user,
    .arrive ⟨1, CustomClient.sendToClient [104, 105], none⟩, .client .execute,
    .client (.type [104, 105]), .client .user, .client .user]

theorem free_chatting : Throughout (step 0) Free start chatting :=
  (free_iff_keepsFree 0 (Option.some_get (by decide +kernel)).symm).mpr (by decide +kernel)

/-- The partner declines and then accepts, and the user has asked again in between. What it gets is
a refusal, the acceptance and the reply that the partner is busy. -/
def declinedAndAccepted : List Event :=
  asked ++ [.arrive ⟨1, CustomClient.requestAnswer false, some ⟨0, 10001, 0⟩⟩, .client .execute,
    .client .execute, .notify, .client .user, .client .user, .client .user, .client (.abort false),
    .client .user] ++
  asked ++ [.arrive ⟨1, CustomClient.requestAnswer true, some ⟨0, 10001, 0⟩⟩, .client .execute,
    .client .execute, .client .execute, .client .execute, .notify, .client .user, .client .user,
    .client .user, .arrive ⟨0, CustomServer.idMsg .requestToClient 1, some ⟨0, 10001, 1⟩⟩,
    .client .execute]

/-- **The reply that comes during the chat blocks `ExecuteMessages`.** -/
theorem chat_blocks :
    ∃ final, runFrom (step 0) start declinedAndAccepted = some final ∧
      final.client.user = .chat .connectTo ∧ final.client.execute = .reset ∧
        final.client.step 0 .execute = none ∧ ¬ Free final := by
  refine ⟨(runFrom (step 0) start declinedAndAccepted).get (by decide +kernel),
    (Option.some_get _).symm, by decide +kernel, by decide +kernel, by decide +kernel, ?_⟩
  decide +kernel

end Requester

namespace ChatRoom

/-- The same in a room with its server and two honest clients. -/
def jam : List Event :=
  [.join, .join, .client 0 .execute, .client 1 .execute,
    .client 0 (.command (.connectTo 10001)), .client 0 .user, .client 0 .user, .client 0 .user,
    .serve 0, .client 1 .execute, .client 1 .execute,
    .client 1 (.command .requestDecline), .client 1 .user,
    .client 1 (.command .requestAccept), .client 1 .user,
    .serve 1, .client 0 .execute, .client 0 .execute,
    .client 0 .user, .client 0 .user, .client 0 .user, .client 0 (.abort false), .client 0 .user,
    .client 0 (.command (.connectTo 10001)), .client 0 .user, .client 0 .user, .client 0 .user,
    .serve 1, .client 0 .execute, .client 0 .execute, .client 0 .execute, .client 0 .execute,
    .client 0 .user, .client 0 .user, .client 0 .user,
    .serve 0, .client 0 .execute]

/-- **Honest clients reach a chat that blocks `ExecuteMessages`.** -/
theorem jams_in_room :
    ∃ final, runFrom step start jam = some final ∧
      (final.clients 0).user = .chat .connectTo ∧ (final.clients 0).execute = .reset := by
  refine ⟨(runFrom step start jam).get (by decide +kernel), (Option.some_get _).symm,
    by decide +kernel, by decide +kernel⟩

end ChatRoom

end NetworkChat
