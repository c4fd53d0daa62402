import NetworkChat.Chat.Guard

/-!
# The way out of a command

The thread of the user holds `muxConnect` from the loop to the end of the command, where it joins
the thread that polls, and that one takes the lock after it has seen the key. If it comes to the
lock when the thread of the user has left the loop, each waits for the other. A thread that polls
and finds the id in `ConnectionRequestId` again goes on polling, and is joined just as little.

`leaves_step_iff` says which steps leave the way out open. A command that is caught never returns
(`Caught.not_returns`).
-/

set_option autoImplicit false

namespace NetworkChat

open Foundation

/-- With this `ConnectionRequestId` the thread that polls ends by itself. -/
def AbortLine.ends (field : UInt32) : AbortLine → Bool
  | .off => true
  | .check id => field ≠ id
  | .poll id => field ≠ id
  | .getChar id => field ≠ id
  | .close _ _ => false
  | .lock _ => false

/-- The thread looks at the key next. -/
def AbortLine.polls : AbortLine → Bool
  | .poll _ => true
  | _ => false

namespace Requester

variable {self : ConnectionPtr} {r next : Requester} {event : Event} {d : ChatClient}

/-! ## The condition -/

/-- The thread that polls is done with the request in its next step. -/
def aborts (r : Requester) : ChatClient.Event → Bool
  | .abort pressed => (r.client.requestStore (.abort pressed)).isSome
  | _ => false

/-- The thread of the user holds `muxConnect`, and its request is done with, at the latest with the
step. -/
def leavesAt (r : Requester) (event : ChatClient.Event) : Bool :=
  ChatClient.UserLine.holdsMux r.client.user &&
    r.command.any fun ticket => decide (ticket ∈ r.answered) || r.aborts event

/-- The thread of the user has still to look at `ConnectedToId`, and finds a partner there unless
something else is stored after the step. -/
def opensAt (r : Requester) (event : ChatClient.Event) : Bool :=
  decide (r.client.user ≠ .joinAbort) &&
    decide (10000 ≤ (r.client.connectedStore event).getD r.client.ids.connectedToId)

/-- The key is pressed and the thread that polls sees it. -/
def pressesAt (r : Requester) : ChatClient.Event → Bool
  | .abort pressed => pressed && AbortLine.polls r.client.abort
  | _ => false

/-- The thread that polls ends by itself, unless something else is stored after the step. -/
def endsAt (r : Requester) (event : ChatClient.Event) : Bool :=
  !r.pressesAt event && AbortLine.ends
    ((r.client.requestStore event).getD r.client.ids.connectionRequestId) r.client.abort

/-- When the thread of the user takes the lock again after its request is done with, and in each
step of the other threads while it holds the lock on its way out, the chat is opened or the thread
that polls ends. -/
def KeepsLeaving (r : Requester) : Event → Prop
  | .client .user => ∀ ticket ∈ UserLine.waits r.client.user, ticket ∈ r.answered →
      (r.opensAt .user || r.endsAt .user) = true
  | .client (.abort pressed) => r.leavesAt (.abort pressed) = true →
      (r.opensAt (.abort pressed) || r.endsAt (.abort pressed)) = true
  | .client .execute => r.leavesAt .execute = true →
      (r.opensAt .execute || r.endsAt .execute) = true
  | _ => True

instance decidableKeepsLeaving (r : Requester) : ∀ event, Decidable (r.KeepsLeaving event)
  | .arrive _ => .isTrue trivial
  | .block => .isTrue trivial
  | .notify => .isTrue trivial
  | .wakeUp => .isTrue trivial
  | .client (.command _) => .isTrue trivial
  | .client (.type _) => .isTrue trivial
  | .client .user => inferInstanceAs (Decidable (∀ ticket ∈ UserLine.waits r.client.user,
      ticket ∈ r.answered → (r.opensAt .user || r.endsAt .user) = true))
  | .client (.abort pressed) => inferInstanceAs (Decidable (r.leavesAt (.abort pressed) = true →
      (r.opensAt (.abort pressed) || r.endsAt (.abort pressed)) = true))
  | .client .execute => inferInstanceAs (Decidable (r.leavesAt .execute = true →
      (r.opensAt .execute || r.endsAt .execute) = true))

/-! ## The way out -/

/-- When the thread of the user holds the lock after its request is done with, it opens the chat, or
the thread that polls ends. -/
def Leaves (r : Requester) : Prop :=
  ∀ ticket ∈ r.command, ticket ∈ r.answered →
    ChatClient.UserLine.holdsMux r.client.user = true →
      (r.client.user ≠ .joinAbort ∧ 10000 ≤ r.client.ids.connectedToId) ∨
        AbortLine.ends r.client.ids.connectionRequestId r.client.abort = true

theorem leaves_of_free (free : ChatClient.UserLine.holdsMux r.client.user = false) : Leaves r := by
  intro ticket _ _ holds
  cases free.symm.trans holds

theorem leaves_of_no_command (ended : r.command = none) : Leaves r := by
  intro ticket isCommand
  rw [ended] at isCommand
  cases isCommand

theorem opensAt_iff {event : ChatClient.Event} : r.opensAt event = true ↔
    r.client.user ≠ .joinAbort ∧
      10000 ≤ (r.client.connectedStore event).getD r.client.ids.connectedToId := by
  simp only [opensAt, Bool.and_eq_true, decide_eq_true_eq]

theorem leavesAt_iff {event : ChatClient.Event} : r.leavesAt event = true ↔
    ChatClient.UserLine.holdsMux r.client.user = true ∧
      ∃ ticket ∈ r.command, ticket ∈ r.answered ∨ r.aborts event = true := by
  simp only [leavesAt, Bool.and_eq_true, Option.any_eq_true, Bool.or_eq_true, decide_eq_true_eq,
    Option.mem_def]

/-- Whether the thread that polls ends by itself after its step, while the thread of the user holds
the lock. -/
theorem ends_abortStep {pressed : Bool}
    (holds : ChatClient.UserLine.holdsMux r.client.user = true)
    (taken : r.client.abortStep self pressed = some d) :
    AbortLine.ends d.ids.connectionRequestId d.abort = r.endsAt (.abort pressed) := by
  have locked : r.client.muxFree = false := by
    rw [ChatClient.muxFree, holds]
    rfl
  cases line : r.client.abort with
  | off => simp only [ChatClient.abortStep, line] at taken; cases taken
  | check id =>
      simp only [ChatClient.abortStep, line] at taken
      split at taken
      case isTrue names =>
        cases taken
        simp [endsAt, pressesAt, AbortLine.polls, AbortLine.ends, ChatClient.requestStore, line]
      case isFalse differs =>
        cases taken
        simp [endsAt, pressesAt, AbortLine.polls, AbortLine.ends, ChatClient.requestStore, line,
          differs]
  | poll id =>
      simp only [ChatClient.abortStep, line] at taken
      cases taken
      cases pressed
      all_goals
        simp [endsAt, pressesAt, AbortLine.polls, AbortLine.ends, ChatClient.requestStore, line]
  | close id closeLine =>
      cases closeLine
      all_goals
        simp only [ChatClient.abortStep, line] at taken
        cases taken
        simp [endsAt, pressesAt, AbortLine.polls, AbortLine.ends, line]
  | lock id =>
      simp only [ChatClient.abortStep, line, locked, Bool.false_eq_true, if_false] at taken
      cases taken
  | getChar id =>
      simp only [ChatClient.abortStep, line] at taken
      cases taken
      simp [endsAt, pressesAt, AbortLine.polls, AbortLine.ends, ChatClient.requestStore, line]

theorem leaves_abort_iff {pressed : Bool} (taken : r.client.step self (.abort pressed) = some d) :
    Leaves (r.after d (.abort pressed)) ↔ r.KeepsLeaving (.client (.abort pressed)) := by
  have user := (ChatClient.frame_of_abortStep taken).1
  have command : (r.after d (.abort pressed)).command = r.command := by
    simp only [after]
    split <;> rfl
  simp only [Leaves, KeepsLeaving, command, after_client, user, mem_answered_abort, leavesAt_iff,
    Bool.or_eq_true, opensAt_iff, ChatClient.connectedToId_abortStep taken]
  constructor
  · rintro leaves ⟨holds, ticket, isCommand, done⟩
    rw [← ends_abortStep holds taken]
    exact leaves ticket isCommand (done.imp_right fun aborts => ⟨aborts, isCommand⟩) holds
  · intro keeps ticket isCommand done holds
    rw [ends_abortStep holds taken]
    exact keeps ⟨holds, ticket, isCommand, done.imp_right fun stores => stores.1⟩

theorem leaves_execute_iff (taken : r.client.step self .execute = some d) :
    Leaves (r.after d .execute) ↔ r.KeepsLeaving (.client .execute) := by
  obtain ⟨user, abort⟩ := ChatClient.frame_of_executeStep taken
  have command : (r.after d .execute).command = r.command := by
    simp only [after]
    split <;> rfl
  have ends : AbortLine.ends d.ids.connectionRequestId d.abort = r.endsAt .execute := by
    simp only [ChatClient.connectionRequestId_step taken, abort, endsAt, pressesAt, Bool.not_false,
      Bool.true_and]
  -- no reply is handled while the thread of the user holds the lock
  have notReset : ChatClient.UserLine.holdsMux r.client.user = true → r.answers = none := by
    intro holds
    rw [Option.eq_none_iff_forall_ne_some]
    intro ticket answers
    have locked : r.client.muxFree = false := by
      rw [ChatClient.muxFree, holds]
      rfl
    simp only [ChatClient.step, ChatClient.executeStep, reset_of_answers answers, locked,
      Bool.false_eq_true, if_false] at taken
    cases taken
  simp only [Leaves, KeepsLeaving, command, after_client, user, mem_answered_execute, leavesAt_iff,
    Bool.or_eq_true, opensAt_iff, ChatClient.connectedToId_executeStep taken, ends]
  constructor
  · rintro leaves ⟨holds, ticket, isCommand, done⟩
    refine leaves ticket isCommand (.inl ?_) holds
    rcases done with before | aborts
    · exact before
    · cases aborts
  · intro keeps ticket isCommand done holds
    refine keeps ⟨holds, ticket, isCommand, .inl ?_⟩
    rcases done with before | answers
    · exact before
    · rw [notReset holds] at answers
      cases answers

/-- A step of the user away from a line where its command has ended, or to one where it has. -/
theorem keepsLeaving_of_waits (waits : UserLine.waits r.client.user = none) :
    r.KeepsLeaving (.client .user) := by
  intro ticket isWaited
  rw [waits] at isWaited
  cases isWaited

/-- Where the thread of the user takes the lock again. -/
theorem leaves_wait_iff {ticket : Ticket} (line : r.client.user = .wait ticket)
    (isCommand : r.command = some ticket) :
    Leaves (r.after { r.client with user := .checkRequest ticket } .user) ↔
      r.KeepsLeaving (.client .user) := by
  have same : (r.after { r.client with user := .checkRequest ticket } .user).command =
      some ticket := by
    simpa only [after, commandAt, line, UserLine.connects, if_true] using isCommand
  have storesNothing : r.client.requestStore .user = none := by
    simp only [ChatClient.requestStore, line]
  have keepsConnected : r.client.connectedStore .user = none := by
    simp only [ChatClient.connectedStore, line]
  simp only [Leaves, same, KeepsLeaving, line, UserLine.waits, Bool.or_eq_true, opensAt_iff, endsAt,
    pressesAt, storesNothing, keepsConnected]
  constructor
  · intro leaves other isTicket done
    exact (leaves other isTicket done rfl).imp_left fun opens => ⟨by simp, opens.2⟩
  · intro keeps other isTicket done _
    exact (keeps other isTicket done).imp_left fun opens => ⟨by simp, opens.2⟩

theorem Held.leaves_user_iff (held : Held r) (guarded : Guarded r) (leaves : Leaves r)
    (taken : r.client.step self .user = some d) :
    Leaves (r.after d .user) ↔ r.KeepsLeaving (.client .user) := by
  simp only [ChatClient.step] at taken
  have elsewhere (connects : UserLine.connects r.client.user = false)
      (storing : ChatClient.UserLine.storing r.client.user = none) :
      Leaves (r.after d .user) ↔ r.KeepsLeaving (.client .user) := by
    refine iff_of_true (leaves_of_no_command ?_) (keepsLeaving_of_waits ?_)
    · rw [Option.eq_none_iff_forall_ne_some]
      intro ticket isCommand
      have before := (mem_commandAt storing ticket isCommand).1
      rw [held.command_eq_none connects] at before
      cases before
    · cases line : r.client.user with
      | wait ticket => rw [line] at connects; cases connects
      | _ => rfl
  cases line : r.client.user with
  | storeRequest ticket =>
      simp only [ChatClient.userStep, line] at taken
      cases taken
      exact iff_of_true (leaves_of_free rfl) (keepsLeaving_of_waits (by rw [line]; rfl))
  | lockConnect ticket =>
      refine iff_of_true ?_ (keepsLeaving_of_waits (by rw [line]; rfl))
      simp only [ChatClient.userStep, line] at taken
      split at taken
      case isFalse => cases taken
      case isTrue =>
        cases taken
        intro other isCommand done _
        -- the thread that polls starts, and finds another id
        have awaits : ticket ∈ UserLine.awaits r.client.user := by rw [line]; rfl
        have same : other = ticket := by
          have before := (mem_commandAt (by rw [line]; rfl) other isCommand).1
          rw [held.command ticket awaits] at before
          cases before
          rfl
        subst same
        right
        exact decide_eq_true (guarded other awaits done)
  | checkRequest ticket =>
      refine iff_of_true ?_ (keepsLeaving_of_waits (by rw [line]; rfl))
      simp only [ChatClient.userStep, line] at taken
      split at taken
      case isTrue => cases taken; exact leaves_of_free rfl
      case isFalse =>
        cases taken
        intro other isCommand done _
        have before := (mem_commandAt (by rw [line]; rfl) other isCommand).1
        rcases leaves other before done (by rw [line]; rfl) with ⟨-, connected⟩ | ends
        · exact .inl ⟨by simp, connected⟩
        · exact .inr ends
  | wait ticket =>
      have awaits : ticket ∈ UserLine.awaits r.client.user := by rw [line]; rfl
      simp only [ChatClient.userStep, line] at taken
      split at taken
      case isFalse => cases taken
      case isTrue =>
        cases taken
        exact leaves_wait_iff line (held.command ticket awaits)
  | checkConnected =>
      refine iff_of_true ?_ (keepsLeaving_of_waits (by rw [line]; rfl))
      simp only [ChatClient.userStep, line] at taken
      split at taken
      case isTrue =>
        cases taken
        refine leaves_of_no_command ?_
        simp [after, commandAt, line, UserLine.connects]
      case isFalse disconnected =>
        cases taken
        intro other isCommand done _
        have before := (mem_commandAt (by rw [line]; rfl) other isCommand).1
        rcases leaves other before done (by rw [line]; rfl) with ⟨-, connected⟩ | ends
        · exact absurd connected disconnected
        · exact .inr ends
  | joinAbort =>
      refine iff_of_true ?_ (keepsLeaving_of_waits (by rw [line]; rfl))
      simp only [ChatClient.userStep, line] at taken
      split at taken
      case isTrue => cases taken; exact leaves_of_free rfl
      case isFalse => cases taken
  | _ => exact elsewhere (by rw [line]; rfl) (by rw [line]; rfl)

/-- **A step leaves the way out open exactly if it meets the condition.** -/
theorem leaves_step_iff (held : Held r) (guarded : Guarded r) (leaves : Leaves r)
    (taken : r.step self event = some next) : Leaves next ↔ r.KeepsLeaving event := by
  cases step_cases taken with
  | client event d allowed moved =>
      cases event with
      | command command =>
          refine iff_of_true (leaves_of_free ?_) trivial
          rw [after_client]
          rcases ChatClient.user_of_command moved with
            line | ⟨asked, line⟩ | ⟨accepted, asked, line⟩
          all_goals rw [line]; rfl
      | type data =>
          refine iff_of_true (leaves_of_no_command ?_) trivial
          obtain ⟨caller, chat, -⟩ := ChatClient.eq_of_type moved
          exact held.command_eq_none (by rw [chat]; rfl)
      | user => exact held.leaves_user_iff guarded leaves moved
      | abort pressed => exact leaves_abort_iff moved
      | execute => exact leaves_execute_iff moved
  | _ => exact iff_of_true leaves trivial

/-! ## Caught -/

/-- The threads of a command go on by themselves: nobody types or presses the key, no message is
handled, and no wait ends without a notification. The enter that the thread that polls asks for
after a close is given. -/
def Event.ofCommand : Event → Bool
  | .client .user => true
  | .client (.abort false) => true
  | .block => true
  | .notify => true
  | _ => false

/-- The thread of the user is at the prompt or in the chat of its `ConnectTo`. -/
def Returned (r : Requester) : Prop := r.client.user = .prompt ∨ r.client.user = .chat .connectTo

/-- By themselves the threads of the command can bring it back to the prompt or into the chat. -/
def Returns (self : ConnectionPtr) (r : Requester) : Prop :=
  ∃ events final, (∀ event ∈ events, event.ofCommand = true) ∧
    runFrom (step self) r events = some final ∧ final.Returned

/-- The thread that polls does not end, and the thread of the user holds the lock and is to join
it. -/
structure Caught (r : Requester) : Prop where
  polls : AbortLine.ends r.client.ids.connectionRequestId r.client.abort = false
  joins : r.client.user = .joinAbort ∨ (¬ 10000 ≤ r.client.ids.connectedToId ∧
    (r.client.user = .checkConnected ∨ ∃ ticket, r.client.user = .checkRequest ticket ∧
      r.client.ids.connectionRequestId ≠ ticket.asked ∧ ticket.asked ≠ 0))

theorem Caught.holds (caught : Caught r) :
    ChatClient.UserLine.holdsMux r.client.user = true := by
  rcases caught.joins with line | ⟨-, line | ⟨ticket, line, -⟩⟩
  all_goals rw [line]; rfl

theorem Caught.not_returned (caught : Caught r) : ¬ Returned r := by
  rintro (prompt | chat)
  all_goals
    rcases caught.joins with line | ⟨-, line | ⟨ticket, line, -⟩⟩
    all_goals simp_all

/-- A command whose way out is not open is caught. -/
theorem caught_of_not_leaves (held : Held r) (guarded : Guarded r) (askedId : AskedId r)
    (notLeaves : ¬ Leaves r) : Caught r := by
  simp only [Leaves, not_forall, not_or, not_and, Bool.not_eq_true] at notLeaves
  obtain ⟨ticket, isCommand, done, holds, disconnected, polls⟩ := notLeaves
  have connects := held.connects (by rw [Option.mem_def.mp isCommand]; rfl)
  refine ⟨polls, ?_⟩
  cases line : r.client.user with
  | checkRequest other =>
      have awaits : other ∈ UserLine.awaits r.client.user := by rw [line]; rfl
      have same := held.command other awaits
      rw [Option.mem_def.mp isCommand] at same
      cases same
      rw [line] at disconnected
      exact .inr ⟨disconnected (by simp), .inr ⟨ticket, rfl, guarded ticket awaits done,
        askedId ticket awaits done⟩⟩
  | checkConnected =>
      rw [line] at disconnected
      exact .inr ⟨disconnected (by simp), .inl rfl⟩
  | joinAbort => exact .inl rfl
  | lockConnect other => rw [line] at holds; cases holds
  | wait other => rw [line] at holds; cases holds
  | _ => rw [line] at connects; cases connects

theorem Caught.user (caught : Caught r) (taken : r.client.step self .user = some d) :
    Caught (r.after d .user) := by
  have polls := caught.polls
  simp only [ChatClient.step] at taken
  rcases caught.joins with line | ⟨disconnected, line | ⟨ticket, line, differs, askedId⟩⟩
  · simp only [ChatClient.userStep, line] at taken
    split at taken
    case isTrue off => rw [off] at polls; cases polls
    case isFalse => cases taken
  · simp only [ChatClient.userStep, line, if_neg disconnected] at taken
    cases taken
    exact ⟨polls, .inl rfl⟩
  · simp only [ChatClient.userStep, line, if_neg differs] at taken
    cases taken
    exact ⟨polls, .inr ⟨disconnected, .inl rfl⟩⟩

/-- The thread that polls stores 0 if anything. -/
theorem requestStore_abort {pressed : Bool} :
    ∀ stored ∈ r.client.requestStore (.abort pressed), stored = 0 := by
  intro stored stores
  simp only [ChatClient.requestStore] at stores
  split at stores
  case h_1 => cases stores; rfl
  case h_2 => cases stores

theorem connectedStore_abort {pressed : Bool} :
    ∀ stored ∈ r.client.connectedStore (.abort pressed), stored = 0 := by
  intro stored stores
  simp only [ChatClient.connectedStore] at stores
  split at stores
  case h_1 => cases stores; rfl
  case h_2 => cases stores

theorem Caught.abort (caught : Caught r) (taken : r.client.step self (.abort false) = some d) :
    Caught (r.after d (.abort false)) := by
  have polls := caught.polls
  have user := (ChatClient.frame_of_abortStep taken).1
  constructor
  · rw [after_client, ends_abortStep caught.holds taken, endsAt]
    cases line : r.client.abort with
    | close id closeLine => simp only [AbortLine.ends, Bool.and_false]
    | _ =>
        rw [line] at polls
        simp only [ChatClient.requestStore, line, Option.getD_none, polls, Bool.and_false]
  · rw [after_client, user, ChatClient.connectionRequestId_step taken,
      ChatClient.connectedToId_abortStep taken]
    refine caught.joins.imp_right fun joins => ⟨?_, joins.2.imp_right ?_⟩
    · cases store : r.client.connectedStore (.abort false) with
      | none => exact joins.1
      | some stored =>
          rw [connectedStore_abort stored store, Option.getD_some]
          decide
    · rintro ⟨ticket, line, differs, askedId⟩
      refine ⟨ticket, line, ?_, askedId⟩
      cases store : r.client.requestStore (.abort false) with
      | none => exact differs
      | some stored => rw [requestStore_abort stored store]; exact askedId.symm

/-- **The threads of a command that is caught never bring it back.** -/
theorem Caught.step (caught : Caught r) (own : event.ofCommand = true)
    (taken : r.step self event = some next) : Caught next := by
  cases step_cases taken with
  | arrive envelope => cases own
  | client event d allowed moved =>
      cases event with
      | command command => cases own
      | type data => cases own
      | user => exact caught.user moved
      | abort pressed =>
          cases pressed with
          | false => exact caught.abort moved
          | true => cases own
      | execute => cases own
  | wakeUp blocked => cases own
  | _ => exact ⟨caught.polls, caught.joins⟩

theorem Caught.not_returns (caught : Caught r) : ¬ r.Returns self := by
  rintro ⟨events, final, all, run, returned⟩
  let own (_ : Requester) (event : Event) : Prop := event.ofCommand = true
  have keeps : ∀ state event next, Caught state → own state event →
      state.step self event = some next → Caught next :=
    fun state event next caught isOwn taken => caught.step isOwn taken
  have last : Caught final :=
    invariant_of_meeting_run keeps caught ((meets_iff_forall run).mpr all) run
  exact last.not_returned returned

end Requester

end NetworkChat
