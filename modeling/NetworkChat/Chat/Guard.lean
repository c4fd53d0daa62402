import NetworkChat.Chat.Holding

/-!
# The guard of a request that is done with

A request is done with when the reply to it was handled or the user has aborted it. The guard of its
loop is false then if `ConnectionRequestId` is another id.

The done value 0 may be the id that was asked for, and the request is sent before its id is stored,
so that a reply may come in between. Then the guard is true, and the thread waits.
`guarded_step_iff` says which steps keep the guard false. A thread that still waits was woken or is
to be notified (`Notified.step`).
-/

set_option autoImplicit false

namespace NetworkChat

open Foundation

namespace Requester

variable {self : ConnectionPtr} {r next : Requester} {event : Event} {d : ChatClient}

/-! ## The guard -/

/-- `ConnectionRequestId` is not the id of a request that is done with and waited for. -/
def Guarded (r : Requester) : Prop :=
  ∀ ticket ∈ UserLine.awaits r.client.user, ticket ∈ r.answered →
    r.client.ids.connectionRequestId ≠ ticket.asked

/-- The requests that the next step of `ExecuteMessages` is done with. -/
def answers (r : Requester) : Option Ticket :=
  if r.client.execute = .reset then r.handling else none

/-- The id of a request is stored before the request is done with, and what is stored when it is
done with, or later, is not its id. -/
def KeepsGuard (r : Requester) : Event → Prop
  | .client .user => ∀ ticket ∈ ChatClient.UserLine.storing r.client.user, ticket ∉ r.answered
  | .client (.abort pressed) => ∀ stored ∈ r.client.requestStore (.abort pressed),
      ∀ ticket ∈ UserLine.awaits r.client.user, stored ≠ ticket.asked
  | .client .execute => ∀ stored ∈ r.client.requestStore .execute,
      ∀ ticket ∈ UserLine.awaits r.client.user,
        ticket ∈ r.answered ∨ r.answers = some ticket → stored ≠ ticket.asked
  | _ => True

instance decidableKeepsGuard (r : Requester) : ∀ event, Decidable (r.KeepsGuard event)
  | .arrive _ => .isTrue trivial
  | .block => .isTrue trivial
  | .notify => .isTrue trivial
  | .wakeUp => .isTrue trivial
  | .client (.command _) => .isTrue trivial
  | .client (.type _) => .isTrue trivial
  | .client .user => inferInstanceAs (Decidable
      (∀ ticket ∈ ChatClient.UserLine.storing r.client.user, ticket ∉ r.answered))
  -- The ids are too many to be tried one after the other.
  | .client (.abort _) => @Option.decidableForallMem _ _ (fun _ => inferInstance) _
  | .client .execute => @Option.decidableForallMem _ _ (fun _ => inferInstance) _

theorem mem_answered_execute {ticket : Ticket} :
    ticket ∈ (r.after d .execute).answered ↔ ticket ∈ r.answered ∨ r.answers = some ticket := by
  simp only [after, answers]
  split
  case h_1 line => simp only [line, reduceCtorEq, if_false, or_false]
  case h_2 line => simp only [line, if_true, List.mem_append, Option.mem_toList]
  case h_3 notReset => simp only [if_neg notReset, reduceCtorEq, or_false]

/-- A request is done with when the close of the thread that polls ends its command. -/
theorem mem_answered_abort {ticket : Ticket} {pressed : Bool} :
    ticket ∈ (r.after d (.abort pressed)).answered ↔ ticket ∈ r.answered ∨
      ((r.client.requestStore (.abort pressed)).isSome = true ∧ ticket ∈ r.command) := by
  cases line : r.client.abort with
  | close id closeLine =>
      cases closeLine with
      | request =>
          simp only [after, ChatClient.requestStore, line, List.mem_append, Option.mem_toList,
            Option.mem_def, Option.isSome_some, true_and]
      | _ => simp only [after, ChatClient.requestStore, line, Option.isSome_none,
          Bool.false_eq_true, false_and, or_false]
  | _ => simp only [after, ChatClient.requestStore, line, Option.isSome_none,
      Bool.false_eq_true, false_and, or_false]

/-- Where a step of the user leaves a request that is waited for. -/
theorem awaits_userStep (taken : r.client.userStep self = some d) {ticket : Ticket}
    (awaits : ticket ∈ UserLine.awaits d.user) :
    (ticket ∈ ChatClient.UserLine.storing r.client.user ∧ UserLine.waits d.user = none ∧
        d.ids.connectionRequestId = ticket.asked) ∨
      (ticket ∈ UserLine.awaits r.client.user ∧
        (∀ waited ∈ UserLine.waits d.user, r.client.ids.connectionRequestId = ticket.asked) ∧
          d.ids.connectionRequestId = r.client.ids.connectionRequestId) := by
  cases line : r.client.user with
  | storeRequest asked =>
      simp only [ChatClient.userStep, line] at taken
      cases taken
      cases awaits
      exact .inl ⟨rfl, rfl, rfl⟩
  | lockConnect asked =>
      simp only [ChatClient.userStep, line] at taken
      split at taken
      case isTrue => cases taken; exact .inr ⟨awaits, fun _ waits => (by cases waits), rfl⟩
      case isFalse => cases taken
  | checkRequest asked =>
      simp only [ChatClient.userStep, line] at taken
      split at taken
      case isTrue names => cases taken; cases awaits; exact .inr ⟨rfl, fun _ _ => names, rfl⟩
      case isFalse => cases taken; cases awaits
  | wait asked =>
      simp only [ChatClient.userStep, line] at taken
      split at taken
      case isTrue => cases taken; exact .inr ⟨awaits, fun _ waits => (by cases waits), rfl⟩
      case isFalse => cases taken
  | sendAnswer accepted asked =>
      simp only [ChatClient.userStep, line] at taken
      cases taken
      cases accepted <;> cases awaits
  | checkChat caller data =>
      simp only [ChatClient.userStep, line] at taken
      split at taken
      case isTrue =>
        cases taken
        by_cases closes : data = ChatClient.closeText
        · simp only [if_pos closes] at awaits
          cases awaits
        · simp only [if_neg closes] at awaits
          cases awaits
      case isFalse =>
        cases taken
        cases caller <;> cases awaits
  | close caller closeLine =>
      cases closeLine
      all_goals
        simp only [ChatClient.userStep, line] at taken
        cases taken
        cases awaits
  | _ =>
      simp only [ChatClient.userStep, line] at taken
      try split at taken
      all_goals cases taken
      all_goals cases awaits

theorem guarded_user_iff (guarded : Guarded r) (taken : r.client.step self .user = some d) :
    Guarded (r.after d .user) ↔ r.KeepsGuard (.client .user) := by
  constructor
  · intro after ticket storing
    have line : r.client.user = .storeRequest ticket := by
      cases isLine : r.client.user with
      | storeRequest asked =>
          rw [isLine] at storing
          cases storing
          rfl
      | _ =>
          rw [isLine] at storing
          cases storing
    simp only [ChatClient.step, ChatClient.userStep, line] at taken
    cases taken
    intro done
    exact after ticket rfl done rfl
  · intro keeps ticket awaits done
    rw [after_client] at awaits ⊢
    rcases awaits_userStep taken awaits with ⟨storing, -, -⟩ | ⟨before, -, same⟩
    · exact absurd done (keeps ticket storing)
    · rw [same]
      exact guarded ticket before done

theorem guarded_abort_iff {pressed : Bool} (held : Held r) (guarded : Guarded r)
    (taken : r.client.step self (.abort pressed) = some d) :
    Guarded (r.after d (.abort pressed)) ↔ r.KeepsGuard (.client (.abort pressed)) := by
  have user := (ChatClient.frame_of_abortStep taken).1
  have field := ChatClient.connectionRequestId_step taken
  constructor
  · intro after stored stores ticket awaits
    have differs := after ticket (by rwa [after_client, user])
      (mem_answered_abort.mpr (.inr ⟨Option.isSome_of_mem stores, held.command ticket awaits⟩))
    rwa [after_client, field, Option.mem_def.mp stores] at differs
  · intro keeps ticket awaits done
    rw [after_client, user] at awaits
    rw [after_client, field]
    cases store : r.client.requestStore (.abort pressed) with
    | some stored => exact keeps stored store ticket awaits
    | none =>
        rcases mem_answered_abort.mp done with before | ⟨stores, -⟩
        · exact guarded ticket awaits before
        · rw [store] at stores
          cases stores

/-- Only a store is done with a request. -/
theorem reset_of_answers {ticket : Ticket} (answers : r.answers = some ticket) :
    r.client.execute = .reset := by
  by_contra notReset
  rw [Requester.answers, if_neg notReset] at answers
  cases answers

theorem guarded_execute_iff (guarded : Guarded r)
    (taken : r.client.step self .execute = some d) :
    Guarded (r.after d .execute) ↔ r.KeepsGuard (.client .execute) := by
  have user := (ChatClient.frame_of_executeStep taken).1
  have field := ChatClient.connectionRequestId_step taken
  constructor
  · intro after stored stores ticket awaits done
    have differs := after ticket (by rwa [after_client, user]) (mem_answered_execute.mpr done)
    rwa [after_client, field, Option.mem_def.mp stores] at differs
  · intro keeps ticket awaits done
    rw [after_client, user] at awaits
    rw [after_client, field]
    have before := mem_answered_execute.mp done
    cases store : r.client.requestStore .execute with
    | some stored => exact keeps stored store ticket awaits before
    | none =>
        rcases before with before | answers
        · exact guarded ticket awaits before
        · rw [ChatClient.requestStore, reset_of_answers answers] at store
          cases store

/-- No request is waited for where a command or a line of a chat leads. -/
theorem awaits_of_command {command : ChatClient.Command}
    (taken : r.client.step self (.command command) = some d) : UserLine.awaits d.user = none := by
  rcases ChatClient.user_of_command taken with line | ⟨asked, line⟩ | ⟨accepted, asked, line⟩
  all_goals rw [line]; rfl

theorem awaits_of_type {data : List UInt8} (taken : r.client.step self (.type data) = some d) :
    UserLine.awaits d.user = none := by
  obtain ⟨caller, -, rfl⟩ := ChatClient.eq_of_type taken
  rfl

theorem guarded_of_awaits (awaits : UserLine.awaits r.client.user = none) : Guarded r := by
  intro ticket isAwaited
  rw [awaits] at isAwaited
  cases isAwaited

/-- **A step keeps the guard false for the requests that are done with exactly if it meets the
condition.** -/
theorem guarded_step_iff (held : Held r) (guarded : Guarded r)
    (taken : r.step self event = some next) : Guarded next ↔ r.KeepsGuard event := by
  cases step_cases taken with
  | client event d allowed moved =>
      cases event with
      | command command =>
          refine iff_of_true (guarded_of_awaits ?_) trivial
          rw [after_client]
          exact awaits_of_command moved
      | type data =>
          refine iff_of_true (guarded_of_awaits ?_) trivial
          rw [after_client]
          exact awaits_of_type moved
      | user => exact guarded_user_iff guarded moved
      | abort pressed => exact guarded_abort_iff held guarded moved
      | execute => exact guarded_execute_iff guarded moved
  | _ => exact iff_of_true guarded trivial

/-! ## The id that was asked for -/

/-- A request that is done with and waited for did not ask for 0, the id that is stored then. -/
def AskedId (r : Requester) : Prop :=
  ∀ ticket ∈ UserLine.awaits r.client.user, ticket ∈ r.answered → ticket.asked ≠ 0

theorem AskedId.step (askedId : AskedId r) (guarded : Guarded next)
    (taken : r.step self event = some next) : AskedId next := by
  cases step_cases taken with
  | client event d allowed moved =>
      cases event with
      | command command =>
          intro ticket awaits
          rw [after_client, awaits_of_command moved] at awaits
          cases awaits
      | type data =>
          intro ticket awaits
          rw [after_client, awaits_of_type moved] at awaits
          cases awaits
      | user =>
          intro ticket awaits done
          have differs := guarded ticket awaits done
          rw [after_client] at awaits differs
          rcases awaits_userStep moved awaits with ⟨-, -, stored⟩ | ⟨before, -, -⟩
          · exact absurd stored differs
          · exact askedId ticket before done
      | abort pressed =>
          intro ticket awaits done
          have differs := guarded ticket awaits done
          rw [after_client, (ChatClient.frame_of_abortStep moved).1] at awaits
          rcases mem_answered_abort.mp done with before | ⟨stores, -⟩
          · exact askedId ticket awaits before
          · rw [after_client, ChatClient.connectionRequestId_step moved] at differs
            simp only [ChatClient.requestStore] at stores differs
            split at stores
            case h_1 line => simpa only [line, Option.getD_some] using differs.symm
            case h_2 => cases stores
      | execute =>
          intro ticket awaits done
          have differs := guarded ticket awaits done
          rw [after_client, (ChatClient.frame_of_executeStep moved).1] at awaits
          rcases mem_answered_execute.mp done with before | answers
          · exact askedId ticket awaits before
          · rw [after_client, ChatClient.connectionRequestId_step moved] at differs
            simpa only [ChatClient.requestStore, reset_of_answers answers, Option.getD_some] using
              differs.symm
  | _ => exact askedId

/-! ## The notification -/

/-- A thread that waits for a request that is done with was woken or is to be notified. -/
def Notified (r : Requester) : Prop :=
  ∀ ticket ∈ UserLine.waits r.client.user, ticket ∈ r.answered →
    r.sleep = .woken ∨ r.notifying = true

theorem waits_of_awaits {line : UserLine} (awaits : UserLine.awaits line = none) :
    UserLine.waits line = none := by
  cases line with
  | wait ticket => cases awaits
  | _ => rfl

theorem awaits_of_waits {line : UserLine} {ticket : Ticket} (waits : ticket ∈ UserLine.waits line) :
    ticket ∈ UserLine.awaits line := by
  cases line with
  | wait other => exact waits
  | _ => cases waits

/-- A step of the user to the wait finds the id in `ConnectionRequestId`. -/
theorem names_of_waits (taken : r.client.userStep self = some d) {ticket : Ticket}
    (waits : ticket ∈ UserLine.waits d.user) :
    ticket ∈ UserLine.awaits r.client.user ∧ r.client.ids.connectionRequestId = ticket.asked := by
  rcases awaits_userStep taken (awaits_of_waits waits) with ⟨-, notWaits, -⟩ | ⟨before, names, -⟩
  · rw [notWaits] at waits
    cases waits
  · exact ⟨before, names ticket waits⟩

theorem notified_of_waits (waits : UserLine.waits r.client.user = none) : Notified r := by
  intro ticket isWaited
  rw [waits] at isWaited
  cases isWaited

theorem Notified.abort (notified : Notified r) {pressed : Bool}
    (taken : r.client.step self (.abort pressed) = some d) :
    Notified (r.after d (.abort pressed)) := by
  intro ticket waits done
  rw [after_client, (ChatClient.frame_of_abortStep taken).1] at waits
  rw [after_sleep_abort]
  rcases notifying_of_abort taken with storesNothing | notifies
  · rcases mem_answered_abort.mp done with before | ⟨stores, -⟩
    · exact (notified ticket waits before).imp_right (notifying_after_abort pressed)
    · rw [storesNothing] at stores
      cases stores
  · exact .inr notifies

theorem Notified.execute (notified : Notified r)
    (taken : r.client.step self .execute = some d) : Notified (r.after d .execute) := by
  intro ticket waits done
  rw [after_client, (ChatClient.frame_of_executeStep taken).1] at waits
  rw [after_sleep_execute, notifying_after_execute taken]
  rcases mem_answered_execute.mp done with before | answers
  · exact (notified ticket waits before).imp_right .inl
  · exact .inr (.inr (reset_of_answers answers))

/-- **No step leaves a thread asleep whose request is done with.** -/
theorem Notified.step (notified : Notified r) (held : Held r) (guarded : Guarded r)
    (taken : r.step self event = some next) : Notified next := by
  cases step_cases taken with
  | arrive envelope => exact notified
  | client event d allowed moved =>
      cases event with
      | command command =>
          refine notified_of_waits ?_
          rw [after_client]
          exact waits_of_awaits (awaits_of_command moved)
      | type data =>
          refine notified_of_waits ?_
          rw [after_client]
          exact waits_of_awaits (awaits_of_type moved)
      | user =>
          intro ticket waits done
          rw [after_client] at waits
          obtain ⟨awaits, names⟩ := names_of_waits moved waits
          exact absurd names (guarded ticket awaits done)
      | abort pressed => exact notified.abort moved
      | execute => exact notified.execute moved
  | block enters =>
      intro ticket waits done
      rcases notified ticket waits done with woken | notifies
      · simp [entersWait, woken] at enters
      · exact .inr notifies
  | notify notifier isNotifier =>
      intro ticket waits done
      left
      have entered := (held.mux (by rw [isNotifier]; rfl)).2
      rw [entersWait, Option.mem_def.mp waits] at entered
      cases sleep : r.sleep with
      | awake => rw [sleep] at entered; cases entered
      | blocked => rfl
      | woken => rfl
  | wakeUp blocked => exact fun _ _ _ => .inl rfl

end Requester

end NetworkChat
