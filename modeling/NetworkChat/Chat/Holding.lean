import NetworkChat.Chat.Waiting

/-!
# The locks of a command

The thread of the user holds `muxConnect` on its way through a `ConnectTo`, but for the wait. The
thread that polls runs as long as the command, looks for the id of its request, and notifies with
the lock held, and so does `ExecuteMessages`.

`Held.step` says that every step keeps this.
-/

set_option autoImplicit false

namespace NetworkChat

open Foundation

/-- The id of the request that the thread polls for. -/
def AbortLine.request : AbortLine → Option UInt32
  | .off => none
  | .check id => some id
  | .poll id => some id
  | .close id _ => some id
  | .lock id => some id
  | .getChar id => some id

namespace Requester

variable {self : ConnectionPtr} {r next : Requester} {event : Event} {d : ChatClient}

/-- Where the threads and the locks of a command stand. -/
structure Held (r : Requester) : Prop where
  command : ∀ ticket ∈ UserLine.awaits r.client.user, r.command = some ticket
  connects : r.command.isSome = true → UserLine.connects r.client.user = true
  polls : ∀ ticket ∈ r.command, ∀ id ∈ AbortLine.request r.client.abort, id = ticket.asked
  joined : ChatClient.UserLine.holdsMux r.client.user = false →
    UserLine.waits r.client.user = none → r.client.abort = .off
  mux : r.notifies.isSome = true →
    ChatClient.UserLine.holdsMux r.client.user = false ∧ r.entersWait = false
  notifier : r.notifies = some .abort → ChatClient.AbortLine.holdsMux r.client.abort = true

theorem held_start : Held start where
  command ticket awaits := by cases awaits
  connects isSome := by cases isSome
  polls ticket commands := by cases commands
  joined _ _ := rfl
  mux isSome := by cases isSome
  notifier notifies := by cases notifies

/-- Nobody notifies while the thread of the user holds the lock. -/
theorem Held.quiet (held : Held r) (holds : ChatClient.UserLine.holdsMux r.client.user = true) :
    r.notifies = none := by
  cases notifies : r.notifies with
  | none => rfl
  | some notifier =>
      have free := (held.mux (by rw [notifies]; rfl)).1
      cases holds.symm.trans free

/-- Nobody notifies while the thread of the user takes the lock. -/
theorem Held.unnotified (held : Held r) (free : r.client.muxFree = true)
    (notExecute : r.notifies ≠ some .execute) : r.notifies = none := by
  cases notifies : r.notifies with
  | none => rfl
  | some notifier =>
      cases notifier with
      | execute => exact absurd notifies notExecute
      | abort =>
          have holds := held.notifier notifies
          simp only [ChatClient.muxFree, holds, Bool.not_true, Bool.and_false] at free
          cases free

/-- A step to a line outside of the loop where the thread holds the lock just as before. -/
theorem Held.passes (held : Held r) {command : Option Ticket}
    (commands : ∀ ticket ∈ command, ticket ∈ r.command ∧ UserLine.connects d.user = true)
    (taken : d.abort = r.client.abort)
    (holds : ChatClient.UserLine.holdsMux d.user = ChatClient.UserLine.holdsMux r.client.user)
    (before : UserLine.waits r.client.user = none) (waits : UserLine.waits d.user = none)
    (awaits : UserLine.awaits d.user = none) :
    Held { r with client := d, sleep := .awake, command := command } := by
  refine ⟨?_, ?_, ?_, ?_, ?_, ?_⟩
  · intro ticket isAwaited
    rw [awaits] at isAwaited
    cases isAwaited
  · intro isSome
    obtain ⟨ticket, isCommand⟩ := Option.isSome_iff_exists.mp isSome
    exact (commands ticket isCommand).2
  · intro ticket isCommand
    rw [taken]
    exact held.polls ticket (commands ticket isCommand).1
  · intro free _
    rw [holds] at free
    rw [taken]
    exact held.joined free before
  · intro notifies
    refine ⟨?_, ?_⟩
    · rw [holds]
      exact (held.mux notifies).1
    · simp only [entersWait, waits]
      rfl
  · intro notifies
    rw [taken]
    exact held.notifier notifies

/-- No step but the store of the id begins to wait for a request. -/
theorem mem_commandAt {line : UserLine}
    (storing : ChatClient.UserLine.storing r.client.user = none) :
    ∀ ticket ∈ r.commandAt line, ticket ∈ r.command ∧ UserLine.connects line = true := by
  intro ticket isCommand
  simp only [commandAt] at isCommand
  split at isCommand
  case h_1 other isLine => rw [isLine] at storing; cases storing
  case h_2 =>
    split at isCommand
    case isTrue connects => exact ⟨isCommand, connects⟩
    case isFalse => cases isCommand

/-- A line that neither enters the loop nor leaves it, and keeps the lock as it is. -/
theorem Held.within (held : Held r) {before : UserLine} (line : r.client.user = before)
    (taken : d.abort = r.client.abort)
    (holds : ChatClient.UserLine.holdsMux d.user = ChatClient.UserLine.holdsMux before)
    (noWait : UserLine.waits before = none)
    (storing : ChatClient.UserLine.storing before = none)
    (waits : UserLine.waits d.user = none) (awaits : UserLine.awaits d.user = none) :
    Held (r.after d .user) := by
  subst line
  exact held.passes (mem_commandAt storing) taken holds noWait waits awaits

/-- A step of the user on its way through the loop, while nobody notifies. -/
theorem Held.onward {ticket : Ticket} (isCommand : r.command = some ticket)
    (storing : ChatClient.UserLine.storing r.client.user = none) (quiet : r.notifies = none)
    (awaits : UserLine.awaits d.user = some ticket) (connects : UserLine.connects d.user = true)
    (polls : ∀ id ∈ AbortLine.request d.abort, id = ticket.asked)
    (joined : ChatClient.UserLine.holdsMux d.user = false → UserLine.waits d.user = none →
      d.abort = .off) : Held (r.after d .user) := by
  have same : (r.after d .user).command = some ticket := by
    simp only [after, commandAt, connects, if_true]
    split
    case h_1 other line => rw [line] at storing; cases storing
    case h_2 => exact isCommand
  have silent : (r.after d .user).notifies = none := quiet
  refine ⟨?_, fun _ => ?_, ?_, ?_, ?_, ?_⟩
  · intro other isAwaited
    rw [after_client, awaits] at isAwaited
    cases isAwaited
    exact same
  · rwa [after_client]
  · intro other commands
    rw [same] at commands
    cases commands
    rwa [after_client]
  · rwa [after_client]
  · intro notifies
    rw [silent] at notifies
    cases notifies
  · intro notifies
    rw [silent] at notifies
    cases notifies

/-- `ConnectTo` stores the id that it asks for, while no thread polls. -/
theorem Held.storeRequest (held : Held r) {ticket : Ticket}
    (line : r.client.user = .storeRequest ticket) (taken : r.client.userStep self = some d) :
    Held (r.after d .user) := by
  simp only [ChatClient.userStep, line] at taken
  cases taken
  have off : r.client.abort = .off := held.joined (by rw [line]; rfl) (by rw [line]; rfl)
  refine ⟨?_, ?_, ?_, ?_, ?_, ?_⟩
  · intro other awaits
    cases awaits
    simp only [after, commandAt, line]
  · exact fun _ => rfl
  · intro other _ id polls
    simp only [after, ChatClient.storeRequestId, off] at polls
    cases polls
  · exact fun _ _ => off
  · exact fun _ => ⟨rfl, rfl⟩
  · exact held.notifier

/-- `ConnectTo` takes the lock and starts the thread that polls. -/
theorem Held.lockConnect (held : Held r) {ticket : Ticket}
    (line : r.client.user = .lockConnect ticket) (allowed : r.allows .user = true)
    (taken : r.client.userStep self = some d) : Held (r.after d .user) := by
  simp only [ChatClient.userStep, line] at taken
  split at taken
  case isFalse => cases taken
  case isTrue free =>
    cases taken
    have isCommand : r.command = some ticket := held.command ticket (by rw [line]; rfl)
    have notExecute : r.notifies ≠ some .execute := by
      simpa only [allows, line, decide_eq_true_eq] using allowed
    refine .onward isCommand (by rw [line]; rfl) (held.unnotified free.1 notExecute) rfl rfl
      ?_ fun free => (by cases free)
    intro id polls
    cases polls
    rfl

/-- The loop goes on to wait, or is left. -/
theorem Held.checkRequest (held : Held r) {ticket : Ticket}
    (line : r.client.user = .checkRequest ticket) (taken : r.client.userStep self = some d) :
    Held (r.after d .user) := by
  simp only [ChatClient.userStep, line] at taken
  split at taken
  case isFalse =>
    cases taken
    exact held.within line rfl rfl rfl rfl rfl rfl
  case isTrue =>
    cases taken
    have isCommand : r.command = some ticket := held.command ticket (by rw [line]; rfl)
    exact .onward isCommand (by rw [line]; rfl) (held.quiet (by rw [line]; rfl)) rfl rfl
      (held.polls ticket isCommand) fun _ waits => (by cases waits)

/-- The wait ends, and the user has the lock again. -/
theorem Held.wait (held : Held r) {ticket : Ticket} (line : r.client.user = .wait ticket)
    (allowed : r.allows .user = true) (taken : r.client.userStep self = some d) :
    Held (r.after d .user) := by
  simp only [ChatClient.userStep, line] at taken
  split at taken
  case isFalse => cases taken
  case isTrue free =>
    cases taken
    have isCommand : r.command = some ticket := held.command ticket (by rw [line]; rfl)
    have woken : r.sleep = .woken ∧ r.notifies ≠ some .execute := by
      simpa only [allows, line, Bool.and_eq_true, decide_eq_true_eq] using allowed
    exact .onward isCommand (by rw [line]; rfl) (held.unnotified free woken.2) rfl rfl
      (held.polls ticket isCommand) fun free => (by cases free)

/-- `ConnectTo` returns once the thread that polls has ended. -/
theorem Held.joinAbort (held : Held r) (line : r.client.user = .joinAbort)
    (taken : r.client.userStep self = some d) : Held (r.after d .user) := by
  simp only [ChatClient.userStep, line] at taken
  split at taken
  case isFalse => cases taken
  case isTrue off =>
    cases taken
    have quiet := held.quiet (by rw [line]; rfl)
    have ended : r.commandAt .prompt = none := by
      simp only [commandAt, line, UserLine.connects, Bool.false_eq_true, if_false]
    refine ⟨?_, ?_, ?_, ?_, ?_, ?_⟩
    · intro other awaits
      cases awaits
    · intro isSome
      simp only [after, ended] at isSome
      cases isSome
    · intro other commands
      simp only [after, ended] at commands
      cases commands
    · exact fun _ _ => off
    · intro notifies
      simp only [after, quiet] at notifies
      cases notifies
    · intro notifies
      simp only [after, quiet] at notifies
      cases notifies

/-- **Every step of the thread of the user keeps what holds between the three.** -/
theorem Held.user (held : Held r) (allowed : r.allows .user = true)
    (taken : r.client.step self .user = some d) : Held (r.after d .user) := by
  simp only [ChatClient.step] at taken
  cases line : r.client.user with
  | storeRequest ticket => exact held.storeRequest line taken
  | lockConnect ticket => exact held.lockConnect line allowed taken
  | checkRequest ticket => exact held.checkRequest line taken
  | wait ticket => exact held.wait line allowed taken
  | joinAbort => exact held.joinAbort line taken
  | checkConnected =>
      simp only [ChatClient.userStep, line] at taken
      split at taken
      all_goals
        cases taken
        exact held.within line rfl rfl rfl rfl rfl rfl
  | sendAnswer accepted ticket =>
      simp only [ChatClient.userStep, line] at taken
      cases taken
      cases accepted
      all_goals exact held.within line rfl rfl rfl rfl rfl rfl
  | checkChat caller data =>
      simp only [ChatClient.userStep, line] at taken
      split at taken
      case isTrue =>
        cases taken
        by_cases closes : data = ChatClient.closeText
        · simp only [if_pos closes]
          exact held.within line rfl rfl rfl rfl rfl rfl
        · simp only [if_neg closes]
          exact held.within line rfl rfl rfl rfl rfl rfl
      case isFalse =>
        cases taken
        cases caller
        all_goals exact held.within line rfl rfl rfl rfl rfl rfl
  | close caller closeLine =>
      cases closeLine
      all_goals
        simp only [ChatClient.userStep, line] at taken
        cases taken
        exact held.within line rfl rfl rfl rfl rfl rfl
  | prompt => simp only [ChatClient.userStep, line] at taken; cases taken
  | chat caller => simp only [ChatClient.userStep, line] at taken; cases taken
  | _ =>
      simp only [ChatClient.userStep, line] at taken
      cases taken
      exact held.within line rfl rfl rfl rfl rfl rfl

/-- Outside of a `ConnectTo` no request stands for its command. -/
theorem Held.command_eq_none (held : Held r) (connects : UserLine.connects r.client.user = false) :
    r.command = none := by
  rw [Option.eq_none_iff_forall_ne_some]
  intro ticket isCommand
  cases connects.symm.trans (held.connects (by rw [isCommand]; rfl))

theorem Held.command_step (held : Held r) {command : ChatClient.Command}
    (taken : r.client.step self (.command command) = some d) :
    Held (r.after d (.command command)) := by
  obtain ⟨prompt, abort⟩ := ChatClient.frame_of_command taken
  have ended : r.command = none := held.command_eq_none (by rw [prompt]; rfl)
  have commands : ∀ ticket ∈ r.command, ticket ∈ r.command ∧ UserLine.connects d.user = true := by
    intro ticket isCommand
    rw [ended] at isCommand
    cases isCommand
  rcases ChatClient.user_of_command taken with line | ⟨ticket, line⟩ | ⟨accepted, ticket, line⟩
  all_goals
    exact held.passes commands abort (by rw [line, prompt]; try rfl) (by rw [prompt]; rfl)
      (by rw [line]; rfl) (by rw [line]; rfl)

theorem Held.type_step (held : Held r) {data : List UInt8}
    (taken : r.client.step self (.type data) = some d) : Held (r.after d (.type data)) := by
  obtain ⟨caller, chat, rfl⟩ := ChatClient.eq_of_type taken
  have ended : r.command = none := held.command_eq_none (by rw [chat]; rfl)
  refine held.passes ?_ rfl (by rw [chat]; rfl) (by rw [chat]; rfl) rfl rfl
  intro ticket isCommand
  rw [ended] at isCommand
  cases isCommand

/-- The thread that polls goes on polling for its request. -/
theorem request_abortStep {pressed : Bool} (taken : r.client.abortStep self pressed = some d) :
    ∀ id ∈ AbortLine.request d.abort, id ∈ AbortLine.request r.client.abort := by
  intro id polls
  cases line : r.client.abort with
  | off => simp only [ChatClient.abortStep, line] at taken; cases taken
  | check other =>
      simp only [ChatClient.abortStep, line] at taken
      split at taken
      case isTrue => cases taken; exact polls
      case isFalse => cases taken; cases polls
  | poll other =>
      simp only [ChatClient.abortStep, line] at taken
      cases taken
      cases pressed
      all_goals exact polls
  | close other closeLine =>
      cases closeLine
      all_goals
        simp only [ChatClient.abortStep, line] at taken
        cases taken
        exact polls
  | lock other =>
      simp only [ChatClient.abortStep, line] at taken
      split at taken
      case isTrue => cases taken; exact polls
      case isFalse => cases taken
  | getChar other =>
      simp only [ChatClient.abortStep, line] at taken
      cases taken
      exact polls

theorem not_off_of_abortStep {pressed : Bool} (taken : r.client.abortStep self pressed = some d) :
    r.client.abort ≠ .off := by
  intro off
  simp only [ChatClient.abortStep, off] at taken
  cases taken

theorem Held.abort (held : Held r) {pressed : Bool} (allowed : r.allows (.abort pressed) = true)
    (taken : r.client.step self (.abort pressed) = some d) : Held (r.after d (.abort pressed)) := by
  have user := (ChatClient.frame_of_abortStep taken).1
  have command : (r.after d (.abort pressed)).command = r.command := by
    simp only [after]
    split <;> rfl
  have entersWait : (r.after d (.abort pressed)).entersWait = r.entersWait := by
    simp only [Requester.entersWait, after_client, after_sleep_abort, user]
  refine ⟨?_, ?_, ?_, ?_, ?_, ?_⟩
  · rw [after_client, user, command]
    exact held.command
  · rw [after_client, user, command]
    exact held.connects
  · rw [after_client, command]
    exact fun ticket isCommand id polls =>
      held.polls ticket isCommand id (request_abortStep taken id polls)
  · rw [after_client, user]
    exact fun free waits => absurd (held.joined free waits) (not_off_of_abortStep taken)
  · intro notifies
    rw [after_client, user, entersWait]
    cases line : r.client.abort with
    | lock id =>
        simp only [allows, line, Bool.and_eq_true, Bool.not_eq_true'] at allowed
        simp only [ChatClient.step, ChatClient.abortStep, line] at taken
        split at taken
        case isTrue free =>
          simp only [ChatClient.muxFree, Bool.and_eq_true, Bool.not_eq_true'] at free
          exact ⟨free.1, allowed.2⟩
        case isFalse => cases taken
    | close id closeLine =>
        cases closeLine
        all_goals
          simp only [after, line] at notifies
          exact held.mux notifies
    | _ =>
        simp only [after, line] at notifies
        exact held.mux notifies
  · intro notifies
    rw [after_client]
    cases line : r.client.abort with
    | lock id =>
        simp only [ChatClient.step, ChatClient.abortStep, line] at taken
        split at taken
        case isTrue => cases taken; rfl
        case isFalse => cases taken
    | close id closeLine =>
        simp only [allows, line, decide_eq_true_eq] at allowed
        cases closeLine
        all_goals
          simp only [after, line] at notifies
          exact absurd notifies allowed
    | _ =>
        simp only [allows, line, decide_eq_true_eq] at allowed
        simp only [after, line] at notifies
        exact absurd notifies allowed

theorem Held.execute (held : Held r) (allowed : r.allows .execute = true)
    (taken : r.client.step self .execute = some d) : Held (r.after d .execute) := by
  obtain ⟨user, abort⟩ := ChatClient.frame_of_executeStep taken
  have command : (r.after d .execute).command = r.command := by
    simp only [after]
    split <;> rfl
  have entersWait : (r.after d .execute).entersWait = r.entersWait := by
    simp only [Requester.entersWait, after_client, after_sleep_execute, user]
  refine ⟨?_, ?_, ?_, ?_, ?_, ?_⟩
  · rw [after_client, user, command]
    exact held.command
  · rw [after_client, user, command]
    exact held.connects
  · rw [after_client, command, abort]
    exact held.polls
  · rw [after_client, user, abort]
    exact held.joined
  · intro notifies
    rw [after_client, user, entersWait]
    cases line : r.client.execute with
    | reset =>
        simp only [allows, line, Bool.and_eq_true, Bool.not_eq_true'] at allowed
        simp only [ChatClient.step, ChatClient.executeStep, line] at taken
        split at taken
        case isTrue free =>
          simp only [ChatClient.muxFree, Bool.and_eq_true, Bool.not_eq_true'] at free
          exact ⟨free.1, allowed.2⟩
        case isFalse => cases taken
    | _ =>
        simp only [after, line] at notifies
        exact held.mux notifies
  · intro notifies
    rw [after_client, abort]
    cases line : r.client.execute with
    | reset => simp only [after, line] at notifies; cases notifies
    | _ =>
        simp only [after, line] at notifies
        exact held.notifier notifies

theorem Held.step (held : Held r) (taken : r.step self event = some next) : Held next := by
  obtain ⟨command, connects, polls, joined, mux, notifier⟩ := held
  cases step_cases taken with
  | arrive envelope => exact ⟨command, connects, polls, joined, mux, notifier⟩
  | client event d allowed moved =>
      have held : Held r := ⟨command, connects, polls, joined, mux, notifier⟩
      cases event with
      | command command => exact held.command_step moved
      | type data => exact held.type_step moved
      | user => exact held.user allowed moved
      | abort pressed => exact held.abort allowed moved
      | execute => exact held.execute allowed moved
  | block enters =>
      refine ⟨command, connects, polls, joined, fun notifies => ⟨(mux notifies).1, ?_⟩, notifier⟩
      simp [entersWait]
  | notify isNotifier =>
      exact ⟨command, connects, polls, joined, fun isSome => (by cases isSome), fun notifies =>
        (by cases notifies)⟩
  | wakeUp blocked =>
      refine ⟨command, connects, polls, joined, fun notifies => ⟨(mux notifies).1, ?_⟩, notifier⟩
      simp [entersWait]

end Requester

end NetworkChat
