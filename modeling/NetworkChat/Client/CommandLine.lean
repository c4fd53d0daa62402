import NetworkChat.Chat.Layouts
import NetworkChat.Client.Utilities
import NetworkChat.Server.Isolation
import NetworkChat.Server.Registry

/-!
# Lines that are typed

`main` of the client gives each line that is not empty to `StrToCommand`, and the command to
`operator<<` (`Client.cpp`). The id of a `ConnectTo` is read off the list of clients, where it was
printed by `operator<<`.

Every command but `CloseClient` can be typed, with any id where it has one (`typed_iff`), so the
threads of a client get every command that they know (`exists_line`). A line may be a different
command where `unsigned long` has another width, exactly if its number fits into 64 bits and not
into 32 (`same_on_both_iff`). An id that is typed as it was printed is the one that the server looks
up, and it finds a client as long as one with the id is open (`typed_id_is_found`).
-/

set_option autoImplicit false

namespace NetworkChat

open Foundation

namespace Utilities

variable {long : LongWidth} {string : List UInt8} {command : Command} {id : UInt32}

/-! ## What can be typed -/

/-- The line of a command, as `Help` shows it; any other word is a blank command. -/
def lineOf (command : Command) : List UInt8 :=
  match command.command with
  | .serverPing => ascii "Ping"
  | .clientList => ascii "Clients"
  | .helloAll => ascii "HelloAll"
  | .connectTo => ascii "ConnectTo" ++ 32 :: printDecimal command.id.toNat
  | .requestAccept => ascii "Accept"
  | .requestDecline => ascii "Decline"
  | .help => ascii "Help"
  | .closeClient => ascii "?"
  | .blank => ascii "?"

/-- The commands that a line can be: there is no word for `CloseClient`, and only `ConnectTo` has an
id. -/
def Typeable (command : Command) : Prop :=
  command.command ≠ .closeClient ∧ (command.command ≠ .connectTo → command.id = 0)

/-- The line with a printed id names the id. -/
theorem names_printed (id : UInt32) :
    Names (ascii "ConnectTo" ++ 32 :: printDecimal id.toNat) id := by
  obtain ⟨numeral, value⟩ := numeral_printDecimal id.toNat
  exact ⟨printDecimal id.toNat, rfl, numeral, value⟩

/-- **An id is read as it was printed.** -/
theorem strToCommand_printed (long : LongWidth) (id : UInt32) :
    strToCommand long (ascii "ConnectTo" ++ 32 :: printDecimal id.toNat) = ⟨.connectTo, id⟩ := by
  have names := names_printed id
  rw [strToCommand_connectTo long (names_iff.mp names).1, stoul_of_names long names]
  simp only [UInt32.ofNat_toNat]

/-- **A command is read from the line that `Help` shows for it.** -/
theorem strToCommand_lineOf (long : LongWidth) (typeable : Typeable command) :
    strToCommand long (lineOf command) = command := by
  obtain ⟨command, id⟩ := command
  cases command with
  | connectTo => exact strToCommand_printed long id
  | closeClient => exact absurd rfl typeable.1
  | _ =>
      cases typeable.2 (by simp)
      rfl

/-- A word that has a command without an id. -/
theorem typeable_of_simple {entry : List UInt8 × CommandPrefix} (member : entry ∈ simpleCommands) :
    Typeable ⟨entry.2, 0⟩ := by
  have words : ∀ entry ∈ simpleCommands, entry.2 ≠ .closeClient := by decide
  exact ⟨words entry member, fun _ => rfl⟩

theorem typeable_strToCommand (long : LongWidth) (string : List UInt8) :
    Typeable (strToCommand long string) := by
  rw [strToCommand]
  split
  case h_1 command found =>
    obtain ⟨before, after, split, -⟩ := List.lookup_eq_some_iff.mp found
    have member : (firstWord string, command) ∈ simpleCommands := by rw [split]; simp
    exact typeable_of_simple member
  case h_2 =>
    split
    case h_1 command found =>
      obtain ⟨before, after, split, -⟩ := List.lookup_eq_some_iff.mp found
      have member : (firstWord string, command) ∈ commandsWithID := by rw [split]; simp
      have isConnect : command = .connectTo := congrArg Prod.snd (List.mem_singleton.mp member)
      subst isConnect
      split
      · exact ⟨by simp, fun other => absurd rfl other⟩
      · exact ⟨by simp, fun _ => rfl⟩
    case h_2 => exact ⟨by simp, fun _ => rfl⟩

theorem lineOf_ne_nil (command : Command) : lineOf command ≠ [] := by
  obtain ⟨command, id⟩ := command
  cases command <;> exact List.cons_ne_nil _ _

/-- **What can be typed is every command but `CloseClient`, with an id exactly if it is a
`ConnectTo`**, and an id is read from the digits that are printed for it. -/
theorem typed_iff (long : LongWidth) :
    (∀ command, (∃ string, string ≠ [] ∧ strToCommand long string = command) ↔
        Typeable command) ∧
      ∀ id : UInt32,
        strToCommand long (ascii "ConnectTo" ++ 32 :: printDecimal id.toNat) =
          ⟨.connectTo, id⟩ := by
  refine ⟨fun command => ⟨?_, fun typeable => ?_⟩, strToCommand_printed long⟩
  · rintro ⟨string, -, rfl⟩
    exact typeable_strToCommand long string
  · exact ⟨lineOf command, lineOf_ne_nil command, strToCommand_lineOf long typeable⟩

/-- What `operator<<` does with the threads of a client. The other commands only send or print. -/
def toThreads (command : Command) : Option ChatClient.Command :=
  match command.command with
  | .connectTo => some (.connectTo command.id)
  | .requestAccept => some .requestAccept
  | .requestDecline => some .requestDecline
  | _ => none

/-- **Every command that the threads of a client know can be typed.** -/
theorem exists_line (long : LongWidth) (command : ChatClient.Command) :
    ∃ string, toThreads (strToCommand long string) = some command := by
  cases command with
  | connectTo id => exact ⟨_, by rw [strToCommand_printed long id]; rfl⟩
  | requestAccept => exact ⟨ascii "Accept", by cases long <;> rfl⟩
  | requestDecline => exact ⟨ascii "Decline", by cases long <;> rfl⟩

/-! ## The width of an `unsigned long` -/

/-- The argument of a `ConnectTo` does not start with a number of more than 32 and at most 64
bits. -/
def SameOnBoth (string : List UInt8) : Prop :=
  firstWord string = ascii "ConnectTo" → digitsRead (argument string) ≠ [] →
    decimalValue (digitsRead (argument string)) < 2 ^ 32 ∨
      2 ^ 64 ≤ decimalValue (digitsRead (argument string))

instance (string : List UInt8) : Decidable (SameOnBoth string) :=
  inferInstanceAs (Decidable (_ → _))

/-- A negated number of 32 bits is the same in both widths, once it is narrowed. -/
theorem ofNat_negated {value : ℕ} (small : value < 2 ^ 32) :
    UInt32.ofNat ((2 ^ 32 - value) % 2 ^ 32) = UInt32.ofNat ((2 ^ 64 - value) % 2 ^ 64) := by
  rw [← UInt32.toNat_inj, UInt32.toNat_ofNat', UInt32.toNat_ofNat']
  omega

/-- The width is asked only for the argument of a `ConnectTo`. -/
theorem strToCommand_any (word : firstWord string ≠ ascii "ConnectTo") (first second : LongWidth) :
    strToCommand first string = strToCommand second string := by
  have notWithID : commandsWithID.lookup (firstWord string) = none := by
    refine List.lookup_eq_none_iff.mpr fun entry member => ?_
    cases List.mem_singleton.mp member
    exact bne_iff_ne.mpr word
  simp only [strToCommand, notWithID]

/-- **A line is the same command with both widths exactly if its number does not lie between
them.** -/
theorem same_on_both_iff (string : List UInt8) :
    strToCommand .bits32 string = strToCommand .bits64 string ↔ SameOnBoth string := by
  by_cases word : firstWord string = ascii "ConnectTo"
  · rw [strToCommand_connectTo .bits32 word, strToCommand_connectTo .bits64 word, SameOnBoth,
      stoul, stoul, LongWidth.bits, LongWidth.bits]
    by_cases noDigit : digitsRead (argument string) = []
    · rw [if_pos noDigit, if_pos noDigit]
      exact iff_of_true rfl fun _ digits => absurd noDigit digits
    rw [if_neg noDigit, if_neg noDigit]
    generalize decimalValue (digitsRead (argument string)) = value,
      (takeSign ((argument string).dropWhile isSpace)).1 = negated
    by_cases small : value < 2 ^ 32
    · rw [if_neg (Nat.not_le.mpr small), if_neg (Nat.not_le.mpr (small.trans (by decide)))]
      refine iff_of_true ?_ fun _ _ => .inl small
      cases negated with
      | true => exact congrArg (Command.mk .connectTo) (ofNat_negated small)
      | false => rfl
    · rw [if_pos (Nat.le_of_not_lt small)]
      by_cases large : 2 ^ 64 ≤ value
      · rw [if_pos large]
        exact iff_of_true rfl fun _ _ => .inr large
      · rw [if_neg large]
        refine iff_of_false ?_ fun same => (same word noDigit).elim small large
        intro same
        cases negated <;> cases same
  · exact iff_of_true (strToCommand_any word _ _) fun same => absurd same word

/-- An id of 33 bits is read with 64 bits only. -/
example : ¬ SameOnBoth (ascii "ConnectTo 4294977296") ∧ SameOnBoth (ascii "ConnectTo -1") := by
  decide

end Utilities

/-! ## The id of a list -/

namespace Hall

open CustomServer Utilities

variable {hall now : Hall} {before events : List Event}

/-- The message of a `ConnectTo` that was typed with an id as it was printed. -/
def typedRequest (long : LongWidth) (id : UInt32) : Message CustomMsgTypes :=
  CustomClient.connectRequest (strToCommand long (lineOf ⟨.connectTo, id⟩)).id

/-- The ids that `ExecuteMessages` prints are those of the message. -/
theorem id_of_countdown {ids : List UInt32} {place : ℕ} {id : UInt32}
    (shown : (place, id) ∈ countdown ids) : id ∈ ids := by
  rw [countdown, List.mem_reverse, List.mem_mapIdx] at shown
  obtain ⟨index, known, same⟩ := shown
  cases same
  exact List.getElem_mem known

/-- A request for an id that is on the deque is passed on, or the asker is told that somebody is
busy. -/
theorem requestToClient_of_known (asker : ConnectionPtr) {other : ConnectionPtr} {id : UInt32}
    (onDeque : other ∈ hall.server.dequeConnections) (isId : (hall.view other).id = id) :
    ∃ found, (hall.view found).id = id ∧
      ((hall.server.requestToClient hall.view asker id).2 =
          [.send found (idMsg .requestToClient (hall.view asker).id)] ∨
        (hall.server.requestToClient hall.view asker id).2 =
          [.send asker (idMsg .requestToClient 1)]) := by
  cases search : hall.server.findClient hall.view id with
  | none =>
      have absent := List.find?_eq_none.mp search other onDeque
      exact absurd (beq_iff_eq.mpr isId) absent
  | some found =>
      have isFound : (hall.view found).id = id := id_of_findClient search
      refine ⟨found, isFound, ?_⟩
      rcases answer : hall.server.connectClients (hall.view asker).id id with ⟨_ | _, after⟩
      · exact .inr (by simp only [requestToClient, search, answer])
      · exact .inl (by simp only [requestToClient, search, answer])

/-- A connection keeps its id. -/
theorem id_of_known (run : runFrom step start events = some hall) {client : ConnectionPtr}
    (known : client < hall.peers.length) :
    (hall.view client).id = UInt32.ofNat (10000 + client) := by
  obtain ⟨-, -, numbered⟩ := registered_of_run run
  have found : hall.peers[client]? = some (hall.view client) := by
    rw [view, List.getD_eq_getElem?_getD, List.getElem?_eq_getElem known]
    rfl
  exact numbered.ids client _ found

theorem known_of_open {client : ConnectionPtr} (isOpen : (hall.view client).isConnected = true) :
    client < hall.peers.length := by
  by_contra unknown
  rw [view, List.getD_eq_getElem?_getD, List.getElem?_eq_none (Nat.le_of_not_lt unknown)] at isOpen
  cases isOpen

/-- **An id of a list that is typed as it was printed is found by the server as long as the
connection that the list named is open**, whatever has happened since. -/
theorem typed_id_is_found (run : runFrom step start before = some hall)
    {reader : ConnectionPtr} {msg list : Message CustomMsgTypes}
    (type : msg.header.id = .clientList) {server : CustomServer} {calls : List Call}
    (returned : hall.server.onMessage hall.view reader msg = .ok (server, calls))
    (sent : (reader, list) ∈ messages calls) {entries : List (ℕ × UInt32)}
    (read : readMessage list = .ok (.clientList entries)) {place : ℕ} {id : UInt32}
    (shown : (place, id) ∈ entries) :
    ∃ other ∈ hall.openClients, (hall.view other).id = id ∧
      ∀ events now, runFrom step hall events = some now → (now.view other).isConnected = true →
        (now.view other).id = id ∧ ∀ asker long, ∃ found after calls, (now.view found).id = id ∧
          now.server.onMessage now.view asker (typedRequest long id) = .ok (after, calls) ∧
          (calls = [.send found (idMsg .requestToClient (now.view asker).id)] ∨
            calls = [.send asker (idMsg .requestToClient 1)]) := by
  -- the list names the open connections
  simp only [onMessage, type] at returned
  cases returned
  change (reader, list) ∈ messages (_ ++ [.send reader (listMsg _)]) at sent
  rw [(list_of_run run reader).1, List.mem_singleton] at sent
  cases sent
  have entriesShown := (readMessage_message (.clientList _)).symm.trans read
  cases entriesShown
  obtain ⟨other, isOpen, isId⟩ := List.mem_map.mp (id_of_countdown shown)
  refine ⟨other, isOpen, isId, fun events now goesOn stillOpen => ?_⟩
  -- the request names the id, and the connection is still on the deque
  have whole := runFrom_trans run goesOn
  obtain ⟨reported, registered, numbered⟩ := registered_of_run whole
  have known := known_of_open stillOpen
  have onDeque : other ∈ now.server.dequeConnections := by
    refine List.mem_of_mem_filter (p := fun client => (now.view client).isConnected) ?_
    rw [registered.filter_deque numbered]
    exact List.mem_filter.mpr ⟨List.mem_range.mpr known, stillOpen⟩
  have stays : (now.view other).id = id := by
    rw [id_of_known whole known, ← isId,
      id_of_known run (List.mem_range.mp (List.mem_filter.mp isOpen).1)]
  refine ⟨stays, fun asker long => ?_⟩
  have asks : (typedRequest long id).pop UInt32 = .ok (id, .ofType .requestToClient) := by
    rw [typedRequest, lineOf, strToCommand_printed]
    exact Message.pop_push _ _
  obtain ⟨found, isFound, answers⟩ := requestToClient_of_known asker onDeque stays
  exact ⟨found, _, _, isFound, onMessage_request rfl asks, answers⟩

/-- Two clients are connected. -/
def twoOpen : Hall := (runFrom step start [.accept, .accept]).get (by decide)

/-- What the first client is sent when it asks for the list. -/
def twoListed : Message CustomMsgTypes := listMsg [10000, 10001]

theorem typed_id_is_found_twoOpen :
    ∃ other ∈ twoOpen.openClients, (twoOpen.view other).id = 10001 ∧
      ∀ events now, runFrom step twoOpen events = some now → (now.view other).isConnected = true →
        (now.view other).id = 10001 ∧ ∀ asker long, ∃ found after calls,
          (now.view found).id = 10001 ∧
          now.server.onMessage now.view asker (typedRequest long 10001) = .ok (after, calls) ∧
          (calls = [.send found (idMsg .requestToClient (now.view asker).id)] ∨
            calls = [.send asker (idMsg .requestToClient 1)]) := by
  have type : (Message.ofType CustomMsgTypes.clientList).header.id = .clientList := rfl
  have returned : twoOpen.server.onMessage twoOpen.view 0 (.ofType .clientList) =
      .ok ((twoOpen.server.getClientList twoOpen.view).2.1, [.send 0 twoListed]) := rfl
  have shown : (2, 10001) ∈ countdown [10000, 10001] := by decide
  exact typed_id_is_found (Option.some_get _).symm type returned (by decide)
    (readMessage_message (.clientList [10000, 10001])) shown

end Hall

end NetworkChat
