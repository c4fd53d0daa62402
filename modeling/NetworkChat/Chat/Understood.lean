import NetworkChat.Chat.Layouts
import NetworkChat.Connection.Conversation

/-!
# What is understood of what was said

The loop of a connection reads into one buffer and leaves the body in it when the next message has
none, so a message without a body is pushed with the body of an earlier one. `OnMessage` takes
nothing from a message of a type that clients send without a body (`onMessage_receive`).
`ExecuteMessages` does, of a list: what is extracted is what was told exactly when no list without
ids comes after a body (`reads_told_iff`).

So over a connection of two honest ends, whatever fails, the server does what it would do with the
first things that the client said, and the client extracts the first things that it was told
(`understood_of_run`).
-/

set_option autoImplicit false

namespace NetworkChat

open Foundation

/-! ## The server -/

/-- A message whose body is empty is of a type whose body is not read. -/
theorem Said.type_of_empty {said : Said} (empty : said.message.body = []) :
    said.message.header.id = .messageAll ∨ said.message.header.id = .clientList ∨
      said.message.header.id = .closeClient := by
  have notEmpty : 0 < said.message.body.length → False := fun some => by
    rw [empty, List.length_nil] at some
    omega
  cases said with
  | messageAll => exact .inl rfl
  | clientList => exact .inr (.inl rfl)
  | closeClient => exact .inr (.inr rfl)
  | serverPing timeNow => exact (notEmpty (Nat.succ_pos _)).elim
  | requestToClient id => exact (notEmpty (Nat.succ_pos _)).elim
  | requestAnswer accepted => exact (notEmpty (Nat.succ_pos _)).elim
  | textClient text =>
      refine (notEmpty ?_).elim
      change 0 < (([] ++ text.bytes) ++ toBytes (UInt64.ofNat text.bytes.length)).length
      rw [List.length_append, FixedLayout.length_toBytes]
      exact Nat.lt_of_lt_of_le (by decide) (Nat.le_add_left _ _)

/-- The body of such a message does not matter. -/
theorem CustomServer.onMessage_stale (view : ConnectionPtr → Peer) (server : CustomServer)
    (client : ConnectionPtr) {msg : Message CustomMsgTypes}
    (type : msg.header.id = .messageAll ∨ msg.header.id = .clientList ∨
      msg.header.id = .closeClient) (body : List UInt8) :
    server.onMessage view client { msg with body } = server.onMessage view client msg := by
  rcases type with type | type | type
  all_goals simp only [onMessage, type]

/-- **The server does with what the loop pushes what it does with what was said.** -/
theorem onMessage_receive (view : ConnectionPtr → Peer) (server : CustomServer)
    (client : ConnectionPtr) (buffer : List UInt8) (saids : List Said) :
    (receive buffer (saids.map fun said => said.message.frame)).map
        (fun msg => CustomServer.outcome (server.onMessage view client msg)) =
      saids.map fun said => CustomServer.outcomeSaid (server.onSaid view client said) := by
  induction saids generalizing buffer with
  | nil => rfl
  | cons said saids ih =>
      simp only [List.map_cons, receive, Message.frame]
      rw [← CustomServer.onMessage_message, List.cons.injEq]
      refine ⟨?_, ih _⟩
      by_cases empty : said.message.body = []
      · rw [if_pos empty]
        exact congrArg CustomServer.outcome
          (CustomServer.onMessage_stale view server client (Said.type_of_empty empty) buffer)
      · rw [if_neg empty]

/-! ## The client -/

/-- A body is empty or holds four bytes. -/
def Bodied (body : List UInt8) : Prop := body = [] ∨ 4 ≤ body.length

theorem Told.bodied (told : Told) : Bodied told.message.body := by
  cases told with
  | closeClient => exact .inl rfl
  | serverAccept id => exact .inr (le_refl 4)
  | serverMessage id => exact .inr (le_refl 4)
  | requestToClient id => exact .inr (le_refl 4)
  | requestAnswer accepted => exact .inr (le_refl 4)
  | serverPing timeNow => exact .inr (show 4 ≤ 8 by decide)
  | clientList ids =>
      have body : (CustomServer.listMsg ids).body = ids.flatMap toBytes := body_foldl_push ids _
      cases ids with
      | nil => exact .inl rfl
      | cons id ids =>
          refine .inr ?_
          rw [Told.message, body, length_flatMap_ids, List.length_cons]
          omega
  | textClient text =>
      refine .inr ?_
      change 4 ≤ (([] ++ text.bytes) ++ toBytes (UInt64.ofNat text.bytes.length)).length
      rw [List.length_append, FixedLayout.length_toBytes]
      exact Nat.le_trans (by decide) (Nat.le_add_left _ _)

/-- What is told without a body is a close or a list without ids. -/
theorem Told.of_empty {told : Told} (empty : told.message.body = []) :
    told = .closeClient ∨ told = .clientList [] := by
  have notEmpty : 4 ≤ told.message.body.length → False := fun some => by
    rw [empty, List.length_nil] at some
    omega
  cases told with
  | closeClient => exact .inl rfl
  | serverAccept id => exact (notEmpty (le_refl 4)).elim
  | serverMessage id => exact (notEmpty (le_refl 4)).elim
  | requestToClient id => exact (notEmpty (le_refl 4)).elim
  | requestAnswer accepted => exact (notEmpty (le_refl 4)).elim
  | serverPing timeNow => exact (notEmpty (show 4 ≤ 8 by decide)).elim
  | textClient text =>
      rcases (Told.textClient text).bodied with none | some
      · change ([] ++ text.bytes) ++ toBytes (UInt64.ofNat text.bytes.length) = [] at none
        have length := congrArg List.length none
        rw [List.length_append, FixedLayout.length_toBytes, List.length_nil] at length
        exact absurd (Nat.eq_zero_of_add_eq_zero_left length) (by decide)
      · exact (notEmpty some).elim
  | clientList ids =>
      have body : (CustomServer.listMsg ids).body = ids.flatMap toBytes := body_foldl_push ids _
      cases ids with
      | nil => exact .inr rfl
      | cons id ids =>
          refine (notEmpty ?_).elim
          rw [Told.message, body, length_flatMap_ids, List.length_cons]
          omega

/-- The loop of a list finds as many ids as it looks for. -/
theorem length_readClientList {count : ℕ} {msg : Message CustomMsgTypes}
    {ids : List (ℕ × UInt32)} (read : readClientList count msg = .ok ids) : ids.length = count := by
  induction count generalizing msg ids with
  | zero => cases read; rfl
  | succ count ih =>
      rw [readClientList] at read
      cases popped : msg.pop UInt32 with
      | error fault => rw [popped] at read; cases read
      | ok result =>
          obtain ⟨id, rest⟩ := result
          rw [popped] at read
          change (readClientList count rest >>= _) = _ at read
          cases later : readClientList count rest with
          | error fault => rw [later] at read; cases read
          | ok others =>
              rw [later] at read
              cases read
              rw [List.length_cons, ih later]

/-- A list without ids is read as such exactly when the buffer is empty. -/
theorem readMessage_emptyList {buffer : List UInt8} (bodied : Bodied buffer) :
    readMessage ⟨(CustomServer.listMsg []).header, buffer⟩ = .ok (.clientList []) ↔
      buffer = [] := by
  constructor
  · intro reads
    rcases bodied with empty | some
    · exact empty
    · have type : (CustomServer.listMsg []).header.id = .clientList := rfl
      simp only [readMessage, type] at reads
      change (readClientList (buffer.length / FixedLayout.size UInt32) _ >>= _) = _ at reads
      cases list : readClientList (buffer.length / FixedLayout.size UInt32)
          ⟨(CustomServer.listMsg []).header, buffer⟩ with
      | error fault => rw [list] at reads; cases reads
      | ok ids =>
          rw [list] at reads
          cases reads
          have none := length_readClientList list
          have few : 0 < buffer.length / FixedLayout.size UInt32 :=
            Nat.div_pos some (by decide)
          rw [List.length_nil] at none
          omega
  · rintro rfl
    exact readMessage_message (.clientList [])

/-- What the loop pushes for one thing that is told is read as it was told, unless it is a list
without ids and the buffer holds a body. -/
theorem readMessage_stale {buffer : List UInt8} (bodied : Bodied buffer) (told : Told) :
    readMessage ⟨told.message.header,
        if told.message.body = [] then buffer else told.message.body⟩ = .ok told.received ↔
      (told = .clientList [] → buffer = []) := by
  by_cases empty : told.message.body = []
  · rw [if_pos empty]
    rcases Told.of_empty empty with rfl | rfl
    · exact iff_of_true rfl nofun
    · exact (readMessage_emptyList bodied).trans ⟨fun none _ => none, fun none => none rfl⟩
  · rw [if_neg empty]
    refine iff_of_true (readMessage_message told) ?_
    rintro rfl
    exact absurd rfl empty

/-- No list without ids comes after a body. -/
def EmptyListsFirst (tolds : List Told) : Prop :=
  tolds.Pairwise fun earlier later => later = .clientList [] → earlier.message.body = []

theorem readMessage_receive_iff {buffer : List UInt8} (bodied : Bodied buffer)
    (tolds : List Told) :
    (receive buffer (tolds.map fun told => told.message.frame)).map readMessage =
        tolds.map (fun told => .ok told.received) ↔
      (∀ told ∈ tolds, told = .clientList [] → buffer = []) ∧ EmptyListsFirst tolds := by
  induction tolds generalizing buffer with
  | nil => simp [receive, EmptyListsFirst]
  | cons told tolds ih =>
      let body := if told.message.body = [] then buffer else told.message.body
      have bodiedNext : Bodied body := by
        simp only [body]
        split
        · exact bodied
        · exact told.bodied
      have emptyNext : body = [] ↔ told.message.body = [] ∧ buffer = [] := by
        by_cases empty : told.message.body = [] <;> simp [body, empty]
      simp only [List.map_cons, receive, Message.frame, List.cons.injEq, EmptyListsFirst,
        List.pairwise_cons, List.forall_mem_cons]
      rw [readMessage_stale bodied told]
      have later := ih bodiedNext
      simp only [Message.frame, EmptyListsFirst] at later
      rw [later]
      constructor
      · rintro ⟨first, laterEmpty, ordered⟩
        refine ⟨⟨first, fun later member isEmpty => ?_⟩, fun later member isEmpty => ?_, ordered⟩
        · exact (emptyNext.mp (laterEmpty later member isEmpty)).2
        · exact (emptyNext.mp (laterEmpty later member isEmpty)).1
      · rintro ⟨⟨first, laterBuffer⟩, laterEmpty, ordered⟩
        refine ⟨first, fun later member isEmpty => ?_, ordered⟩
        exact emptyNext.mpr ⟨laterEmpty later member isEmpty, laterBuffer later member isEmpty⟩

/-- **What a client extracts is what it was told exactly when no list without ids comes after a
body.** -/
theorem reads_told_iff (tolds : List Told) :
    (receive [] (tolds.map fun told => told.message.frame)).map readMessage =
      tolds.map (fun told => .ok told.received) ↔ EmptyListsFirst tolds := by
  rw [readMessage_receive_iff (.inl rfl)]
  exact and_iff_right fun _ _ _ => rfl

/-! ## A conversation -/

namespace Conversation

/-- **Whatever fails, the server does what it would do with the first things that the client said,
and the client extracts the first things that it was told**, if the handshake comes in order. -/
theorem understood_of_run (clock : UInt64) (uid : UInt32)
    {events : List (Handshake.Event CustomMsgTypes)} {final : Handshake CustomMsgTypes}
    (welcome tolds : List Told) (saids : List Said)
    (run : runFrom step (Handshake.start clock (welcome.map Told.message) uid) events = some final)
    (inOrder : Meets step InOrder (Handshake.start clock (welcome.map Told.message) uid) events)
    (isTold : serverGiven events = tolds.map Told.message)
    (isSaid : clientGiven events = saids.map Said.message)
    (toClient : ∀ told ∈ welcome ++ tolds, told.message.Framed)
    (toServer : ∀ said ∈ saids, said.message.Framed)
    (listsFirst : EmptyListsFirst (welcome ++ tolds)) :
    (∃ heard, heard <+: saids ∧ ∀ view (server : CustomServer) client,
        final.server.qMessagesIn.map
            (fun msg => CustomServer.outcome (server.onMessage view client msg)) =
          heard.map fun said => CustomServer.outcomeSaid (server.onSaid view client said)) ∧
      ∃ heard, heard <+: welcome ++ tolds ∧
        final.client.qMessagesIn.map readMessage = heard.map fun told => .ok told.received := by
  have given : welcome.map Told.message ++ serverGiven events =
      (welcome ++ tolds).map Told.message := by rw [isTold, List.map_append]
  have framedTold : ∀ msg ∈ welcome.map Told.message ++ serverGiven events, msg.Framed := by
    rw [given]
    intro msg member
    obtain ⟨told, isTold, rfl⟩ := List.mem_map.mp member
    exact toClient told isTold
  have framedSaid : ∀ msg ∈ clientGiven events, msg.Framed := by
    rw [isSaid]
    intro msg member
    obtain ⟨said, isSaid, rfl⟩ := List.mem_map.mp member
    exact toServer said isSaid
  have talks := talks_of_run run inOrder
  obtain ⟨toldMessages, firstTold, pushedTold⟩ := talks.server.heard talks.client framedTold
  obtain ⟨saidMessages, firstSaid, pushedSaid⟩ := talks.client.heard talks.server framedSaid
  rw [given] at firstTold
  rw [isSaid] at firstSaid
  constructor
  · obtain ⟨heard, isFirst, rfl⟩ := List.prefix_map_iff.mp firstSaid
    refine ⟨heard, isFirst, fun view server client => ?_⟩
    rw [pushedSaid, List.map_map]
    exact onMessage_receive view server client [] heard
  · obtain ⟨heard, isFirst, rfl⟩ := List.prefix_map_iff.mp firstTold
    refine ⟨heard, isFirst, ?_⟩
    rw [pushedTold, List.map_map]
    refine (readMessage_receive_iff (.inl rfl) heard).mpr ⟨fun _ _ _ => rfl, ?_⟩
    exact List.Pairwise.sublist isFirst.sublist listsFirst

/-- What a client says: a request and a close, which has no body. -/
def requestAndClose : List Said := [.requestToClient 10001, .closeClient]

/-- The client gets its id, and the server the request and the close. -/
def closeWithoutBody : List (Handshake.Event CustomMsgTypes) :=
  Handshake.byteByByte ++
    [.server .runPosted, .server (.transfer 0 8), .server (.writeDone 0), .server (.transfer 0 4),
      .server (.writeDone 0), .toClient 12, .client (.fill 8), .client .readDone,
      .client (.fill 4), .client .readDone] ++
    requestAndClose.map (fun said => .client (.send said.message)) ++
    [.client .runPosted, .client .runPosted, .client (.transfer 0 8), .client (.writeDone 0),
      .client (.transfer 0 4), .client (.writeDone 0), .client (.transfer 0 8),
      .client (.writeDone 0), .toServer 20, .server (.fill 8), .server .readDone,
      .server (.fill 4), .server .readDone, .server (.fill 8), .server .readDone]

/-- Where the close has arrived. -/
def afterClose : Handshake CustomMsgTypes :=
  (runFrom step (Handshake.start 0x0123456789abcdef
    ([Told.serverAccept 10000].map Told.message) 10000) closeWithoutBody).get (by decide)

/-- The close was pushed with the body of the request, and understood. -/
theorem understood_closeWithoutBody :
    (∃ heard, heard <+: requestAndClose ∧ ∀ view (server : CustomServer) client,
        afterClose.server.qMessagesIn.map
            (fun msg => CustomServer.outcome (server.onMessage view client msg)) =
          heard.map fun said => CustomServer.outcomeSaid (server.onSaid view client said)) ∧
      ∃ heard, heard <+: [Told.serverAccept 10000] ++ [] ∧
        afterClose.client.qMessagesIn.map readMessage = heard.map fun told => .ok told.received :=
  understood_of_run 0x0123456789abcdef 10000 [.serverAccept 10000] [] requestAndClose
    (Option.some_get _).symm (by decide) rfl rfl (by decide) (by decide)
    (List.Pairwise.cons nofun List.Pairwise.nil)

example : afterClose.server.qMessagesIn ≠ requestAndClose.map Said.message := by decide

end Conversation

end NetworkChat
