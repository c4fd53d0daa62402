import NetworkChat.Server.System
import NetworkChat.Connection.Transport

/-!
# What the server passes on

A message that is passed on is written as it was read: its header from `msg.header`, its
body from `msg.body`. The read loop fills both from the stream of the sender, and pushes a
header of size zero together with the body that was read last. So what is given to `Send`
declares its own body exactly when no message of size zero is passed on whose sender has
sent a body before (`keepsFrames_iff`), and then the stream of every client is read as the
messages that were sent to it.

The stream is that of headers and bodies; the validation code is not part of it.
-/

set_option autoImplicit false

namespace NetworkChat

open Foundation

/-! ## Messages that declare their body -/

section Framed

variable {T : Type}

/-- A message that the loop has pushed declares its body exactly when it declares one at
all, or the buffer was empty and no body came before it. -/
theorem framed_iff_of_receive {frames : List (Frame (MessageHeader T))} {buffer : List UInt8}
    {before after : List (Message T)} {msg : Message T}
    (wellFramed : ∀ frame ∈ frames, WellFramed MessageHeader.declared frame)
    (pushed : receive buffer frames = before ++ msg :: after) :
    msg.Framed ↔ 0 < msg.header.size ∨
      (buffer = [] ∧ ∀ earlier ∈ before, earlier.header.size = 0) := by
  induction frames generalizing buffer before with
  | nil =>
      have length := congrArg List.length pushed
      simp [receive] at length
  | cons frame frames ih =>
      rw [List.forall_mem_cons] at wellFramed
      obtain ⟨framed, wellFramed⟩ := wellFramed
      have declares : frame.2 = [] ↔ frame.1.size = 0 := by
        rw [← List.length_eq_zero_iff, framed, ← UInt32.toNat_inj]
        exact Iff.rfl
      have body : (if frame.2 = [] then buffer else frame.2) = [] ↔
          buffer = [] ∧ frame.1.size = 0 := by
        by_cases empty : frame.2 = []
        · rw [if_pos empty]
          exact ⟨fun noBuffer => ⟨noBuffer, declares.mp empty⟩, fun both => both.1⟩
        · rw [if_neg empty]
          exact iff_of_false empty fun both => empty (declares.mpr both.2)
      cases before with
      | nil =>
          obtain ⟨rfl, -⟩ := List.cons.inj pushed
          by_cases empty : frame.2 = []
          · have noSize := declares.mp empty
            simp [Message.Framed, empty, noSize, eq_comm]
          · have sized : 0 < frame.1.size := by
              rw [UInt32.pos_iff_ne_zero]
              exact fun noSize => empty (declares.mpr noSize)
            refine iff_of_true ?_ (.inl sized)
            simp only [Message.Framed, if_neg empty]
            exact framed.symm
      | cons first before =>
          obtain ⟨rfl, rest⟩ := List.cons.inj pushed
          rw [ih wellFramed rest, body, List.forall_mem_cons, and_assoc]

theorem framed_idMsg (type : CustomMsgTypes) (id : UInt32) :
    (CustomServer.idMsg type id).Framed := by
  apply Message.framed_resized
  rw [List.length_append, FixedLayout.length_toBytes]
  change 0 + 4 < 2 ^ 32
  decide

theorem framed_of_serverBuilt {sent : Message CustomMsgTypes}
    (built : CustomServer.ServerBuilt sent) : sent.Framed := by
  cases built with
  | serverAccept id => exact framed_idMsg _ id
  | serverMessage id => exact framed_idMsg _ id
  | requestToClient id => exact framed_idMsg _ id
  | closeClient => rfl

/-- Pushing ids keeps the size assigned from the length of the body. -/
theorem foldl_push_ids (ids : List UInt32) (msg : Message CustomMsgTypes)
    (assigned : msg.header.size = UInt32.ofNat msg.body.length) :
    (ids.foldl Message.push msg).header.size =
        UInt32.ofNat (ids.foldl Message.push msg).body.length ∧
      (ids.foldl Message.push msg).body.length = msg.body.length + 4 * ids.length := by
  induction ids generalizing msg with
  | nil => exact ⟨assigned, rfl⟩
  | cons id ids ih =>
      obtain ⟨size, length⟩ := ih (msg.push id) rfl
      refine ⟨size, ?_⟩
      have four : (toBytes id).length = 4 := FixedLayout.length_toBytes id
      rw [List.foldl_cons, length, Message.push, Message.resized, List.length_append, four,
        List.length_cons]
      omega

/-- The list of the clients declares its body as long as the body's length has 32 bits. -/
theorem framed_listMsg_iff (ids : List UInt32) :
    (CustomServer.listMsg ids).Framed ↔ ids.length < 2 ^ 30 := by
  obtain ⟨size, length⟩ := foldl_push_ids ids (Message.ofType .clientList) rfl
  rw [Message.Framed, CustomServer.listMsg, size, UInt32.toNat_ofNat', length]
  change (0 + 4 * ids.length) % 2 ^ 32 = 0 + 4 * ids.length ↔ _
  omega

end Framed

namespace ChatServer

/-! ## Frames stay whole -/

/-- What is given to `Send` declares its own body, and the stream of every client is read
as messages that were sent to it, all of them when nothing is left to write. -/
structure KeepsFrames (s : ChatServer) : Prop where
  framed : ∀ entry ∈ s.sends, entry.2.Framed
  parses : ∀ client c frames rest, s.connections[client]? = some c →
    Parses MessageHeader.declared (messageBytes c.sent) frames rest →
      frames <+: (messagesOf client s.sends).map Message.frame
  complete : ∀ client c, s.connections[client]? = some c → c.posted = [] → c.qMessagesOut = [] →
    Parses MessageHeader.declared (messageBytes c.sent)
      ((messagesOf client s.sends).map Message.frame) []

/-- The streams follow from the messages. -/
theorem Sound.keepsFrames {s : ChatServer} (sound : Sound s)
    (framed : ∀ entry ∈ s.sends, entry.2.Framed) : KeepsFrames s := by
  have ofClient : ∀ client, ∀ msg ∈ messagesOf client s.sends, msg.Framed := by
    intro client msg member
    obtain ⟨entry, among, same⟩ := List.mem_filterMap.mp member
    split at same
    · cases same
      exact framed entry among
    · cases same
  have positive : 0 < FixedLayout.size (MessageHeader CustomMsgTypes) := by decide
  have whole : ∀ client, Parses MessageHeader.declared (messageStream (messagesOf client s.sends))
      ((messagesOf client s.sends).map Message.frame) [] :=
    fun client => parses_stream positive (wellFramed_of_framed (ofClient client))
  refine ⟨framed, ?_, ?_⟩
  · intro client c frames rest found parse
    obtain ⟨-, written, remaining, splits, -, bytes⟩ := sound.writes client c found
    refine parse.prefix_stable ?_ (whole client)
    rw [splits, messageStream_append, bytes, List.append_assoc]
    exact List.prefix_append _ _
  · intro client c found noLambda noQueue
    obtain ⟨-, written, remaining, splits, chain, bytes⟩ := sound.writes client c found
    rw [noQueue] at chain bytes splits
    rw [noLambda] at splits
    have all := whole client
    generalize c.messageWrites = writes at chain
    cases chain
    simp only [postedMessages, List.filterMap_nil, List.append_nil] at splits bytes
    rwa [splits, bytes, ← splits] at all

/-- The message that `Update` handles next is not passed on with size zero behind a body of
its sender, and no list of 2^30 clients is sent. -/
def RelaysWhole (s : ChatServer) : Event → Prop
  | .update =>
      match s.qMessagesIn with
      | [] => True
      | (client, msg) :: _ =>
          ((CustomServer.relayTarget s.view s.server client msg).isSome = true →
            0 < msg.header.size ∨
              ∀ earlier ∈ messagesOf client s.handled, earlier.header.size = 0) ∧
          (msg.header.id = .clientList → (s.server.getClientList s.view).1.length < 2 ^ 30)
  | _ => True

/-- The next message declares its own body exactly when it declares one at all, or its
sender has sent none before. -/
theorem Sound.framed_iff {s : ChatServer} (sound : Sound s) {client : ConnectionPtr}
    {msg : Message CustomMsgTypes} {later : List Owned}
    (queue : s.qMessagesIn = (client, msg) :: later) :
    msg.Framed ↔ 0 < msg.header.size ∨
      ∀ earlier ∈ messagesOf client s.handled, earlier.header.size = 0 := by
  have known : client < s.connections.length :=
    sound.knownMessages (client, msg) (by rw [queue]; simp)
  have found := List.getElem?_eq_getElem known
  obtain ⟨frames, wellFramed, pushed⟩ := (sound.serves client _ found).receives
  have split : receive [] frames =
      messagesOf client s.handled ++ msg :: messagesOf client later := by
    rw [← pushed, ← sound.queue client _ found, messagesOf_append, queue]
    simp [messagesOf]
  rw [framed_iff_of_receive wellFramed split]
  simp

/-- What `Update` sends declares its body exactly when the step meets the condition. -/
theorem Sound.framed_sends_iff {s : ChatServer} (sound : Sound s) {client : ConnectionPtr}
    {msg : Message CustomMsgTypes} {later : List Owned}
    (queue : s.qMessagesIn = (client, msg) :: later) {server : CustomServer} {calls : List Call}
    (done : s.server.onMessage s.view client msg = .ok (server, calls)) :
    (∀ entry ∈ sendsOf calls, entry.2.Framed) ↔ RelaysWhole s .update := by
  simp only [RelaysWhole, queue]
  constructor
  · intro framed
    constructor
    · intro isRelayed
      obtain ⟨receiver, relays⟩ := Option.isSome_iff_exists.mp isRelayed
      obtain ⟨_, returned, called⟩ := CustomServer.relayTarget_sends relays
      rw [done] at returned
      cases returned
      exact (sound.framed_iff queue).mp (framed (receiver, msg) (mem_sendsOf.mpr called))
    · intro isList
      obtain ⟨_, _, returned, called⟩ :=
        CustomServer.clientList_sends s.view s.server client isList
      rw [done] at returned
      cases returned
      exact (framed_listMsg_iff _).mp (framed (client, _) (mem_sendsOf.mpr called))
  · rintro ⟨relayed, listed⟩ ⟨receiver, sent⟩ member
    cases (CustomServer.onMessage_calls done (mem_sendsOf.mp member)).2 with
    | relayed relays =>
        exact (sound.framed_iff queue).mpr
          (relayed (Option.isSome_iff_exists.mpr ⟨receiver, relays⟩))
    | built _ built => exact framed_of_serverBuilt built
    | listed isList => exact (framed_listMsg_iff _).mpr (listed isList)

/-- An exception sends nothing, and nothing is asked of its message. -/
theorem relaysWhole_of_error {s : ChatServer} {client : ConnectionPtr}
    {msg : Message CustomMsgTypes} {later : List Owned}
    (queue : s.qMessagesIn = (client, msg) :: later) {fault : Fault}
    (failed : s.server.onMessage s.view client msg = .error fault) : RelaysWhole s .update := by
  simp only [RelaysWhole, queue]
  constructor
  · intro isRelayed
    obtain ⟨receiver, relays⟩ := Option.isSome_iff_exists.mp isRelayed
    obtain ⟨_, returned, -⟩ := CustomServer.relayTarget_sends relays
    rw [failed] at returned
    cases returned
  · intro isList
    obtain ⟨_, _, returned, -⟩ :=
      CustomServer.clientList_sends s.view s.server client isList
    rw [failed] at returned
    cases returned

/-- From a state whose frames are whole, a step keeps them exactly if it meets the
condition. -/
theorem Sound.keepsFrames_step_iff {s next : ChatServer} {event : Event} (sound : Sound s)
    (before : KeepsFrames s) (taken : s.step event = some next) :
    KeepsFrames next ↔ RelaysWhole s event := by
  have after := sound.step taken
  have onSends : KeepsFrames next ↔ ∀ entry ∈ next.sends, entry.2.Framed :=
    ⟨fun keeps => keeps.framed, after.keepsFrames⟩
  rw [onSends]
  obtain ⟨-, taken⟩ := step_eq_some taken
  cases event with
  | accept clock =>
      cases taken
      refine iff_of_true ?_ trivial
      intro entry member
      rcases List.mem_append.mp member with old | new
      · exact before.framed entry old
      · rw [List.mem_singleton.mp new]
        exact framed_idMsg _ _
  | io client event =>
      obtain ⟨c, d, -, -, -, rfl⟩ := act_io taken
      exact iff_of_true before.framed trivial
  | update =>
      obtain ⟨client, msg, later, queue, rfl⟩ := act_update taken
      rcases handle_cases s client msg later with ⟨server, calls, done, handled⟩ |
          ⟨fault, failed, ended⟩
      · rw [handled, ← sound.framed_sends_iff queue done]
        simp only [List.mem_append, or_imp, forall_and]
        exact and_iff_right before.framed
      · rw [ended]
        exact iff_of_true before.framed (relaysWhole_of_error queue failed)

/-- **The server keeps all frames whole throughout a run exactly when it passes no message
on with size zero behind a body of its sender**, whatever the peers send. -/
theorem keepsFrames_iff {events : List Event} {final : ChatServer}
    (run : runFrom step start events = some final) :
    Throughout step KeepsFrames start events ↔ Meets step RelaysWhole start events := by
  have keeps : ∀ (s : ChatServer) event next, Sound s → step s event = some next → Sound next :=
    fun _ _ _ sound taken => sound.step taken
  have exact_step : ∀ (s : ChatServer) event next, Sound s → KeepsFrames s → True →
      step s event = some next → (KeepsFrames next ↔ RelaysWhole s event) :=
    fun _ _ _ sound before _ taken => sound.keepsFrames_step_iff before taken
  exact throughout_iff_meets keeps exact_step sound_start
    (sound_start.keepsFrames (by simp [start])) (fun _ _ => trivial) run

instance (s : ChatServer) (event : Event) : Decidable (RelaysWhole s event) := by
  apply Event.casesOn (motive := fun event => Decidable (RelaysWhole s event)) event
  all_goals
    intros
    unfold RelaysWhole
  case update =>
    exact match s.qMessagesIn with
      | [] => instDecidableTrue
      | _ :: _ => inferInstanceAs (Decidable (_ ∧ _))
  all_goals infer_instance

/-- Two clients are accepted, and the first answers its code, asks for the second and sends
a text. -/
def askAndSend (text : List UInt8) : List Event :=
  [.accept 0, .accept 0, .io 0 (.arrive (toBytes (Connection.scramble 0))), .io 0 (.fill 8),
    .io 0 .readDone,
    .io 0 (.arrive (frameBytes (CustomServer.idMsg .requestToClient 10001).frame ++ text)),
    .io 0 (.fill 8), .io 0 .readDone, .io 0 (.fill 4), .io 0 .readDone, .io 0 (.fill 8),
    .io 0 .readDone]

/-- The text as the client writes it. -/
def wholeText : List Event :=
  askAndSend
      (frameBytes ((Message.ofType CustomMsgTypes.textClient).pushString [104, 105]).frame) ++
    [.io 0 (.fill 10), .io 0 .readDone, .update, .update]

theorem keepsFrames_wholeText : Throughout step KeepsFrames start wholeText :=
  (keepsFrames_iff
    (Option.some_get (by decide : (runFrom step start wholeText).isSome = true)).symm).mpr
    (by decide)

/-- The text declares no body. -/
def emptyText : List Event :=
  askAndSend (frameBytes (Message.ofType CustomMsgTypes.textClient).frame) ++ [.update, .update]

/-- The server passes it on with the body of the request. -/
theorem emptyText_gets_body :
    ∃ final, runFrom step start emptyText = some final ∧ ¬ KeepsFrames final := by
  refine ⟨(runFrom step start emptyText).get (by decide), (Option.some_get _).symm, ?_⟩
  intro keeps
  exact absurd keeps.framed (by decide)

end ChatServer

end NetworkChat
