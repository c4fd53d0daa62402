import NetworkChat.Connection.Failing

/-!
# A whole conversation, whatever fails

Both ends of a TCP connection from the accept on. Operations may end with an error at any time, and
either end may disconnect at any time. The network cuts what each end hands over into pieces of any
size; what has not arrived when a socket is closed is lost.

Two things have to come in order (`InOrder`): every handler of a code gets the whole code, and no
lambda of `Send` runs before the own code is handed over. Then, whatever fails, each end pushes what
its loop makes of the first messages that the other was given, in order: none is lost before one
that arrives, none comes twice, and none is made up (`heard_of_run`). Only the last ones can be
missing, and none is while the other end is still up, has nothing left to write, and everything that
it wrote was read (`all_heard`).
-/

set_option autoImplicit false

namespace NetworkChat

open Foundation

namespace Connection

variable {T : Type} [FullLayout T] {given answers : List (Message T)} {received : List UInt8}
  {speaker hearer : Connection T}

/-! ## What was handed over -/

/-- What was handed over of messages begins the frames of what was given. -/
theorem WriteInvariant.messageBytes_prefix (writes : WriteInvariant given speaker) :
    messageBytes speaker.sent <+: messageStream given := by
  obtain ⟨-, written, remaining, splits, -, bytes⟩ := writes
  rw [splits, messageStream_append, bytes, List.append_assoc]
  exact List.prefix_append _ _

/-- An end that is up and writes nothing has handed over everything that it was given. -/
theorem WriteInvariant.all_written (writes : WriteInvariant given speaker) (up : ¬ speaker.Down)
    (noLambda : speaker.posted = []) (noWrite : speaker.writing = []) :
    messageBytes speaker.sent = messageStream given := by
  obtain ⟨-, written, remaining, splits, chain, bytes⟩ := writes
  rw [messageWrites, noWrite, List.filter_nil] at chain
  rw [noLambda] at splits
  cases queue : speaker.qMessagesOut with
  | nil =>
      rw [queue] at chain bytes splits
      cases chain
      simp only [splits, postedMessages, List.filterMap_nil, List.append_nil] at bytes ⊢
      exact bytes.symm
  | cons msg later =>
      rw [queue] at chain
      cases chain with
      | failed _ _ _ isDown => exact absurd isDown up

omit [FullLayout T] in
/-- Behind the eight bytes of the code, an end receives bytes of messages. -/
theorem Speaks.stream_of_received (speaks : Speaks speaker) {code stream : List UInt8} {count : ℕ}
    (length : code.length = FixedLayout.size UInt64)
    (split : (Handshake.handedOver speaker).take count = code ++ stream) :
    stream <+: messageBytes speaker.sent ∧
      (speaker.sent.length ≤ count → stream = messageBytes speaker.sent) := by
  obtain ⟨ownCode, short, sent, cut⟩ := speaks.split
  have begins : code ++ stream <+: ownCode ++ messageBytes speaker.sent := by
    rw [← split, ← sent]
    exact List.take_prefix _ _
  have whole : ownCode.length = code.length := by
    refine le_antisymm (short.trans length.ge) ?_
    by_contra shorter
    have nothing := cut (by omega)
    rw [nothing, List.append_nil] at begins
    have bound := begins.length_le
    rw [List.length_append] at bound
    omega
  obtain ⟨more, all⟩ := begins
  rw [List.append_assoc] at all
  obtain ⟨-, behind⟩ := List.append_inj all whole.symm
  refine ⟨⟨more, behind⟩, fun enough => ?_⟩
  rw [List.take_of_length_le (by rwa [Handshake.length_handedOver]), Handshake.handedOver, sent]
    at split
  exact (List.append_inj_right split whole).symm

/-! ## What was heard -/

/-- **An end has pushed what its loop makes of the first messages that the other was given.** -/
theorem End.heard {count : ℕ} (speaking : End given received speaker)
    (hearing : End answers ((Handshake.handedOver speaker).take count) hearer)
    (framed : ∀ msg ∈ given, msg.Framed) :
    ∃ heard, heard <+: given ∧ hearer.qMessagesIn = receive [] (heard.map Message.frame) := by
  have nothing : Untouched hearer →
      ∃ heard, heard <+: given ∧ hearer.qMessagesIn = receive [] (heard.map Message.frame) :=
    fun untouched => ⟨[], List.nil_prefix, untouched.2⟩
  cases hearing.hears with
  | awaiting _ _ untouched => exact nothing untouched
  | replying _ _ _ _ _ _ untouched => exact nothing untouched
  | deaf _ _ untouched => exact nothing untouched
  | looping code stream length split reads =>
      obtain ⟨-, frames, wellFramed, pushed, phase⟩ := reads
      obtain ⟨rest, stands⟩ : ∃ rest, stream = streamOf frames ++ rest := by
        cases phase <;> exact ⟨_, rfl⟩
      obtain ⟨more, all⟩ := (speaking.speaks.stream_of_received length split).1.trans
        speaking.writes.messageBytes_prefix
      have positive : 0 < FixedLayout.size (MessageHeader T) := Nat.succ_pos _
      have same : streamOf frames ++ (rest ++ more) =
          streamOf (given.map Message.frame) ++ [] := by
        rw [List.append_nil, ← List.append_assoc, ← stands]
        exact all
      have begins : frames <+: given.map Message.frame :=
        frames_prefix wellFramed (wellFramed_of_framed framed) (incomplete_nil positive) same
      obtain ⟨heard, isPrefix, rfl⟩ := List.prefix_map_iff.mp begins
      exact ⟨heard, isPrefix, pushed⟩

/-- **Nothing is missing** of what an end was given that is up and has nothing left to write, once
the other waits for a header and everything written was read. -/
theorem End.heard_whole {count : ℕ} (speaking : End given received speaker)
    (hearing : End answers ((Handshake.handedOver speaker).take count) hearer)
    (framed : ∀ msg ∈ given, msg.Framed) (up : ¬ speaker.Down) (noLambda : speaker.posted = [])
    (noWrite : speaker.writing = []) (arrived : speaker.sent.length ≤ count)
    (waits : hearer.reading = some ⟨.header, none⟩) (allRead : hearer.inbox = []) :
    hearer.qMessagesIn = receive [] (given.map Message.frame) := by
  cases hearing.hears with
  | awaiting awaits =>
      rcases awaits with connecting | ⟨data, reading⟩
      · exact absurd (waits.symm.trans (hearing.ordered.connecting connecting)) (by simp)
      · rw [waits] at reading
        cases reading
  | replying _ _ stopped => rw [waits] at stopped; cases stopped
  | deaf _ stopped => rw [waits] at stopped; cases stopped
  | looping code stream length split reads =>
      obtain ⟨-, frames, wellFramed, pushed, phase⟩ := reads
      cases phase with
      | header data reading filled buffer =>
          have unread : hearer.unread = [] := by rw [Connection.unread, waits, allRead]; rfl
          have whole := (speaking.speaks.stream_of_received length split).2 arrived
          rw [unread, speaking.writes.all_written up noLambda noWrite] at whole
          have positive : 0 < FixedLayout.size (MessageHeader T) := Nat.succ_pos _
          have parses : Parses MessageHeader.declared (messageStream given) frames [] :=
            ⟨wellFramed, whole.symm, incomplete_nil positive⟩
          have same := (parses.unique (parses_stream positive (wellFramed_of_framed framed))).1
          rw [pushed, same]
      | body data reading => rw [waits] at reading; cases reading
      | ended rest reading => rw [waits] at reading; cases reading

end Connection

/-! ## The conversation -/

namespace Conversation

open Connection

variable {T : Type} [FullLayout T]

/-- A step of an end. What arrives comes from the other end. -/
def endStep (c : Connection T) (event : IoEvent T) : Option (Connection T) :=
  if Link.isArrival event = false then c.step event else none

/-- One step. -/
def step (h : Handshake T) : Handshake.Event T → Option (Handshake T)
  | .server event => (endStep h.server event).map fun server => { h with server }
  | .client event => (endStep h.client event).map fun client => { h with client }
  | .toClient count => h.step (.toClient count)
  | .toServer count => h.step (.toServer count)

/-- An end gets the whole code of the other, and sends its own before any message. -/
def InOrder (h : Handshake T) : Handshake.Event T → Prop
  | .server event => Orderly h.server event
  | .client event => Orderly h.client event
  | .toClient _ => True
  | .toServer _ => True

instance decidableInOrder (h : Handshake T) : ∀ event, Decidable (InOrder h event)
  | .server event => inferInstanceAs (Decidable (Orderly h.server event))
  | .client event => inferInstanceAs (Decidable (Orderly h.client event))
  | .toClient _ => .isTrue trivial
  | .toServer _ => .isTrue trivial

/-- The messages given to `Send` of the server's end, in order. -/
def serverGiven (events : List (Handshake.Event T)) : List (Message T) :=
  events.flatMap fun event => match event with
    | .server event => event.given
    | _ => []

/-- The messages given to `Send` of the client's end, in order. -/
def clientGiven (events : List (Handshake.Event T)) : List (Message T) :=
  events.flatMap fun event => match event with
    | .client event => event.given
    | _ => []

/-- What the two ends keep that were given these messages. -/
structure Talks (toClient toServer : List (Message T)) (h : Handshake T) : Prop where
  server : End toClient h.atServer h.server
  client : End toServer h.atClient h.client
  atClient : h.toClient ≤ h.server.sent.length
  atServer : h.toServer ≤ h.client.sent.length

theorem talks_start [Inhabited T] (clock : UInt64) (welcome : List (Message T)) (uid : UInt32) :
    Talks welcome [] (Handshake.start clock welcome uid) :=
  ⟨end_accept clock welcome uid, end_connect, Nat.zero_le _, Nat.zero_le _⟩

theorem endStep_eq_some {c d : Connection T} {event : IoEvent T}
    (taken : endStep c event = some d) :
    event.arrived = [] ∧ c.step event = some d := by
  simp only [endStep] at taken
  split at taken
  case isTrue allowed => exact ⟨Link.arrived_eq_nil allowed, taken⟩
  case isFalse => cases taken

/-- A step of an end keeps the end, and what it handed over is only added to. -/
theorem end_endStep {given : List (Message T)} {received : List UInt8} {c d : Connection T}
    {event : IoEvent T} (whole : End given received c) (orderly : Orderly c event)
    (taken : endStep c event = some d) :
    End (given ++ event.given) received d ∧ ∃ more, d.sent = c.sent ++ more := by
  obtain ⟨noBytes, moved⟩ := endStep_eq_some taken
  have next := whole.step orderly moved
  rw [noBytes, List.append_nil] at next
  exact ⟨next, exists_sent_of_act (step_eq_some moved).2⟩

/-- Bytes of the other end arrive. -/
theorem end_arrive {given : List (Message T)} {c d : Connection T} {arrived : List UInt8}
    {start count : ℕ} (whole : End given (arrived.take start) c)
    (taken : c.step (.arrive ((arrived.drop start).take count)) = some d) :
    End given (arrived.take (start + count)) d := by
  have orderly : Orderly c (.arrive ((arrived.drop start).take count)) := ⟨trivial, trivial⟩
  have next := whole.step orderly taken
  rw [List.take_add]
  simpa [IoEvent.given, IoEvent.arrived] using next

/-- **Every step that comes in order keeps both ends.** -/
theorem Talks.step {toClient toServer : List (Message T)} {h next : Handshake T}
    {event : Handshake.Event T} (talks : Talks toClient toServer h) (inOrder : InOrder h event)
    (taken : Conversation.step h event = some next) :
    Talks (toClient ++ serverGiven [event]) (toServer ++ clientGiven [event]) next := by
  cases event with
  | server event =>
      obtain ⟨server, moved, rfl⟩ := Option.map_eq_some_iff.mp taken
      obtain ⟨kept, sent⟩ := end_endStep talks.server inOrder moved
      have given : serverGiven [.server event] = event.given := List.append_nil _
      refine ⟨given ▸ kept, ?_, ?_, talks.atServer⟩
      · have same := Handshake.take_handedOver talks.atClient sent
        simpa only [clientGiven, List.flatMap_cons, List.flatMap_nil, List.append_nil,
          Handshake.atClient, same] using talks.client
      · obtain ⟨more, sent⟩ := sent
        rw [sent, List.length_append]
        exact talks.atClient.trans (Nat.le_add_right _ _)
  | client event =>
      obtain ⟨client, moved, rfl⟩ := Option.map_eq_some_iff.mp taken
      obtain ⟨kept, sent⟩ := end_endStep talks.client inOrder moved
      have given : clientGiven [.client event] = event.given := List.append_nil _
      refine ⟨?_, given ▸ kept, talks.atClient, ?_⟩
      · have same := Handshake.take_handedOver talks.atServer sent
        simpa only [serverGiven, List.flatMap_cons, List.flatMap_nil, List.append_nil,
          Handshake.atServer, same] using talks.server
      · obtain ⟨more, sent⟩ := sent
        rw [sent, List.length_append]
        exact talks.atServer.trans (Nat.le_add_right _ _)
  | toClient count =>
      simp only [Conversation.step, Handshake.step] at taken
      split at taken
      case isTrue allowed =>
        obtain ⟨client, moved, rfl⟩ := Option.map_eq_some_iff.mp taken
        have kept := end_arrive talks.client moved
        obtain ⟨-, rfl⟩ := act_arrive (step_eq_some moved).2
        simp only [serverGiven, clientGiven, List.flatMap_cons, List.flatMap_nil, List.append_nil]
        exact ⟨talks.server, kept, allowed.2, talks.atServer⟩
      case isFalse => cases taken
  | toServer count =>
      simp only [Conversation.step, Handshake.step] at taken
      split at taken
      case isTrue allowed =>
        obtain ⟨server, moved, rfl⟩ := Option.map_eq_some_iff.mp taken
        have kept := end_arrive talks.server moved
        obtain ⟨-, rfl⟩ := act_arrive (step_eq_some moved).2
        simp only [serverGiven, clientGiven, List.flatMap_cons, List.flatMap_nil, List.append_nil]
        exact ⟨kept, talks.client, talks.atClient, allowed.2⟩
      case isFalse => cases taken

/-- **Every run that comes in order keeps both ends.** -/
theorem talks_of_run [Inhabited T] {clock : UInt64} {welcome : List (Message T)} {uid : UInt32}
    {events : List (Handshake.Event T)} {final : Handshake T}
    (run : runFrom step (Handshake.start clock welcome uid) events = some final)
    (inOrder : Meets step InOrder (Handshake.start clock welcome uid) events) :
    Talks (welcome ++ serverGiven events) (clientGiven events) final := by
  let talk (past : List (Handshake.Event T)) (h : Handshake T) : Prop :=
    Talks (welcome ++ serverGiven past) (clientGiven past) h
  have keeps : ∀ past h event next, talk past h → InOrder h event → step h event = some next →
      talk (past ++ [event]) next := by
    intro past h event next talks inOrder taken
    have kept := talks.step inOrder taken
    simpa only [talk, serverGiven, clientGiven, List.flatMap_append, List.append_assoc] using kept
  have initially : talk [] (Handshake.start clock welcome uid) := by
    have nothing : welcome ++ serverGiven ([] : List (Handshake.Event T)) = welcome :=
      List.append_nil _
    simp only [talk, nothing]
    exact talks_start clock welcome uid
  exact history_invariant_of_meeting_run keeps initially inOrder run

/-- What an end has pushed that was to get these messages: what its loop makes of the first of
them. -/
def Heard (given pushed : List (Message T)) : Prop :=
  ∃ heard, heard <+: given ∧ pushed = receive [] (heard.map Message.frame)

omit [FullLayout T] in
/-- Where no empty body comes after a body, the messages that were heard are those given. -/
theorem Heard.prefix_of_emptyBodiesFirst {given pushed : List (Message T)}
    (heard : Heard given pushed) (inOrder : EmptyBodiesFirst given) : pushed <+: given := by
  obtain ⟨first, isPrefix, rfl⟩ := heard
  have among : EmptyBodiesFirst first := List.Pairwise.sublist isPrefix.sublist inOrder
  rwa [(receive_eq_iff first).mpr among]

/-- **Whatever fails, each end hears the first messages that the other was given**, in order, from
those that were given before the handshake on, if the handshake comes in order. -/
theorem heard_of_run [Inhabited T] (clock : UInt64) (welcome : List (Message T)) (uid : UInt32)
    {events : List (Handshake.Event T)} {final : Handshake T}
    (run : runFrom step (Handshake.start clock welcome uid) events = some final)
    (inOrder : Meets step InOrder (Handshake.start clock welcome uid) events)
    (toClient : ∀ msg ∈ welcome ++ serverGiven events, msg.Framed)
    (toServer : ∀ msg ∈ clientGiven events, msg.Framed) :
    Heard (welcome ++ serverGiven events) final.client.qMessagesIn ∧
      Heard (clientGiven events) final.server.qMessagesIn := by
  have talks := talks_of_run run inOrder
  exact ⟨talks.server.heard talks.client toClient, talks.client.heard talks.server toServer⟩

/-- The speaker is up and has nothing left to write, and the hearer has read all of it. -/
structure Settled (speaker hearer : Connection T) (arrived : ℕ) : Prop where
  up : ¬ speaker.Down
  noLambda : speaker.posted = []
  noWrite : speaker.writing = []
  arrived : speaker.sent.length ≤ arrived
  waits : hearer.reading = some ⟨.header, none⟩
  allRead : hearer.inbox = []

omit [FullLayout T] in
theorem settled_iff {speaker hearer : Connection T} {arrived : ℕ} :
    Settled speaker hearer arrived ↔ (speaker.isOpen = true ∨ speaker.connecting = true) ∧
      speaker.posted = [] ∧ speaker.writing = [] ∧ speaker.sent.length ≤ arrived ∧
        hearer.reading = some ⟨.header, none⟩ ∧ hearer.inbox = [] := by
  have isUp : (speaker.isOpen = true ∨ speaker.connecting = true) ↔ ¬ speaker.Down := by
    simp only [Connection.Down, not_and_or, Bool.not_eq_false]
  rw [isUp]
  constructor
  · rintro ⟨up, noLambda, noWrite, arrived, waits, allRead⟩
    exact ⟨up, noLambda, noWrite, arrived, waits, allRead⟩
  · rintro ⟨up, noLambda, noWrite, arrived, waits, allRead⟩
    exact ⟨up, noLambda, noWrite, arrived, waits, allRead⟩

instance decidableSettled (speaker hearer : Connection T) (arrived : ℕ) :
    Decidable (Settled speaker hearer arrived) :=
  decidable_of_iff' _ settled_iff

/-- **Nothing is missing where a direction is settled**, whatever has failed in the other: the end
has pushed what its loop makes of everything that the other was given. -/
theorem all_heard [Inhabited T] (clock : UInt64) (welcome : List (Message T)) (uid : UInt32)
    {events : List (Handshake.Event T)} {final : Handshake T}
    (run : runFrom step (Handshake.start clock welcome uid) events = some final)
    (inOrder : Meets step InOrder (Handshake.start clock welcome uid) events)
    (toClient : ∀ msg ∈ welcome ++ serverGiven events, msg.Framed)
    (toServer : ∀ msg ∈ clientGiven events, msg.Framed) :
    (Settled final.server final.client final.toClient →
        final.client.qMessagesIn =
          receive [] ((welcome ++ serverGiven events).map Message.frame)) ∧
      (Settled final.client final.server final.toServer →
        final.server.qMessagesIn = receive [] ((clientGiven events).map Message.frame)) := by
  have talks := talks_of_run run inOrder
  constructor
  · intro settled
    exact talks.server.heard_whole talks.client toClient settled.up settled.noLambda settled.noWrite
      settled.arrived settled.waits settled.allRead
  · intro settled
    exact talks.client.heard_whole talks.server toServer settled.up settled.noLambda settled.noWrite
      settled.arrived settled.waits settled.allRead

/-- A text with a body of four bytes. -/
def text (byte : UInt32) : Message CustomMsgTypes := (Message.ofType .textClient).push byte

/-- After the handshake the server's welcome and the first text of the client go over whole. The
client's second text is cut off in its header. -/
def secondCutOff : List (Handshake.Event CustomMsgTypes) :=
  Handshake.byteByByte ++
    [.server .runPosted, .server (.transfer 0 8), .server (.writeDone 0), .server (.transfer 0 4),
      .server (.writeDone 0), .toClient 12, .client (.fill 8), .client .readDone,
      .client (.fill 4), .client .readDone, .client (.send (text 1)), .client (.send (text 2)),
      .client .runPosted, .client .runPosted, .client (.transfer 0 8), .client (.writeDone 0),
      .client (.transfer 0 4), .client (.writeDone 0), .client (.transfer 0 3),
      .client (.writeFail 0), .toServer 15, .server (.fill 8), .server .readDone,
      .server (.fill 4), .server .readDone]

/-- Where the second text was cut off. -/
def afterCutOff : Handshake CustomMsgTypes :=
  (runFrom step (Handshake.start 0x0123456789abcdef [text 0] 10000) secondCutOff).get (by decide)

theorem run_secondCutOff :
    runFrom step (Handshake.start 0x0123456789abcdef [text 0] 10000) secondCutOff =
      some afterCutOff :=
  (Option.some_get _).symm

theorem heard_secondCutOff :
    Heard [text 0] afterCutOff.client.qMessagesIn ∧
      Heard [text 1, text 2] afterCutOff.server.qMessagesIn :=
  heard_of_run 0x0123456789abcdef [text 0] 10000 run_secondCutOff (by decide) (by decide)
    (by decide)

/-- The client has heard the whole of the server, and the server the first text. -/
theorem all_heard_secondCutOff :
    afterCutOff.client.qMessagesIn = [text 0] ∧ afterCutOff.server.qMessagesIn = [text 1] := by
  refine ⟨?_, by decide⟩
  refine ((all_heard 0x0123456789abcdef [text 0] 10000 run_secondCutOff (by decide) (by decide)
    (by decide)).1 ?_).trans (by decide)
  exact ⟨fun isDown => absurd isDown.1 (by decide), by decide, by decide, by decide, by decide,
    by decide⟩

/-- The client gets half of the code, and goes on to its loop. -/
def shortRead : List (Handshake.Event CustomMsgTypes) :=
  [.client .socketOpened, .client .connected, .server (.transfer 0 8), .server (.writeDone 0),
    .server .runPosted, .server (.transfer 0 8), .server (.writeDone 0), .toClient 12,
    .client (.fill 4), .client .readDone, .client (.transfer 0 8), .client (.writeDone 0),
    .client (.fill 8), .client .readDone]

/-- The welcome of the server. -/
def welcome : Message CustomMsgTypes := (Message.ofType .serverAccept).push (10000 : UInt32)

/-- Out of order the client takes the rest of the code for a header, and pushes a message that
nobody has sent. -/
theorem not_heard_shortRead :
    ∃ final, runFrom step (Handshake.start 0x0123456789abcdef [welcome] 10000) shortRead =
      some final ∧ ¬ Heard [welcome] final.client.qMessagesIn := by
  refine ⟨(runFrom step (Handshake.start 0x0123456789abcdef [welcome] 10000) shortRead).get
    (by decide), (Option.some_get _).symm, ?_⟩
  rintro ⟨heard, isFirst, pushed⟩
  rcases List.prefix_cons_iff.mp isFirst with rfl | ⟨later, rfl, isLast⟩
  · exact absurd pushed (by decide)
  · cases List.prefix_nil.mp isLast
    exact absurd pushed (by decide)

end Conversation

end NetworkChat
