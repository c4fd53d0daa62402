import NetworkChat.Connection.Handshaking

/-!
# What is pushed, by the bytes delivered

The log of a run keeps the bytes that the completion handlers of reads are given. A read that
fails has received some bytes of the stream, fewer than it asked for; how many is free
(`cut`).

`Delivers` says that the bytes delivered are the frames pushed and an incomplete frame, at
every moment of a run and whatever the pieces are in which the stream arrives. So the messages
pushed are a function of the bytes delivered, and those of a prefix are a prefix
(`pushed_by_delivered`). After a read that failed nothing is read any more (`Ended.run`).
-/

set_option autoImplicit false

namespace NetworkChat

open Foundation

namespace Connection

variable {T : Type}

/-- The loop has just started: it waits for the first header. -/
structure LoopStarts (c : Connection T) : Prop where
  isOver : HandshakeOver c
  untouched : Untouched c
  reading : c.reading = some ⟨.header, none⟩

variable [FullLayout T]

theorem size_messageHeader_pos : 0 < FixedLayout.size (MessageHeader T) :=
  Nat.lt_of_lt_of_le (by decide : 0 < FixedLayout.size UInt32) (Nat.le_add_left _ _)

/-- How many bytes the outstanding read of the loop asks for. -/
def asked (c : Connection T) : ℕ :=
  match c.reading with
  | some ⟨.header, _⟩ => FixedLayout.size (MessageHeader T)
  | some ⟨.body, _⟩ => c.msgBuff.body.length
  | some ⟨.validation, _⟩ => FixedLayout.size UInt64
  | none => 0

/-- The bytes that the outstanding read has received when it ends early. -/
def partialRead (cut : ℕ) (c : Connection T) : List UInt8 := c.unread.take (min cut (c.asked - 1))

/-- The bytes that a step delivers to a handler. -/
def delivered (cut : ℕ) (c : Connection T) : IoEvent T → List UInt8
  | .readDone => (c.reading.bind ReadOp.data).getD []
  | .readFail => c.partialRead cut
  | _ => []

/-- The bytes delivered are the frames that were pushed and an incomplete frame: the loop has
handled the frames and perhaps a header, or a read that failed has ended it. -/
inductive Delivers (stream log : List UInt8) (c : Connection T) : Prop where
  | loops (reads : Reads stream c) (splits : stream = log ++ c.unread)
      (looping : c.reading.isSome = true)
  | ended (frames : List (Frame (MessageHeader T))) (rest : List UInt8) (isOver : HandshakeOver c)
      (reading : c.reading = none) (parse : Parses MessageHeader.declared log frames rest)
      (pushed : c.qMessagesIn = receive [] frames) (isPrefix : log <+: stream)

theorem LoopStarts.delivers {c : Connection T} (starts : LoopStarts c) : Delivers c.inbox [] c := by
  have unread : c.unread = c.inbox := by rw [Connection.unread, starts.reading]; rfl
  refine .loops ⟨starts.isOver, [], by simp, starts.untouched.2, ?_⟩ ?_ ?_
  · rw [← unread]
    exact .header [] none starts.reading (by simp) starts.untouched.1
  · rw [unread, List.nil_append]
  · rw [starts.reading]
    rfl

/-- What was handled and a part of the outstanding read are the frames pushed and an incomplete
one. -/
theorem Reads.parses {stream log : List UInt8} {c : Connection T} (reads : Reads stream c)
    (splits : stream = log ++ c.unread) (looping : c.reading.isSome = true) (cut : ℕ) :
    ∃ frames rest, Parses MessageHeader.declared (log ++ c.partialRead cut) frames rest ∧
      c.qMessagesIn = receive [] frames := by
  obtain ⟨-, frames, wellFramed, pushed, phase⟩ := reads
  cases phase with
  | header data reading =>
      have handled : log = streamOf frames := (List.append_cancel_right splits).symm
      have short : (c.partialRead cut).length < FixedLayout.size (MessageHeader T) := by
        have positive : 0 < FixedLayout.size (MessageHeader T) := size_messageHeader_pos
        simp only [partialRead, asked, reading, List.length_take]
        omega
      exact ⟨frames, c.partialRead cut, ⟨wellFramed, by rw [handled], .inl short⟩, pushed⟩
  | body data reading filled nonempty resized =>
      have handled : log = streamOf frames ++ toBytes c.msgBuff.header := by
        rw [← List.append_assoc] at splits
        exact (List.append_cancel_right splits).symm
      have short : (c.partialRead cut).length < c.msgBuff.header.declared := by
        simp only [partialRead, asked, reading, List.length_take, resized]
        omega
      refine ⟨frames, toBytes c.msgBuff.header ++ c.partialRead cut, ⟨wellFramed, ?_, .inr ?_⟩,
        pushed⟩
      · rw [handled, List.append_assoc]
      · rw [List.take_left' (FixedLayout.length_toBytes _), FixedLayout.ofBytes_toBytes,
          List.length_append, FixedLayout.length_toBytes]
        omega
  | ended rest reading => rw [reading] at looping; cases looping

/-- What a step delivers was unread. -/
theorem partialRead_unread (cut : ℕ) (c : Connection T) : c.partialRead cut <+: c.unread :=
  List.take_prefix _ _

/-- The handler of a filled read is given its bytes and starts the next read. -/
theorem Reads.deliver {stream log : List UInt8} {c : Connection T} {kind : ReadKind}
    {bytes : List UInt8} (reads : Reads stream c) (splits : stream = log ++ c.unread)
    (full : c.reading = some ⟨kind, some bytes⟩) :
    Delivers stream (log ++ bytes) ({ c with reading := none }.readDone kind bytes) := by
  have next := reads.readDone full
  have unread : c.unread = bytes ++ c.inbox := by rw [Connection.unread, full]; rfl
  have left : ({ c with reading := none }.readDone kind bytes).unread = c.inbox ∧
      ({ c with reading := none }.readDone kind bytes).reading.isSome = true := by
    cases kind with
    | validation =>
        obtain ⟨-, frames, -, -, phase⟩ := reads
        cases phase with
        | header data reading => cases full.symm.trans reading
        | body data reading => cases full.symm.trans reading
        | ended rest reading => cases full.symm.trans reading
    | body => exact ⟨rfl, rfl⟩
    | header =>
        simp only [Connection.readDone, Connection.headerRead]
        split <;> exact ⟨rfl, rfl⟩
  refine .loops next ?_ left.2
  rw [left.1, splits, unread, List.append_assoc]

/-- **Every step keeps the account of the bytes delivered.** -/
theorem Delivers.step {stream log : List UInt8} {c d : Connection T} {event : IoEvent T}
    (delivers : Delivers stream log c) (cut : ℕ) (taken : c.step event = some d) :
    Delivers (stream ++ event.arrived) (log ++ c.delivered cut event) d := by
  obtain ⟨-, acted⟩ := step_eq_some taken
  cases delivers with
  | loops reads splits looping =>
      have kept : SameReads c d → event.arrived = [] → c.delivered cut event = [] →
          Delivers (stream ++ event.arrived) (log ++ c.delivered cut event) d := by
        intro same noPiece nothing
        rw [noPiece, nothing, List.append_nil, List.append_nil]
        refine .loops (reads.congr same) ?_ (by rw [same.reading]; exact looping)
        rw [splits, Connection.unread, Connection.unread, same.reading, same.inbox]
      cases event with
      | arrive piece =>
          obtain ⟨-, rfl⟩ := act_arrive acted
          refine .loops (reads.arrive piece) ?_ looping
          simp [IoEvent.arrived, Connection.delivered, splits, Connection.unread]
      | fill count =>
          obtain ⟨kind, pending, -, may, within, rfl⟩ := act_fill acted
          simp only [IoEvent.arrived, Connection.delivered, List.append_nil]
          refine .loops (reads.fill pending may within) ?_ rfl
          simp [splits, Connection.unread, pending]
      | readDone =>
          obtain ⟨kind, bytes, full, rfl⟩ := act_readDone acted
          have given : c.delivered cut .readDone = bytes := by
            simp only [Connection.delivered, full]
            rfl
          have nothing : (IoEvent.readDone : IoEvent T).arrived = [] := rfl
          rw [given, nothing, List.append_nil]
          exact reads.deliver splits full
      | readFail =>
          obtain ⟨kind, -, rfl⟩ := act_readFail acted
          obtain ⟨frames, rest, parse, pushed⟩ := reads.parses splits looping cut
          refine .ended frames rest ⟨rfl, reads.isOver.replied⟩ rfl parse pushed ?_
          rw [splits, List.append_assoc]
          exact (List.prefix_append_right_inj log).mpr
            ((partialRead_unread cut c).trans (List.prefix_append _ _))
      | _ => exact kept (SameReads.of_act reads.isOver acted not_false) rfl rfl
  | ended frames rest isOver reading parse pushed isPrefix =>
      have kept : SameReads c d → c.delivered cut event = [] →
          Delivers (stream ++ event.arrived) (log ++ c.delivered cut event) d := by
        intro same nothing
        rw [nothing, List.append_nil]
        exact .ended frames rest (isOver.congr same.ownerType same.connecting same.writes)
          (same.reading.trans reading) parse (same.queue.trans pushed)
          (isPrefix.trans (List.prefix_append _ _))
      cases event with
      | arrive piece =>
          obtain ⟨-, rfl⟩ := act_arrive acted
          have nothing : c.delivered cut (.arrive piece) = [] := rfl
          rw [nothing, List.append_nil]
          exact .ended frames rest ⟨isOver.connected, isOver.replied⟩ reading parse pushed
            (isPrefix.trans (List.prefix_append _ _))
      | fill count => obtain ⟨kind, pending, -⟩ := act_fill acted; cases reading.symm.trans pending
      | readDone =>
          obtain ⟨kind, bytes, full, -⟩ := act_readDone acted
          cases reading.symm.trans full
      | readFail =>
          obtain ⟨kind, pending, -⟩ := act_readFail acted
          cases reading.symm.trans pending
      | _ => exact kept (SameReads.of_act isOver acted not_false) rfl

/-- At every moment the bytes delivered are bytes of the stream, and the frames pushed and an
incomplete one. -/
theorem Delivers.parses {stream log : List UInt8} {c : Connection T}
    (delivers : Delivers stream log c) (cut : ℕ) :
    log ++ c.partialRead cut <+: stream ∧
      ∃ frames rest, Parses MessageHeader.declared (log ++ c.partialRead cut) frames rest ∧
        c.qMessagesIn = receive [] frames := by
  cases delivers with
  | loops reads splits looping =>
      refine ⟨?_, reads.parses splits looping cut⟩
      rw [splits]
      exact (List.prefix_append_right_inj log).mpr (partialRead_unread cut c)
  | ended frames rest isOver reading parse pushed isPrefix =>
      have nothing : c.partialRead cut = [] := by simp [partialRead, asked, reading]
      rw [nothing, List.append_nil]
      exact ⟨isPrefix, frames, rest, parse, pushed⟩

theorem delivers_of_run {start c : Connection T} {events : List (IoEvent T)} {log : List UInt8}
    (starts : LoopStarts start) (cut : ℕ)
    (run : runFrom (logged Connection.step (delivered cut)) (start, []) events = some (c, log)) :
    Delivers (start.inbox ++ events.flatMap IoEvent.arrived) log c := by
  let holds (past : List (IoEvent T)) (state : Connection T × List UInt8) : Prop :=
    Delivers (start.inbox ++ past.flatMap IoEvent.arrived) state.2 state.1
  have keeps : ∀ past state event next, holds past state →
      logged Connection.step (delivered cut) state event = some next →
        holds (past ++ [event]) next := by
    intro past state event next before taken
    obtain ⟨moved, noted⟩ := logged_eq_some taken
    have after := before.step cut moved
    rw [← noted, List.append_assoc] at after
    simpa only [holds, List.flatMap_append, List.flatMap_singleton] using after
  have initially : holds [] (start, []) := by
    simpa only [holds, List.flatMap_nil, List.append_nil] using starts.delivers
  exact history_invariant_of_run keeps initially run

/-- **What is pushed for a prefix of the bytes is a prefix.** -/
theorem Delivers.prefix_stable {stream other log more : List UInt8} {c d : Connection T}
    {cut after : ℕ} (first : Delivers stream log c) (second : Delivers other more d)
    (isPrefix : log ++ c.partialRead cut <+: more ++ d.partialRead after) :
    c.qMessagesIn <+: d.qMessagesIn := by
  obtain ⟨-, frames, rest, parse, pushed⟩ := first.parses cut
  obtain ⟨-, others, left, otherParse, otherPushed⟩ := second.parses after
  obtain ⟨behind, rfl⟩ := parse.prefix_stable isPrefix otherParse
  rw [pushed, otherPushed, receive_append]
  exact List.prefix_append _ _

/-! ## After a read that failed -/

/-- The loop has ended, and the socket is closed. -/
structure Ended (c : Connection T) : Prop where
  isOver : HandshakeOver c
  reading : c.reading = none
  isClosed : c.isOpen = false

/-- A socket that is not being connected is not opened. -/
theorem isClosed_of_act {c d : Connection T} {event : IoEvent T} (connected : c.connecting = false)
    (isClosed : c.isOpen = false) (acted : c.act event = some d) : d.isOpen = false := by
  have notConnecting : ¬ c.connecting = true := by simp [connected]
  cases event with
  | send msg => cases acted; exact isClosed
  | disconnect =>
      cases acted
      simp only [disconnect]
      split <;> exact isClosed
  | socketOpened => exact absurd (act_socketOpened acted).1 notConnecting
  | connected => exact absurd (act_connected acted).1 notConnecting
  | connectFailed => exact absurd (act_connectFailed acted).1 notConnecting
  | runPosted =>
      obtain ⟨lambda, rest, -, rfl⟩ := act_runPosted acted
      cases lambda with
      | close => rfl
      | send msg =>
          obtain ⟨queue, writing, fault, -, same⟩ :=
            OnlyWrites.settle_runSend { c with posted := rest } msg
          rw [same]
          exact isClosed
  | arrive piece => obtain ⟨isOpen, -⟩ := act_arrive acted; cases isClosed.symm.trans isOpen
  | fill count => obtain ⟨kind, -, isOpen, -⟩ := act_fill acted; cases isClosed.symm.trans isOpen
  | transfer index count =>
      obtain ⟨op, -, isOpen, -⟩ := act_transfer acted
      cases isClosed.symm.trans isOpen
  | readDone =>
      obtain ⟨kind, bytes, -, rfl⟩ := act_readDone acted
      cases kind with
      | body => exact isClosed
      | header =>
          simp only [Connection.readDone, Connection.headerRead]
          split <;> exact isClosed
      | validation =>
          simp only [Connection.readDone, validationRead]
          split
          · split
            · exact isClosed
            · rfl
          · exact isClosed
  | readFail => obtain ⟨kind, -, rfl⟩ := act_readFail acted; rfl
  | writeFail index => obtain ⟨op, -, -, rfl⟩ := act_writeFail acted; rfl
  | writeDone index =>
      obtain ⟨kind, -, rfl⟩ := act_writeDone acted
      by_cases isCode : kind = .validation
      · subst isCode
        simp only [Connection.writeDone, validationWritten, settle]
        split <;> exact isClosed
      · obtain ⟨queue, writing, fault, -, same⟩ :=
          OnlyWrites.settle_writeDone { c with writing := c.writing.eraseIdx index } isCode
        rw [same]
        exact isClosed

/-- **No read is started and nothing is pushed any more.** -/
theorem Ended.step {c d : Connection T} {event : IoEvent T} (ended : Ended c)
    (taken : c.step event = some d) : Ended d ∧ d.qMessagesIn = c.qMessagesIn := by
  obtain ⟨-, acted⟩ := step_eq_some taken
  obtain ⟨isOver, reading, isClosed⟩ := ended
  have stays := isClosed_of_act isOver.connected isClosed acted
  cases event with
  | arrive piece => obtain ⟨isOpen, -⟩ := act_arrive acted; cases isClosed.symm.trans isOpen
  | fill count => obtain ⟨kind, pending, -⟩ := act_fill acted; cases reading.symm.trans pending
  | readDone => obtain ⟨kind, bytes, full, -⟩ := act_readDone acted; cases reading.symm.trans full
  | readFail => obtain ⟨kind, pending, -⟩ := act_readFail acted; cases reading.symm.trans pending
  | _ =>
      have same := SameReads.of_act isOver acted not_false
      exact ⟨⟨isOver.congr same.ownerType same.connecting same.writes, same.reading.trans reading,
        stays⟩, same.queue⟩

theorem Ended.run {start c : Connection T} {events : List (IoEvent T)} (ended : Ended start)
    (run : runFrom Connection.step start events = some c) :
    Ended c ∧ c.qMessagesIn = start.qMessagesIn := by
  have keeps : ∀ (state : Connection T) event next,
      (Ended state ∧ state.qMessagesIn = start.qMessagesIn) → state.step event = some next →
        (Ended next ∧ next.qMessagesIn = start.qMessagesIn) := by
    rintro state event next ⟨isOver, same⟩ taken
    obtain ⟨after, kept⟩ := isOver.step taken
    exact ⟨after, kept.trans same⟩
  exact invariant_of_run keeps ⟨ended, rfl⟩ run

/-! ## Runs -/

/-- A connection of the server whose client has answered its code. -/
def answered : Connection CustomMsgTypes :=
  (runFrom step (accept 0 [] 10000)
    [.transfer 0 8, .writeDone 0, .arrive (toBytes (scramble 0)), .fill 8, .readDone]).get
      (by decide)

theorem loopStarts_answered : LoopStarts answered :=
  ⟨⟨rfl, nofun⟩, ⟨rfl, rfl⟩, rfl⟩

/-- A message arrives in two pieces, and the stream ends within the next header. -/
def listAndCut : List (IoEvent CustomMsgTypes) :=
  [.arrive (toBytes (Message.ofType CustomMsgTypes.clientList).header ++ [1]), .fill 8, .readDone,
    .arrive [2, 3], .readFail]

def afterCut : Connection CustomMsgTypes × List UInt8 :=
  (runFrom (logged step (delivered 5)) (answered, []) listAndCut).get (by decide)

end Connection

end NetworkChat
