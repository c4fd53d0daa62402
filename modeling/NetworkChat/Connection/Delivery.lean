import NetworkChat.Connection.Transport

/-!
# What is delivered in the end

A link comes to rest: the steps that carry on what was begun decrease the work that
is left (`Link.work`), so from every state of a run they can be taken until none is
left. Together with the account of what was given, this decides what arrives
(`Link.delivered_iff`).
-/

set_option autoImplicit false

namespace NetworkChat

open Foundation

variable {T : Type}

namespace Connection

/-! ## The work of a sender -/

def headerWrites (c : Connection T) : ℕ := c.writing.countP fun op => op.kind = .header

/-- The lambdas, messages and headers that have still to be handled. -/
def unwritten (c : Connection T) : ℕ :=
  4 * c.posted.length + 2 * c.qMessagesOut.length + c.headerWrites

theorem headerWrites_startWrite (c : Connection T) (kind : WriteKind) (bytes : List UInt8) :
    (c.startWrite kind bytes).headerWrites =
      c.headerWrites + if kind = .header then 1 else 0 := by
  simp [headerWrites, startWrite, List.countP_cons]

theorem headerWrites_eraseIdx {c : Connection T} {index : ℕ} {op : WriteOp}
    (found : c.writing[index]? = some op) :
    c.headerWrites = (c.writing.eraseIdx index).countP (fun op => op.kind = .header) +
      if op.kind = .header then 1 else 0 := by
  obtain ⟨before, after, split, -, erase⟩ := exists_split_at found
  rw [headerWrites, erase, split]
  simp only [List.countP_append, List.countP_cons, decide_eq_true_eq]
  omega

theorem headerWrites_set {c : Connection T} {index : ℕ} {op : WriteOp}
    (found : c.writing[index]? = some op) (rest : List UInt8) :
    (c.writing.set index { op with rest }).countP (fun op => op.kind = .header) =
      c.headerWrites := by
  obtain ⟨before, after, split, set, -⟩ := exists_split_at found
  rw [headerWrites, set, split]
  simp only [List.countP_append, List.countP_cons]

variable [FullLayout T]

theorem unwritten_writeHeader {c d : Connection T} (done : c.writeHeader = .ok d) :
    d.unwritten = c.unwritten + 1 := by
  simp only [writeHeader] at done
  split at done
  · cases done
  · cases done
    have one := headerWrites_startWrite c .header
    simp only [unwritten, one, if_pos]
    rfl

/-- Popping a message takes more than starting the next one gives. -/
theorem unwritten_popAndContinue {c d : Connection T} (done : c.popAndContinue = .ok d) :
    d.unwritten < c.unwritten := by
  simp only [popAndContinue] at done
  split at done
  · cases done
  · rename_i msg rest queue
    split at done
    · cases done
      simp only [unwritten, headerWrites, queue, List.length_cons]
      omega
    · rw [unwritten_writeHeader done]
      simp only [unwritten, headerWrites, queue, List.length_cons]
      omega

theorem unwritten_headerWritten {c d : Connection T} (done : c.headerWritten = .ok d) :
    d.unwritten ≤ c.unwritten := by
  simp only [headerWritten] at done
  split at done
  · cases done
  · split at done
    · simp only [writeBody] at done
      split at done
      · cases done
      · cases done
        have none := headerWrites_startWrite c .body
        simp only [unwritten, none]
        exact le_rfl
    · exact (unwritten_popAndContinue done).le

theorem unwritten_runSend {c d : Connection T} {msg : Message T} (done : c.runSend msg = .ok d) :
    d.unwritten ≤ c.unwritten + 3 := by
  simp only [runSend] at done
  split at done
  · cases done
    simp only [unwritten, headerWrites, List.length_append, List.length_singleton]
    omega
  · rw [unwritten_writeHeader done]
    simp only [unwritten, headerWrites, List.length_append, List.length_singleton]
    omega

omit [FullLayout T] in
/-- A handler that left no fault returned. -/
theorem ok_of_settle {c : Connection T} {result : Except Fault (Connection T)}
    (noFault : (c.settle result).fault = none) : result = .ok (c.settle result) := by
  cases result with
  | ok next => rfl
  | error fault => cases noFault

/-- The lambda of a message is more work than what it leaves. -/
theorem unwritten_runPosted {given : List (Message T)} {stream : List UInt8} {c d : Connection T}
    (running : Running given stream c) (taken : c.step .runPosted = some d) :
    d.unwritten < c.unwritten ∧ d.sent = c.sent := by
  have noFault := (running.step rfl taken).writes.noFault
  obtain ⟨lambda, rest, posted, rfl⟩ := act_runPosted (step_eq_some taken).2
  cases lambda with
  | close => exact absurd rfl (running.noClose .close (posted ▸ List.mem_cons_self))
  | send msg =>
      have less := unwritten_runSend (ok_of_settle noFault)
      refine ⟨lt_of_le_of_lt less ?_,
        (SameSocket.settle_runSend { c with posted := rest } msg).sent⟩
      simp only [unwritten, headerWrites, posted, List.length_cons]
      omega

/-- The end of a write is work done. -/
theorem unwritten_writeDone {given : List (Message T)} {stream : List UInt8} {c d : Connection T}
    {index : ℕ} (running : Running given stream c) (taken : c.step (.writeDone index) = some d) :
    d.unwritten < c.unwritten ∧ d.sent = c.sent := by
  have noFault := (running.step rfl taken).writes.noFault
  obtain ⟨kind, found, rfl⟩ := act_writeDone (step_eq_some taken).2
  have ofMessage := running.ofMessages _ (List.mem_of_getElem? found)
  refine ⟨?_, (SameSocket.settle_writeDone { c with writing := c.writing.eraseIdx index }
    ofMessage).sent⟩
  have ended := headerWrites_eraseIdx found
  have returned := ok_of_settle noFault
  cases kind with
  | validation => cases ofMessage
  | header =>
      have less := unwritten_headerWritten returned
      simp only [unwritten, headerWrites, if_pos] at ended less ⊢
      omega
  | body =>
      have less := unwritten_popAndContinue returned
      simp only [unwritten, headerWrites, reduceCtorEq, if_false] at ended less ⊢
      omega

theorem unwritten_transfer {c d : Connection T} {index count : ℕ}
    (taken : c.step (.transfer index count) = some d) :
    d.unwritten = c.unwritten ∧ ∃ bytes, d.sent = c.sent ++ bytes ∧ 0 < bytes.length := by
  obtain ⟨op, found, -, positive, within, rfl⟩ := act_transfer (step_eq_some taken).2
  refine ⟨?_, _, rfl, ?_⟩
  · simp only [unwritten, headerWrites, headerWrites_set found]
  · rw [tagged, List.length_map, List.length_take]
    omega

/-- What was handed over is no more than the frames of what was given. -/
theorem WriteInvariant.length_sent_le {given : List (Message T)} {c : Connection T}
    (invariant : WriteInvariant given c) :
    (messageBytes c.sent).length ≤ (messageStream given).length := by
  obtain ⟨-, written, remaining, splits, -, bytes⟩ := invariant
  have lengths := congrArg List.length bytes
  rw [splits, messageStream_append, List.length_append]
  rw [List.length_append] at lengths
  omega

/-! ## The work of a receiver -/

/-- The bytes that have arrived, and the handler that has to run. -/
def unhandled (c : Connection T) : ℕ :=
  2 * c.inbox.length + if (c.reading.bind ReadOp.data).isSome then 1 else 0

/-- The loop asks for at least one byte. -/
theorem Reads.asks {stream : List UInt8} {c : Connection T} {kind : ReadKind} {count : ℕ}
    (reads : Reads stream c) (pending : c.reading = some ⟨kind, none⟩)
    (may : c.mayFill count kind = true) : 0 < count := by
  obtain ⟨-, frames, -, -, phase⟩ := reads
  cases phase with
  | header data reading =>
      rw [pending] at reading
      cases reading
      rw [of_decide_eq_true may]
      exact Nat.succ_pos _
  | body data reading filled nonempty resized =>
      rw [pending] at reading
      cases reading
      rw [of_decide_eq_true may, resized]
      exact nonempty
  | ended rest reading =>
      rw [pending] at reading
      cases reading

theorem unhandled_fill {stream : List UInt8} {c d : Connection T} {count : ℕ}
    (reads : Reads stream c) (taken : c.step (.fill count) = some d) :
    d.unhandled < c.unhandled := by
  obtain ⟨kind, pending, -, may, within, rfl⟩ := act_fill (step_eq_some taken).2
  have positive := reads.asks pending may
  simp only [unhandled, pending, Option.bind_some, List.length_drop, Option.isSome_some,
    Option.isSome_none, Bool.false_eq_true, if_true, if_false]
  omega

/-- A handler of the loop asks for the next bytes and takes none. -/
theorem unhandled_readDone {stream : List UInt8} {c d : Connection T} (reads : Reads stream c)
    (taken : c.step .readDone = some d) : d.unhandled < c.unhandled := by
  obtain ⟨kind, bytes, full, rfl⟩ := act_readDone (step_eq_some taken).2
  have next : (({ c with reading := none } : Connection T).readDone kind bytes).inbox = c.inbox ∧
      ∃ kind', (({ c with reading := none } : Connection T).readDone kind bytes).reading =
        some ⟨kind', none⟩ := by
    cases kind with
    | validation => exact absurd rfl (reads.inLoop full)
    | body => exact ⟨rfl, .header, rfl⟩
    | header =>
        simp only [readDone, headerRead]
        split
        · exact ⟨rfl, .body, rfl⟩
        · exact ⟨rfl, .header, rfl⟩
  obtain ⟨inbox, kind', reading⟩ := next
  simp only [unhandled, inbox, reading, full, Option.bind_some, Option.isSome_some,
    Option.isSome_none, Bool.false_eq_true, if_true, if_false]
  omega

end Connection

namespace Link

variable [FullLayout T]

/-! ## Coming to rest -/

/-- The work that is left until everything given is delivered. -/
def work (given : List (Message T)) (link : Link T) : ℕ :=
  4 * ((messageStream given).length - (messageBytes link.sender.sent).length) +
    3 * link.inFlight.length + link.receiver.unhandled + link.sender.unwritten

/-- **Carrying on decreases the work that is left.** -/
theorem work_lt {given : List (Message T)} {link next : Link T} {event : Event T}
    (carries : Carries given link) (progress : event.progress = true)
    (taken : link.step event = some next) :
    Carries given next ∧ work given next < work given link := by
  have nothingGiven : event.given = [] := by
    cases event with
    | sender event => cases event <;> first | rfl | cases progress
    | receiver event => rfl
    | deliver count => rfl
  have carried : Carries given next := by simpa [nothingGiven] using carries.step taken
  refine ⟨carried, ?_⟩
  obtain ⟨⟨incoming, sender⟩, answers, stream, receiver, -⟩ := carries
  obtain ⟨_, sentOnce⟩ := carried.sender
  have bounded := sentOnce.writes.length_sent_le
  cases event with
  | sender event =>
      obtain ⟨moved, smooth, moves, rfl⟩ := step_sender taken
      cases event with
      | runPosted =>
          obtain ⟨less, same⟩ := Connection.unwritten_runPosted sender moves
          simp only [work, same, List.drop_length, List.map_nil, List.append_nil]
          omega
      | writeDone index =>
          obtain ⟨less, same⟩ := Connection.unwritten_writeDone sender moves
          simp only [work, same, List.drop_length, List.map_nil, List.append_nil]
          omega
      | transfer index count =>
          obtain ⟨same, bytes, sent, positive⟩ := Connection.unwritten_transfer moves
          have new : (messageBytes bytes).length = bytes.length := by
            have continues := sender.continues smooth (Connection.step_eq_some moves).2
            obtain ⟨other, otherSent, ofMessages⟩ := continues.handedOver
            obtain rfl := List.append_cancel_left (sent.symm.trans otherSent)
            rw [messageBytes_eq_map ofMessages, List.length_map]
          simp only [work, same, sent, List.drop_left, List.length_append, List.length_map,
            messageBytes_append, new] at bounded ⊢
          omega
      | _ => cases progress
  | receiver event =>
      obtain ⟨moved, -, -, moves, rfl⟩ := step_receiver taken
      cases event with
      | fill count =>
          have less := Connection.unhandled_fill receiver.reads moves
          simp only [work]
          omega
      | readDone =>
          have less := Connection.unhandled_readDone receiver.reads moves
          simp only [work]
          omega
      | _ => cases progress
  | deliver count =>
      obtain ⟨moved, positive, within, moves, rfl⟩ := step_deliver taken
      obtain ⟨-, rfl⟩ := Connection.act_arrive (Connection.step_eq_some moves).2
      simp only [work, Connection.unhandled, List.length_append, List.length_take,
        List.length_drop]
      omega

/-- **A link comes to rest**: from every state of a run, what was begun can be
carried on until nothing is left to do. -/
theorem comes_to_rest {given : List (Message T)} {link : Link T} (carries : Carries given link) :
    ∃ events final, (∀ event ∈ events, event.progress = true) ∧
      runFrom step link events = some final ∧
        Exhausted step (fun event => event.progress = true) final :=
  exists_exhausted_run (work given)
    (fun _ _ _ carried progress taken => work_lt carried progress taken) link carries

/-! ## What arrives -/

/-- What arrives at the end of a run, when the link carries messages from before: a welcome that was
given to `Send` during the handshake, wherever its bytes are. -/
theorem Carries.arrives_iff {before : List (Message T)} {start link : Link T}
    {events : List (Event T)} (begun : Carries before start)
    (run : runFrom Link.step start events = some link)
    (framed : ∀ msg ∈ before ++ givenBy events, msg.Framed) :
    (∃ more final, (∀ event ∈ more, event.progress = true) ∧
        runFrom Link.step link more = some final ∧
          Exhausted Link.step (fun event => event.progress = true) final) ∧
      (Exhausted Link.step (fun event => event.progress = true) link →
        (link.receiver.qMessagesIn = before ++ givenBy events ↔
          EmptyBodiesFirst (before ++ givenBy events))) := by
  have carries := begun.run run
  refine ⟨comes_to_rest carries, ?_⟩
  intro exhausted
  rw [carries.delivered framed exhausted]
  exact receive_eq_iff _

/-- **What arrives is what was sent exactly when no empty body comes after a body.**
Every run of a fresh link can be carried on until nothing is left to do; and when
nothing is left, the messages pushed by the receiver are those given to the sender,
with the same headers and bodies in the same order, if and only if no message with
an empty body was given after one that has a body. -/
theorem delivered_iff {start link : Link T} {events : List (Event T)} (fresh : Fresh start)
    (run : runFrom step start events = some link)
    (framed : ∀ msg ∈ givenBy events, msg.Framed) :
    (∃ more final, (∀ event ∈ more, event.progress = true) ∧
        runFrom step link more = some final ∧
          Exhausted step (fun event => event.progress = true) final) ∧
      (Exhausted step (fun event => event.progress = true) link →
        (link.receiver.qMessagesIn = givenBy events ↔ EmptyBodiesFirst (givenBy events))) := by
  have arrives := fresh.carries.arrives_iff run (by rwa [List.nil_append])
  rwa [List.nil_append] at arrives

/-! ## A close after a text -/

theorem step_eq_none_of_act {c : Connection T} {event : Connection.IoEvent T}
    (refused : c.act event = none) : c.step event = none := by
  simp only [Connection.step]
  split
  · rfl
  · exact refused

theorem sender_refuses {link : Link T} {event : Connection.IoEvent T}
    (refused : link.sender.act event = none) : link.step (.sender event) = none := by
  simp only [step, step_eq_none_of_act refused, Option.map_none, ite_self]

theorem receiver_refuses {link : Link T} {event : Connection.IoEvent T}
    (refused : link.receiver.act event = none) : link.step (.receiver event) = none := by
  simp only [step, step_eq_none_of_act refused, Option.map_none, ite_self]

/-- A link whose sender is done and whose receiver waits for a header is at rest. -/
theorem exhausted_of_idle {link : Link T} (posted : link.sender.posted = [])
    (writing : link.sender.writing = []) (inFlight : link.inFlight = [])
    (reading : link.receiver.reading = some ⟨.header, none⟩) (inbox : link.receiver.inbox = []) :
    Exhausted step (fun event => event.progress = true) link := by
  intro event progress
  cases event with
  | deliver count =>
      simp only [step, inFlight, List.length_nil]
      exact if_neg fun allowed => absurd allowed.2 (Nat.not_le.mpr allowed.1)
  | sender event =>
      cases event with
      | runPosted => exact sender_refuses (by simp only [Connection.act, posted])
      | transfer => exact sender_refuses (by simp only [Connection.act, writing, List.getElem?_nil])
      | writeDone =>
          exact sender_refuses (by simp only [Connection.act, writing, List.getElem?_nil])
      | _ => cases progress
  | receiver event =>
      cases event with
      | fill count =>
          have positive : 0 < FixedLayout.size (MessageHeader T) := Nat.succ_pos _
          apply receiver_refuses
          simp only [Connection.act, reading, inbox, Connection.mayFill]
          refine if_neg ?_
          simp only [Bool.and_eq_true, decide_eq_true_eq, List.length_nil]
          omega
      | readDone => exact receiver_refuses (by simp only [Connection.act, reading])
      | _ => cases progress

/-- Both ends right after the handshake, the server sends. -/
def afterHandshake : Link CustomMsgTypes :=
  ⟨(Connection.construct .server true 0).readHeader, [],
    (Connection.construct .client true 0).readHeader⟩

theorem fresh_afterHandshake : Fresh afterHandshake :=
  ⟨⟨rfl, rfl, rfl, rfl, rfl, rfl, rfl, rfl, rfl, rfl, rfl⟩,
    ⟨rfl, rfl, rfl, rfl, rfl, rfl, rfl, rfl, rfl, rfl, rfl⟩, rfl⟩

/-- A text with a body of four bytes, and the close that ends the chat. -/
def textThenClose : List (Message CustomMsgTypes) :=
  [(Message.ofType .textClient).push (7 : UInt32), .ofType .closeClient]

/-- Both are sent, written, and delivered in two pieces. -/
def closeAfterText : List (Event CustomMsgTypes) :=
  textThenClose.map (fun msg => .sender (.send msg)) ++
    [.sender .runPosted, .sender .runPosted, .sender (.transfer 0 8), .sender (.writeDone 0),
      .sender (.transfer 0 4), .sender (.writeDone 0), .sender (.transfer 0 8),
      .sender (.writeDone 0), .deliver 9, .deliver 11, .receiver (.fill 8), .receiver .readDone,
      .receiver (.fill 4), .receiver .readDone, .receiver (.fill 8), .receiver .readDone]

theorem run_closeAfterText : (runFrom step afterHandshake closeAfterText).isSome = true := by
  decide

/-- The receiver pushes the close with the body of the text. -/
theorem close_arrives_with_body :
    ∃ final, runFrom step afterHandshake closeAfterText = some final ∧
      (∀ msg ∈ givenBy closeAfterText, msg.Framed) ∧
      Exhausted step (fun event => event.progress = true) final ∧
      final.receiver.qMessagesIn ≠ givenBy closeAfterText := by
  refine ⟨_, (Option.some_get run_closeAfterText).symm, by decide, ?_, by decide⟩
  exact exhausted_of_idle (by decide) (by decide) (by decide) (by decide) (by decide)

/-- The same messages in the other order, each of them delivered in two pieces. -/
def textAfterClose : List (Event CustomMsgTypes) :=
  textThenClose.reverse.map (fun msg => .sender (.send msg)) ++
    [.sender .runPosted, .sender .runPosted, .sender (.transfer 0 8), .sender (.writeDone 0),
      .deliver 3, .deliver 5, .receiver (.fill 8), .receiver .readDone, .sender (.transfer 0 8),
      .sender (.writeDone 0), .sender (.transfer 0 4), .sender (.writeDone 0), .deliver 10,
      .deliver 2, .receiver (.fill 8), .receiver .readDone, .receiver (.fill 4),
      .receiver .readDone]

theorem run_textAfterClose : (runFrom step afterHandshake textAfterClose).isSome = true := by
  decide

/-- The runs meet what the law asks of them. In the first one the close arrives with a body, in the
second one both messages arrive as they were given. -/
theorem delivered_iff_closeAfterText :
    (((runFrom step afterHandshake closeAfterText).get run_closeAfterText).receiver.qMessagesIn =
        givenBy closeAfterText ↔ EmptyBodiesFirst (givenBy closeAfterText)) ∧
      ((runFrom step afterHandshake textAfterClose).get run_textAfterClose).receiver.qMessagesIn =
        givenBy textAfterClose := by
  constructor
  · exact (delivered_iff fresh_afterHandshake (Option.some_get run_closeAfterText).symm
      (by decide)).2
      (exhausted_of_idle (by decide) (by decide) (by decide) (by decide) (by decide))
  · have law := (delivered_iff fresh_afterHandshake (Option.some_get run_textAfterClose).symm
      (by decide)).2
      (exhausted_of_idle (by decide) (by decide) (by decide) (by decide) (by decide))
    exact law.mpr (by decide)

end Link

end NetworkChat
