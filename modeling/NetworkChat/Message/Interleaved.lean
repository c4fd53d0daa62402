import NetworkChat.Message.Declared

/-!
# Pushes and pops in any order

What `<<` and `>>` do to a message is what pushes and pops do to a stack of values (`Plays`), as
long as the values of the stack fit into a body of 32 bits and each `>>` asks for the type of the
value on top. The body holds no types and no delimiters; still every extraction gives the value that
the stack gives, and the message is at every time the one that the values of the stack were pushed
onto (`perform_of_plays`). Nothing that was popped leaves a trace, and a message whose stack is
empty again is the message that it was.
-/

set_option autoImplicit false

namespace NetworkChat

open Foundation

/-- How many bytes of the body a value takes. -/
def Item.length : Item → ℕ
  | @Item.fixed Data _ _ => FixedLayout.size Data
  | .text data => data.length + FixedLayout.size UInt64

namespace Message

variable {T : Type}

/-- The bytes that the values of a stack take. -/
def stackLength (stack : List Item) : ℕ := (stack.map Item.length).sum

/-- The target takes the value and holds the result. -/
inductive Takes : Target → Item → Item → Prop where
  | fixed (Data : Type) [layout : FixedLayout Data] (data : Data) :
      Takes (.fixed Data) (.fixed Data data) (.fixed Data data)
  | text (data held : List UInt8) (room : held.length + data.length ≤ maxStringSize) :
      Takes (.text held) (.text data) (.text (held ++ data))

/-- What operations do to a stack of values, the top one first, and what the pops give. -/
inductive Plays : List Item → List Operation → List Item → List Item → Prop where
  | done (stack : List Item) : Plays stack [] [] stack
  | push {stack results final : List Item} {ops : List Operation} (item : Item)
      (short : stackLength (item :: stack) < 2 ^ 32)
      (later : Plays (item :: stack) ops results final) :
      Plays stack (.push item :: ops) results final
  | pop {stack results final : List Item} {ops : List Operation} {target : Target}
      {item result : Item} (takes : Takes target item result)
      (later : Plays stack ops results final) :
      Plays (item :: stack) (.pop target :: ops) (result :: results) final

/-- The operations one after the other, and what the extractions give. -/
def perform : List Operation → Message T → Except Fault (List Item × Message T)
  | [], msg => .ok ([], msg)
  | .push item :: ops, msg => perform ops (msg.pushItem item)
  | .pop target :: ops, msg => do
      let (result, msg) ← msg.popInto target
      let (results, msg) ← perform ops msg
      return (result :: results, msg)

theorem length_body_pushItem (msg : Message T) (item : Item) :
    (msg.pushItem item).body.length = msg.body.length + item.length := by
  cases item with
  | fixed Data data =>
      simp only [pushItem, push, resized, List.length_append, FixedLayout.length_toBytes,
        Item.length]
  | text data =>
      simp only [pushItem, pushString, push, resized, List.length_append,
        FixedLayout.length_toBytes, Item.length]
      omega

theorem pushAll_concat (msg : Message T) (items : List Item) (item : Item) :
    msg.pushAll (items ++ [item]) = (msg.pushAll items).pushItem item := by
  simp only [pushAll, List.foldl_append, List.foldl_cons, List.foldl_nil]

/-- The message of a stack: its values, pushed from the bottom. -/
def ofStack (base : Message T) (stack : List Item) : Message T := base.pushAll stack.reverse

theorem ofStack_cons (base : Message T) (item : Item) (stack : List Item) :
    base.ofStack (item :: stack) = (base.ofStack stack).pushItem item := by
  rw [ofStack, List.reverse_cons, pushAll_concat, ofStack]

variable {base : Message T}

theorem length_body_ofStack (stack : List Item) :
    (base.ofStack stack).body.length = base.body.length + stackLength stack := by
  induction stack with
  | nil => rfl
  | cons item stack ih =>
      rw [ofStack_cons, length_body_pushItem, ih, stackLength, stackLength, List.map_cons,
        List.sum_cons]
      omega

/-- A message of a short stack declares its body. -/
theorem framed_ofStack (empty : base.body = []) (framed : base.Framed) {stack : List Item}
    (short : stackLength stack < 2 ^ 32) : (base.ofStack stack).Framed := by
  cases stack with
  | nil => exact framed
  | cons item stack =>
      rw [ofStack_cons]
      refine framed_pushItem ?_
      rw [← ofStack_cons, length_body_ofStack, empty, List.length_nil, Nat.zero_add]
      exact short

/-- **The value on top is popped**, and leaves the message of the other values. -/
theorem popInto_ofStack (empty : base.body = []) (framed : base.Framed) {stack : List Item}
    {target : Target} {item result : Item} (short : stackLength (item :: stack) < 2 ^ 32)
    (takes : Takes target item result) :
    (base.ofStack (item :: stack)).popInto target = .ok (result, base.ofStack stack) := by
  have below : stackLength stack < 2 ^ 32 := by
    rw [stackLength, List.map_cons, List.sum_cons] at short
    rw [stackLength]
    omega
  have small : ((base.ofStack stack).pushItem item).body.length < 2 ^ 32 := by
    rw [← ofStack_cons, length_body_ofStack, empty, List.length_nil, Nat.zero_add]
    exact short
  have declares := framed_ofStack empty framed below
  rw [ofStack_cons]
  cases takes with
  | fixed Data data => exact popInto_pushItem declares (.fixed Data data) small
  | text data held room => exact popInto_pushItem declares (.text data held room) small

theorem stackLength_of_plays {stack results final : List Item} {ops : List Operation}
    (plays : Plays stack ops results final) (short : stackLength stack < 2 ^ 32) :
    stackLength final < 2 ^ 32 := by
  induction plays with
  | done stack => exact short
  | push item fits later ih => exact ih fits
  | pop takes later ih =>
      refine ih ?_
      rw [stackLength, List.map_cons, List.sum_cons] at short
      rw [stackLength]
      omega

/-- **A message is a stack of values**: pushes and pops in any order give what the stack gives, and
leave the message of the stack that is left, which declares its body. -/
theorem perform_of_plays (empty : base.body = []) (framed : base.Framed)
    {stack results final : List Item} {ops : List Operation}
    (short : stackLength stack < 2 ^ 32) (plays : Plays stack ops results final) :
    perform ops (base.ofStack stack) = .ok (results, base.ofStack final) ∧
      (base.ofStack final).Framed := by
  refine ⟨?_, framed_ofStack empty framed (stackLength_of_plays plays short)⟩
  induction plays with
  | done stack => rfl
  | push item fits later ih =>
      rw [perform, ← ofStack_cons]
      exact ih fits
  | pop takes later ih =>
      have below := short
      rw [stackLength, List.map_cons, List.sum_cons] at below
      rw [perform, popInto_ofStack empty framed short takes]
      change (perform _ _ >>= _) = _
      rw [ih (by rw [stackLength]; omega)]
      rfl

/-- An id is pushed and popped under two texts. -/
theorem perform_idUnderTexts :
    perform [.push (.text [104]), .push (.fixed UInt32 7), .pop (.fixed UInt32),
        .push (.text [105, 106]), .pop (.text []), .pop (.text [62])]
        (ofStack (Message.ofType CustomMsgTypes.textClient) []) =
      .ok ([.fixed UInt32 7, .text [105, 106], .text [62, 104]],
        ofStack (Message.ofType CustomMsgTypes.textClient) []) ∧
      (ofStack (Message.ofType CustomMsgTypes.textClient) []).Framed := by
  refine perform_of_plays rfl (by decide) (by decide) ?_
  refine .push _ (by decide) (.push _ (by decide) (.pop (.fixed UInt32 7) ?_))
  exact .push _ (by decide) (.pop (.text [105, 106] [] (by decide))
    (.pop (.text [104] [62] (by decide)) (.done [])))

end Message

end NetworkChat
