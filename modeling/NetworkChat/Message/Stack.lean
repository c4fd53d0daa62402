import NetworkChat.Message

/-!
# A message as a stack

Values of fixed size and strings can be pushed onto a message in any order and number. The
body has no delimiters, yet each extraction of the matching type finds its own boundary from
the tail, so that popping in the reverse order gives every value back and leaves the message as
it was (`popAll_pushAll`). A string that is popped is appended to what its target held.
-/

set_option autoImplicit false

namespace NetworkChat

open Foundation

/-- What is pushed onto a message, and what a target holds. -/
inductive Item : Type 1 where
  | fixed (Data : Type) [layout : FixedLayout Data] (data : Data)
  | text (data : List UInt8)

/-- What a value is popped into. -/
inductive Target : Type 1 where
  | fixed (Data : Type) [layout : FixedLayout Data]
  /-- A string and what it holds. -/
  | text (held : List UInt8)

/-- A value that is pushed, and the target of the matching type that it is popped into. The
string that results is a `std::string`, so its length is at most `max_size`. -/
inductive Slot : Type 1 where
  | fixed (Data : Type) [layout : FixedLayout Data] (data : Data)
  | text (data held : List UInt8) (room : held.length + data.length ≤ Message.maxStringSize)

namespace Slot

def item : Slot → Item
  | @fixed Data _ data => .fixed Data data
  | .text data _ _ => .text data

def target : Slot → Target
  | @fixed Data _ _ => .fixed Data
  | .text _ held _ => .text held

/-- What the target holds in the end. -/
def result : Slot → Item
  | @fixed Data _ data => .fixed Data data
  | .text data held _ => .text (held ++ data)

end Slot

namespace Message

variable {T : Type}

/-- `operator<<`, by the type of its argument. -/
def pushItem (msg : Message T) : Item → Message T
  | @Item.fixed _ _ data => msg.push data
  | .text data => msg.pushString data

/-- `operator>>`, by the type of its argument. -/
def popInto (msg : Message T) : Target → Except Fault (Item × Message T)
  | @Target.fixed Data _ => (msg.pop Data).map fun popped => (.fixed Data popped.1, popped.2)
  | .text held => (msg.popString held).map fun popped => (.text popped.1, popped.2)

def pushAll (msg : Message T) (items : List Item) : Message T := items.foldl pushItem msg

def popAll : List Target → Message T → Except Fault (List Item × Message T)
  | [], msg => .ok ([], msg)
  | target :: targets, msg => do
      let (item, msg) ← msg.popInto target
      let (items, msg) ← popAll targets msg
      return (item :: items, msg)

/-- A message that declares its body is its own resizing. -/
theorem resized_body {msg : Message T} (framed : msg.Framed) : msg.resized msg.body = msg := by
  have size : UInt32.ofNat msg.body.length = msg.header.size := by
    apply UInt32.toNat_inj.mp
    rw [← framed, UInt32.ofNat_toNat]
  rw [resized, size]

/-- Popping a string undoes pushing it, up to the declared size. -/
theorem popStringWithin_pushString {limit : ℕ} (msg : Message T) {data held : List UInt8}
    (word : data.length < 2 ^ 64) (room : held.length + data.length ≤ limit) :
    (msg.pushString data).popStringWithin limit held =
      .ok (held ++ data, msg.resized msg.body) := by
  have length : (UInt64.ofNat data.length).toNat = data.length := by
    rw [UInt64.toNat_ofNat', Nat.mod_eq_of_lt word]
  have fits : ¬ limit < (held.length + data.length) % 2 ^ 64 := by
    have le := Nat.mod_le (held.length + data.length) (2 ^ 64)
    omega
  have index : (msg.body ++ data).length - data.length = msg.body.length := by
    rw [List.length_append, Nat.add_sub_cancel]
  have enough : data.length ≤ (msg.body ++ data).length := by
    rw [List.length_append]
    exact Nat.le_add_left _ _
  rw [popStringWithin, pushString, pop_push]
  simp only [bind, Except.bind, length, resizeString, if_neg fits, resized]
  rw [copyOut_sizeSub, if_pos enough, sizeSub_of_le enough, index, List.drop_left, List.take_left]
  rfl

/-- Pushing only adds to the body. -/
theorem length_pushItem (msg : Message T) (item : Item) :
    msg.body.length ≤ (msg.pushItem item).body.length := by
  cases item with
  | fixed Data data =>
      simp only [pushItem, push, resized, List.length_append]
      exact Nat.le_add_right _ _
  | text data =>
      simp only [pushItem, pushString, push, resized, List.length_append]
      omega

theorem length_pushAll (msg : Message T) (items : List Item) :
    msg.body.length ≤ (msg.pushAll items).body.length := by
  induction items generalizing msg with
  | nil => exact Nat.le_refl _
  | cons item items ih => exact (length_pushItem msg item).trans (ih (msg.pushItem item))

/-- A message that something was pushed onto declares its body. -/
theorem framed_pushItem {msg : Message T} {item : Item}
    (small : (msg.pushItem item).body.length < 2 ^ 32) : (msg.pushItem item).Framed := by
  cases item with
  | fixed Data data => exact framed_resized small
  | text data => exact framed_resized small

/-- **Popping a value undoes pushing it.** -/
theorem popInto_pushItem {msg : Message T} (framed : msg.Framed) (slot : Slot)
    (small : (msg.pushItem slot.item).body.length < 2 ^ 32) :
    (msg.pushItem slot.item).popInto slot.target = .ok (slot.result, msg) := by
  cases slot with
  | fixed Data data =>
      simp only [Slot.item, Slot.target, Slot.result, pushItem, popInto, pop_push,
        resized_body framed]
      rfl
  | text data held room =>
      have word : data.length < 2 ^ 64 := by
        simp only [Slot.item, pushItem, pushString, push, resized, List.length_append] at small
        omega
      simp only [Slot.item, Slot.target, Slot.result, pushItem, popInto,
        popString, popStringWithin_pushString msg word room, resized_body framed]
      rfl

theorem popAll_append {first second : List Target} {msg middle final : Message T}
    {items later : List Item} (popped : popAll first msg = .ok (items, middle))
    (rest : popAll second middle = .ok (later, final)) :
    popAll (first ++ second) msg = .ok (items ++ later, final) := by
  induction first generalizing msg items with
  | nil =>
      cases popped
      exact rest
  | cons target first ih =>
      simp only [popAll] at popped
      simp only [List.cons_append, popAll]
      cases one : msg.popInto target with
      | error fault => rw [one] at popped; cases popped
      | ok result =>
          obtain ⟨item, next⟩ := result
          rw [one] at popped
          change (popAll first next >>= _) = _ at popped
          change (popAll (first ++ second) next >>= _) = _
          cases more : popAll first next with
          | error fault => rw [more] at popped; cases popped
          | ok result =>
              obtain ⟨others, last⟩ := result
              rw [more] at popped
              cases popped
              rw [ih more]
              rfl

/-- **What is pushed is popped**: after any sequence of values, popping with the matching types
in the reverse order gives each value back, a string behind what its target held, reads nothing
outside the body, and leaves the message with its header and its body. -/
theorem popAll_pushAll {msg : Message T} (framed : msg.Framed) (slots : List Slot)
    (small : (msg.pushAll (slots.map Slot.item)).body.length < 2 ^ 32) :
    popAll (slots.reverse.map Slot.target) (msg.pushAll (slots.map Slot.item)) =
      .ok (slots.reverse.map Slot.result, msg) := by
  induction slots generalizing msg with
  | nil => rfl
  | cons slot slots ih =>
      -- The first value is at the bottom: the others are popped before it.
      have below : (msg.pushItem slot.item).body.length < 2 ^ 32 :=
        (length_pushAll _ (slots.map Slot.item)).trans_lt small
      have others := ih (framed_pushItem below) small
      have last : popAll [slot.target] (msg.pushItem slot.item) = .ok ([slot.result], msg) := by
        rw [popAll, popInto_pushItem framed slot below]
        rfl
      rw [List.reverse_cons, List.map_append, List.map_append]
      exact popAll_append others last

/-- An id, and a text that is popped into a string that holds one character. -/
def idAndText : List Slot := [.fixed UInt32 10000, .text [104, 105] [62] (by decide)]

theorem popAll_idAndText :
    popAll (idAndText.reverse.map Slot.target)
        ((Message.ofType CustomMsgTypes.textClient).pushAll (idAndText.map Slot.item)) =
      .ok (idAndText.reverse.map Slot.result, .ofType .textClient) :=
  popAll_pushAll (by decide) idAndText (by decide)

example : idAndText.reverse.map Slot.result = [.text [62, 104, 105], .fixed UInt32 10000] := rfl

end Message

end NetworkChat
