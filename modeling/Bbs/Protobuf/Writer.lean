import Bbs.Protobuf.Varint

/-!
Writing protobuf messages, as the `Size`, `MarshalTo` and `Marshal` methods that
`protoc-gen-gogo` generates do it.

What such a method writes is a list of `Item`s, one for each field that is there. `Size` counts
the bytes beforehand, `Marshal` makes a buffer of that size, and `MarshalTo` fills it from the
front: a byte that is put beyond its end is a panic, and `copy` silently drops what does not fit.
`marshal_eq` says that neither happens: the buffer is filled to its end with `encodeAll`.
-/

namespace Bbs.Protobuf

/-- A field as it is written: a tag, and what follows it. -/
inductive Item where
  | varint (num : Nat) (value : UInt64)
  /-- A string or bytes. -/
  | bytes (num : Nat) (contents : List UInt8)
  | message (num : Nat) (items : List Item)

namespace Item

def num : Item → Nat
  | .varint num _ => num
  | .bytes num _ => num
  | .message num _ => num

def wireType : Item → Nat
  | .varint .. => 0
  | .bytes .. => 2
  | .message .. => 2

/-- The bytes of the tag, which are constants in the generated code. -/
def tag (item : Item) : List UInt8 :=
  encodeVarint (item.num * 8 + item.wireType)

end Item

/-! ### `Size` -/

mutual
/-- What a field adds to `Size`. The length of the tag is a constant in the generated code. -/
def Item.size : Item → Nat
  | .varint num value => sov (num * 8) + sov value.toNat
  | .bytes num contents => sov (num * 8 + 2) + contents.length + sov contents.length
  | .message num items => sov (num * 8 + 2) + sizeAll items + sov (sizeAll items)

def sizeAll : List Item → Nat
  | [] => 0
  | item :: items => item.size + sizeAll items
end

/-! ### `MarshalTo` -/

/-- A slice that is filled from the front: what is written already, and the bytes left. -/
structure Buffer where
  written : List UInt8
  room : Nat

namespace Buffer

/-- `data[i] = b`, which panics beyond the end. -/
def put (buffer : Buffer) (b : UInt8) : Option Buffer :=
  if buffer.room = 0 then none else some ⟨buffer.written ++ [b], buffer.room - 1⟩

def putAll (buffer : Buffer) : List UInt8 → Option Buffer
  | [] => some buffer
  | b :: bytes => do (← buffer.put b).putAll bytes

/-- `copy(data[i:], bytes)` -/
def copy (buffer : Buffer) (bytes : List UInt8) : Buffer :=
  ⟨buffer.written ++ bytes.take buffer.room, buffer.room - bytes.length⟩

end Buffer

mutual
/-- The length in front of a message is the one `Size` counts. -/
def Item.marshalTo : Item → Buffer → Option Buffer
  | .varint num value, buffer => do
      let buffer ← buffer.putAll (encodeVarint (num * 8))
      buffer.putAll (encodeVarint value.toNat)
  | .bytes num contents, buffer => do
      let buffer ← buffer.putAll (encodeVarint (num * 8 + 2))
      let buffer ← buffer.putAll (encodeVarint contents.length)
      return buffer.copy contents
  | .message num items, buffer => do
      let buffer ← buffer.putAll (encodeVarint (num * 8 + 2))
      let buffer ← buffer.putAll (encodeVarint (sizeAll items))
      marshalAll items buffer

def marshalAll : List Item → Buffer → Option Buffer
  | [], buffer => some buffer
  | item :: items, buffer => do marshalAll items (← item.marshalTo buffer)
end

/-- `Marshal`. `make` panics on a size that is no `int`. -/
def marshal (items : List Item) : Option (List UInt8) :=
  if sizeAll items < 2 ^ 63 then (marshalAll items ⟨[], sizeAll items⟩).map Buffer.written
  else none

/-! ### The bytes of a message -/

mutual
/-- What stands behind the tag. -/
def Item.payload : Item → List UInt8
  | .varint _ value => encodeVarint value.toNat
  | .bytes _ contents => encodeVarint contents.length ++ contents
  | .message _ items => encodeVarint (encodeAll items).length ++ encodeAll items

def encodeAll : List Item → List UInt8
  | [] => []
  | item :: items => item.tag ++ item.payload ++ encodeAll items
end

mutual
/-- `Size` counts the bytes that are written. -/
theorem Item.size_eq : ∀ item : Item, item.size = (item.tag ++ item.payload).length
  | .varint num value => by
      rw [Item.size, Item.tag, Item.payload, List.length_append, length_encodeVarint,
        length_encodeVarint]
      rfl
  | .bytes num contents => by
      simp only [Item.size, Item.tag, Item.payload, List.length_append, length_encodeVarint,
        Item.num, Item.wireType]
      omega
  | .message num items => by
      simp only [Item.size, Item.tag, Item.payload, List.length_append, length_encodeVarint,
        Item.num, Item.wireType, sizeAll_eq items]
      omega

theorem sizeAll_eq : ∀ items : List Item, sizeAll items = (encodeAll items).length
  | [] => rfl
  | item :: items => by
      rw [sizeAll, encodeAll, List.length_append, item.size_eq, sizeAll_eq items]
end

/-! ### The buffer is filled -/

/-- With these bytes written. -/
def Buffer.after (buffer : Buffer) (bytes : List UInt8) : Buffer :=
  ⟨buffer.written ++ bytes, buffer.room - bytes.length⟩

@[simp] theorem Buffer.after_after (buffer : Buffer) (bytes bytes' : List UInt8) :
    (buffer.after bytes).after bytes' = buffer.after (bytes ++ bytes') := by
  simp [after, Nat.sub_sub]

@[simp] theorem Buffer.room_after (buffer : Buffer) (bytes : List UInt8) :
    (buffer.after bytes).room = buffer.room - bytes.length := rfl

theorem Buffer.putAll_eq {buffer : Buffer} {bytes : List UInt8}
    (fits : bytes.length ≤ buffer.room) : buffer.putAll bytes = some (buffer.after bytes) := by
  induction bytes generalizing buffer with
  | nil => simp [putAll, after]
  | cons b bytes ih =>
      rw [List.length_cons] at fits
      have room : buffer.room ≠ 0 := by omega
      have put : buffer.put b = some (buffer.after [b]) := by
        rw [Buffer.put, if_neg room]
        rfl
      rw [putAll, put]
      change (buffer.after [b]).putAll bytes = _
      rw [ih (by simpa using by omega), after_after, List.singleton_append]

theorem Buffer.copy_eq {buffer : Buffer} {bytes : List UInt8} (fits : bytes.length ≤ buffer.room) :
    buffer.copy bytes = buffer.after bytes := by
  rw [copy, List.take_of_length_le fits, after]

mutual
/-- With room enough, `MarshalTo` writes the bytes of a field and nothing else. -/
theorem Item.marshalTo_eq : ∀ (item : Item) {buffer : Buffer}, item.size ≤ buffer.room →
    item.marshalTo buffer = some (buffer.after (item.tag ++ item.payload))
  | .varint num value, buffer, fits => by
      rw [Item.size_eq, List.length_append] at fits
      rw [Item.marshalTo]
      change (buffer.putAll (Item.varint num value).tag).bind
        (fun buffer => buffer.putAll (Item.varint num value).payload) = _
      rw [Buffer.putAll_eq (by omega), Option.bind_some,
        Buffer.putAll_eq (by rw [Buffer.room_after]; omega), Buffer.after_after]
  | .bytes num contents, buffer, fits => by
      rw [Item.size_eq, List.length_append, Item.payload, List.length_append] at fits
      rw [Item.marshalTo]
      change (buffer.putAll (Item.bytes num contents).tag).bind
        (fun buffer => (buffer.putAll (encodeVarint contents.length)).bind
          fun buffer => some (buffer.copy contents)) = _
      rw [Buffer.putAll_eq (by omega), Option.bind_some,
        Buffer.putAll_eq (by rw [Buffer.room_after]; omega), Option.bind_some,
        Buffer.copy_eq (by simp only [Buffer.room_after]; omega), Buffer.after_after,
        Buffer.after_after, Item.payload]
  | .message num items, buffer, fits => by
      rw [Item.size_eq, List.length_append, Item.payload, List.length_append] at fits
      rw [Item.marshalTo]
      change (buffer.putAll (Item.message num items).tag).bind
        (fun buffer => (buffer.putAll (encodeVarint (sizeAll items))).bind
          fun buffer => marshalAll items buffer) = _
      rw [sizeAll_eq, Buffer.putAll_eq (by omega), Option.bind_some,
        Buffer.putAll_eq (by rw [Buffer.room_after]; omega), Option.bind_some,
        marshalAll_eq items (by rw [sizeAll_eq]; simp only [Buffer.room_after]; omega),
        Buffer.after_after, Buffer.after_after, Item.payload]

theorem marshalAll_eq : ∀ (items : List Item) {buffer : Buffer}, sizeAll items ≤ buffer.room →
    marshalAll items buffer = some (buffer.after (encodeAll items))
  | [], buffer, _ => by simp [marshalAll, encodeAll, Buffer.after]
  | item :: items, buffer, fits => by
      rw [sizeAll] at fits
      rw [marshalAll, item.marshalTo_eq (by omega)]
      change marshalAll items (buffer.after (item.tag ++ item.payload)) = _
      rw [marshalAll_eq items (by rw [Buffer.room_after, ← item.size_eq]; omega),
        Buffer.after_after, encodeAll]
end

/-- `Marshal` returns the bytes of the message. -/
theorem marshal_eq {items : List Item} (small : sizeAll items < 2 ^ 63) :
    marshal items = some (encodeAll items) := by
  rw [marshal, if_pos small, marshalAll_eq items (Nat.le_refl _)]
  rfl

end Bbs.Protobuf
