import Bbs.Protobuf.Reader
import Bbs.Utf8
import Mathlib.Data.List.Forall2

/-!
Message types, given by their fields.

`protoc-gen-gogo` generates the methods of a message type from its fields, and the code for a
field depends on its kind only. A `MessageField` has what `MarshalTo` and `Unmarshal` do for it, and
a `Message` is put together from its fields. Beside the code stands what it comes to: `transfer` is
what becomes of the message that is read into, and `normal` what a message is read back as, which
need not be the message itself, since a list without elements is not written at all.

`Message.GeneratedFrom.reads` is the rule for a whole message: if each of its fields is `Sound`,
then what was written is read back field by field.
-/

namespace Bbs.Protobuf

open Bbs.Utf8

/-! ### Strings and numbers -/

/-- A Go string keeps any bytes. Those that are no UTF-8 have no counterpart here, and are read as
they would be written to JSON. -/
def text (contents : List UInt8) : String :=
  coerce contents

@[simp] theorem text_utf8 (s : String) : text (utf8 s) = s :=
  coerce_utf8 s

/-- A type of numbers. Numbers are written with 64 bits, and read with their own. -/
structure Number (V : Type) where
  width : Nat
  widen : V → UInt64
  narrow : BitVec width → V
  narrow_widen : ∀ v, narrow (BitVec.ofNat width (widen v).toNat) = v

namespace Number

/-- A negative number is written with ten bytes. Of these, 32 bits are read. -/
theorem int32_bits (v : Int32) : BitVec.ofNat 32 v.toInt64.toUInt64.toNat = v.toBitVec := by
  rw [← UInt64.toNat_toBitVec, BitVec.ofNat_toNat]
  change BitVec.setWidth 32 v.toInt64.toBitVec = v.toBitVec
  rw [Int32.toBitVec_toInt64]
  apply BitVec.eq_of_getLsbD_eq
  intro i inside
  simp only [BitVec.getLsbD_setWidth, BitVec.getLsbD_signExtend, inside, decide_true,
    Bool.true_and, if_true]
  simp [show i < 64 by omega]

def int32 : Number Int32 where
  width := 32
  widen v := v.toInt64.toUInt64
  narrow v := Int32.ofBitVec v
  narrow_widen v := by rw [int32_bits, Int32.ofBitVec_toBitVec]

def uint32 : Number UInt32 where
  width := 32
  widen v := v.toUInt64
  narrow v := UInt32.ofBitVec v
  narrow_widen v := UInt32.toBitVec_inj.1 (by simp)

def int64 : Number Int64 where
  width := 64
  widen v := v.toUInt64
  narrow v := Int64.ofBitVec v
  narrow_widen v := by
    rw [← UInt64.toNat_toBitVec, BitVec.ofNat_toNat]
    simp

def uint64 : Number UInt64 where
  width := 64
  widen v := v
  narrow v := UInt64.ofBitVec v
  narrow_widen v := UInt64.toBitVec_inj.1 (by simp)

/-- Written as `1` or `0`; whatever is not `0` is read as `true`. -/
def bool : Number Bool where
  width := 64
  widen v := if v then 1 else 0
  narrow v := v != 0
  narrow_widen v := by cases v <;> decide

end Number

/-! ### Messages -/

structure Message (M : Type) where
  /-- What `&M{}` points to. -/
  zero : M
  /-- The fields that `MarshalTo` writes. A panic is `none`. -/
  write : M → Option (List Item)
  /-- `Unmarshal` -/
  read : Decoder M
  /-- What the message is read back as. -/
  normal : M → M

/-- `Size` -/
def Message.size {M : Type} (message : Message M) (m : M) : Option Nat :=
  (message.write m).map sizeAll

/-- `Marshal` -/
def Message.marshal {M : Type} (message : Message M) (m : M) : Option (List UInt8) :=
  (message.write m).bind Protobuf.marshal

/-- If it can be written, then it can be read into a new message. -/
def Message.LawfulAt {M : Type} (message : Message M) (m : M) : Prop :=
  ∀ items, message.write m = some items → (encodeAll items).length < 2 ^ 63 →
    Decodes message.read (encodeAll items) message.zero (message.normal m)

theorem marshal_eq_some {items : List Item} {data : List UInt8}
    (marshalled : marshal items = some data) : data = encodeAll items ∧ data.length < 2 ^ 63 := by
  by_cases small : sizeAll items < 2 ^ 63
  · rw [marshal_eq small] at marshalled
    cases marshalled
    exact ⟨rfl, by rwa [← sizeAll_eq]⟩
  · rw [marshal, if_neg small] at marshalled
    cases marshalled

/-- What `Marshal` returns has the size that `Size` returns. -/
theorem Message.size_eq {M : Type} {message : Message M} {m : M} {data : List UInt8}
    (marshalled : message.marshal m = some data) : message.size m = some data.length := by
  obtain ⟨items, written, filled⟩ := Option.bind_eq_some_iff.1 marshalled
  obtain ⟨rfl, -⟩ := marshal_eq_some filled
  rw [Message.size, written, Option.map_some, sizeAll_eq]

theorem Message.LawfulAt.decodes {M : Type} {message : Message M} {m : M}
    (lawful : message.LawfulAt m) {data : List UInt8} (marshalled : message.marshal m = some data) :
    Decodes message.read data message.zero (message.normal m) := by
  obtain ⟨items, written, filled⟩ := Option.bind_eq_some_iff.1 marshalled
  obtain ⟨rfl, small⟩ := marshal_eq_some filled
  exact lawful items written small

/-- A field is read into a message in which it is `fresh`: a message inside has nothing in it. -/
structure MessageField (M : Type) where
  num : Nat
  write : M → Option (List Item)
  read : Case M
  fresh : M → Prop
  transfer : M → M → M

section

variable {M N V : Type}

/-- What the field writes is read by its case. -/
def MessageField.Sound (field : MessageField M) (m : M) : Prop :=
  ∀ items, field.write m = some items →
    ∀ acc, field.fresh acc → Takes [(field.num, field.read)] items acc (field.transfer m acc)

theorem Takes.single {num : Nat} {c : Case M} {item : Item} {m m' : M} (at_num : item.num = num)
    (type : c.wireType = item.wireType) (reads : c.Reads item.payload m m') :
    Takes [(num, c)] [item] m m' := by
  refine .cons ?_ type reads (.nil m')
  simp [at_num]

/-! ### The kinds of fields -/

/-- Appending elements one by one to a list of the message. -/
def appendAll (get : M → List V) (put : M → List V → M) (values : List V) (acc : M) : M :=
  values.foldl (fun acc v => put acc (get acc ++ [v])) acc

/-- If there are no elements then the list is not touched, and may stay `nil`. -/
theorem appendAll_eq (get : M → List V) (put : M → List V → M)
    (get_put : ∀ m l, get (put m l) = l) (put_put : ∀ m l l', put (put m l) l' = put m l')
    (values : List V) (acc : M) :
    appendAll get put values acc =
      if values.isEmpty then acc else put acc (get acc ++ values) := by
  induction values generalizing acc with
  | nil => rfl
  | cons v values ih =>
    change appendAll get put values (put acc (get acc ++ [v])) = put acc (get acc ++ v :: values)
    rw [ih, get_put, put_put]
    cases values with
    | nil => rfl
    | cons v' values => simp

/-- A list that is empty at first, where `nil` and an empty list are the same. -/
theorem appendAll_fresh (get : M → List V) (put : M → List V → M)
    (get_put : ∀ m l, get (put m l) = l) (put_put : ∀ m l l', put (put m l) l' = put m l')
    {acc : M} (fresh : get acc = []) (put_nil : put acc [] = acc) (values : List V) :
    appendAll get put values acc = put acc values := by
  rw [appendAll_eq get put get_put put_put, fresh, List.nil_append]
  cases values with
  | nil => exact put_nil.symm
  | cons v values => rfl

/-- A slice that is read back: `nil` if it has no elements. -/
def nilIfEmpty (l : List V) : Option (List V) :=
  if l.isEmpty then none else some l

@[simp] theorem nilIfEmpty_getD (l : List V) : (nilIfEmpty l).getD [] = l := by
  cases l <;> rfl

/-- A slice that is `nil` at first. -/
theorem appendAll_nil (get : M → List V) (put : M → Option (List V) → M)
    (get_put : ∀ m o, get (put m o) = o.getD []) (put_put : ∀ m o o', put (put m o) o' = put m o')
    {acc : M} (fresh : get acc = []) (put_none : put acc none = acc) (values : List V) :
    appendAll get (fun m l => put m (some l)) values acc = put acc (nilIfEmpty values) := by
  rw [appendAll_eq get (fun m l => put m (some l)) (fun m l => get_put m (some l))
    (fun m l l' => put_put m (some l) (some l')), fresh, List.nil_append, nilIfEmpty]
  cases values with
  | nil => exact put_none.symm
  | cons v values => rfl

namespace MessageField

/-- The case of a string, single or repeated. -/
def stringCase (name : String) (set : M → String → M) : Case M :=
  .bytes name fun m contents => set m (text contents)

theorem takes_string (num : Nat) (name : String) (set : M → String → M) (s : String) (acc : M) :
    Takes [(num, stringCase name set)] [.bytes num (utf8 s)] acc (set acc s) := by
  have reads := Case.bytes_reads name (fun m contents => set m (text contents)) (utf8 s) acc
  rw [text_utf8] at reads
  refine Takes.single rfl rfl ?_
  rw [Item.payload]
  exact reads

@[simps num write fresh transfer]
def string (num : Nat) (name : String) (get : M → String) (set : M → String → M) :
    MessageField M where
  num := num
  write m := some [.bytes num (utf8 (get m))]
  read := stringCase name set
  fresh _ := True
  transfer m acc := set acc (get m)

@[simp] theorem string_sound (num : Nat) (name : String) (get : M → String) (set : M → String → M)
    (m : M) : (string num name get set).Sound m := by
  rintro items ⟨⟩ acc -
  exact takes_string num name set (get m) acc

@[simps num write fresh transfer]
def repeatedString (num : Nat) (name : String) (get : M → List String)
    (put : M → List String → M) : MessageField M where
  num := num
  write m := some ((get m).map fun s => .bytes num (utf8 s))
  read := stringCase name fun m s => put m (get m ++ [s])
  fresh _ := True
  transfer m acc := appendAll get put (get m) acc

@[simp] theorem repeatedString_sound (num : Nat) (name : String) (get : M → List String)
    (put : M → List String → M) (m : M) : (repeatedString num name get put).Sound m := by
  rintro items ⟨⟩ acc -
  simp only [repeatedString]
  generalize get m = strings
  induction strings generalizing acc with
  | nil => exact .nil acc
  | cons s strings ih =>
    exact (takes_string num name _ s acc).append (ih (put acc (get acc ++ [s])))

/-- The case of a number, single or repeated. -/
def numberCase (name : String) (numbers : Number V) (set : M → V → M) : Case M :=
  .varint numbers.width name fun m v => set m (numbers.narrow v)

theorem takes_number (num : Nat) (name : String) (numbers : Number V) (set : M → V → M) (v : V)
    (acc : M) :
    Takes [(num, numberCase name numbers set)] [.varint num (numbers.widen v)] acc
      (set acc v) := by
  have reads := Case.varint_reads numbers.width name (fun m v => set m (numbers.narrow v))
    (numbers.widen v).toNat acc
  rw [numbers.narrow_widen] at reads
  refine Takes.single rfl rfl ?_
  rw [Item.payload]
  exact reads

@[simps num write fresh transfer]
def number (num : Nat) (name : String) (numbers : Number V) (get : M → V) (set : M → V → M) :
    MessageField M where
  num := num
  write m := some [.varint num (numbers.widen (get m))]
  read := numberCase name numbers set
  fresh _ := True
  transfer m acc := set acc (get m)

@[simp] theorem number_sound (num : Nat) (name : String) (numbers : Number V) (get : M → V)
    (set : M → V → M) (m : M) : (number num name numbers get set).Sound m := by
  rintro items ⟨⟩ acc -
  exact takes_number num name numbers set (get m) acc

/-- A pointer to a number. -/
@[simps num write fresh transfer]
def optionalNumber (num : Nat) (name : String) (numbers : Number V) (get : M → Option V)
    (put : M → Option V → M) : MessageField M where
  num := num
  write m := some ((get m).toList.map fun v => .varint num (numbers.widen v))
  read := numberCase name numbers fun m v => put m (some v)
  fresh _ := True
  transfer m acc := (get m).elim acc fun v => put acc (some v)

@[simp] theorem optionalNumber_sound (num : Nat) (name : String) (numbers : Number V)
    (get : M → Option V) (put : M → Option V → M) (m : M) :
    (optionalNumber num name numbers get put).Sound m := by
  rintro items ⟨⟩ acc -
  simp only [optionalNumber]
  cases get m with
  | none => exact .nil acc
  | some v => exact takes_number num name numbers (fun m v => put m (some v)) v acc

/-- Numbers in a list are not packed: each has a tag of its own. -/
@[simps num write fresh transfer]
def repeatedNumber (num : Nat) (name : String) (numbers : Number V) (get : M → List V)
    (put : M → List V → M) : MessageField M where
  num := num
  write m := some ((get m).map fun v => .varint num (numbers.widen v))
  read := numberCase name numbers fun m v => put m (get m ++ [v])
  fresh _ := True
  transfer m acc := appendAll get put (get m) acc

@[simp] theorem repeatedNumber_sound (num : Nat) (name : String) (numbers : Number V)
    (get : M → List V) (put : M → List V → M) (m : M) :
    (repeatedNumber num name numbers get put).Sound m := by
  rintro items ⟨⟩ acc -
  simp only [repeatedNumber]
  generalize get m = values
  induction values generalizing acc with
  | nil => exact .nil acc
  | cons v values ih =>
    exact (takes_number num name numbers _ v acc).append (ih (put acc (get acc ++ [v])))

theorem takes_message (num : Nat) (name : String) {message : Message N} {n : N}
    (lawful : message.LawfulAt n) {items : List Item} (written : message.write n = some items)
    (target : M → N) (set : M → N → M) (acc : M) (fresh : target acc = message.zero) :
    Takes [(num, Case.message name message.read target set)] [.message num items] acc
      (set acc (message.normal n)) := by
  refine Takes.single rfl rfl ?_
  rw [Item.payload]
  refine Case.message_reads name target set fun small => ?_
  rw [fresh]
  exact lawful items written small

/-- A message that is part of the struct. -/
@[simps num write fresh transfer]
def embedded (num : Nat) (name : String) (message : Message N) (get : M → N)
    (set : M → N → M) : MessageField M where
  num := num
  write m := (message.write (get m)).map fun items => [.message num items]
  read := .message name message.read get set
  fresh acc := get acc = message.zero
  transfer m acc := set acc (message.normal (get m))

theorem embedded_sound (num : Nat) (name : String) {message : Message N} {get : M → N}
    (set : M → N → M) {m : M} (lawful : message.LawfulAt (get m)) :
    (embedded num name message get set).Sound m := by
  intro items written acc fresh
  obtain ⟨inner, nested, rfl⟩ := Option.map_eq_some_iff.1 written
  exact takes_message num name lawful nested get set acc fresh

/-- A pointer to a message. Reading makes a new message where there is none yet. -/
@[simps num write fresh transfer]
def optional (num : Nat) (name : String) (message : Message N) (get : M → Option N)
    (put : M → Option N → M) : MessageField M where
  num := num
  write m := (get m).elim (some []) fun n =>
    (message.write n).map fun items => [.message num items]
  read := .message name message.read (fun m => (get m).getD message.zero) fun m n => put m (some n)
  fresh acc := get acc = none
  transfer m acc := (get m).elim acc fun n => put acc (some (message.normal n))

theorem optional_sound (num : Nat) (name : String) {message : Message N} {get : M → Option N}
    (put : M → Option N → M) {m : M} (lawful : ∀ n, get m = some n → message.LawfulAt n) :
    (optional num name message get put).Sound m := by
  intro items written acc fresh
  simp only [optional] at written fresh ⊢
  cases there : get m with
  | none =>
    rw [there] at written
    cases written
    exact .nil acc
  | some n =>
    rw [there] at written
    obtain ⟨inner, nested, rfl⟩ := Option.map_eq_some_iff.1 written
    exact takes_message num name (lawful n there) nested _ _ acc (by rw [fresh]; rfl)

/-- A pointer to a value with methods of its own. Reading always makes a new value. -/
@[simps num write fresh transfer]
def custom (num : Nat) (name : String) (message : Message N) (get : M → Option N)
    (put : M → Option N → M) : MessageField M where
  num := num
  write := (optional num name message get put).write
  read := .message name message.read (fun _ => message.zero) fun m n => put m (some n)
  fresh _ := True
  transfer := (optional num name message get put).transfer

theorem custom_sound (num : Nat) (name : String) {message : Message N} {get : M → Option N}
    (put : M → Option N → M) {m : M} (lawful : ∀ n, get m = some n → message.LawfulAt n) :
    (custom num name message get put).Sound m := by
  rintro items written acc -
  simp only [custom, optional] at written ⊢
  cases there : get m with
  | none =>
    rw [there] at written
    cases written
    exact .nil acc
  | some n =>
    rw [there] at written
    obtain ⟨inner, nested, rfl⟩ := Option.map_eq_some_iff.1 written
    exact takes_message num name (lawful n there) nested _ _ acc rfl

/-- A list of pointers to messages. It cannot be written if one of them is `nil`; each element
is read into a new message. -/
@[simps num write fresh transfer]
def repeatedMessage (num : Nat) (name : String) (message : Message N)
    (get : M → List (Option N)) (put : M → List (Option N) → M) : MessageField M where
  num := num
  write m := (get m).mapM fun n => n.bind fun n => (message.write n).map (Item.message num)
  read := .message name message.read (fun _ => message.zero) fun m n => put m (get m ++ [some n])
  fresh _ := True
  transfer m acc := appendAll get put ((get m).map (Option.map message.normal)) acc

theorem repeatedMessage_sound (num : Nat) (name : String) {message : Message N}
    {get : M → List (Option N)} (put : M → List (Option N) → M) {m : M}
    (lawful : ∀ n, some n ∈ get m → message.LawfulAt n) :
    (repeatedMessage num name message get put).Sound m := by
  rintro items written acc -
  simp only [repeatedMessage] at written ⊢
  generalize get m = elements at lawful written ⊢
  induction elements generalizing items acc with
  | nil =>
    cases written
    exact .nil acc
  | cons element elements ih =>
    simp only [List.mapM_cons, Option.bind_eq_bind, Option.bind_eq_some_iff] at written
    obtain ⟨item, ⟨n, rfl, first⟩, rest, others, done⟩ := written
    cases done
    obtain ⟨inner, nested, rfl⟩ := Option.map_eq_some_iff.1 first
    have head := takes_message num name (lawful n List.mem_cons_self) nested
      (fun _ => message.zero) (fun m n => put m (get m ++ [some n])) acc rfl
    have tail := ih rest (put acc (get acc ++ [some (message.normal n)]))
      (fun n mem => lawful n (List.mem_cons_of_mem _ mem)) others
    exact head.append tail

/-- A map from strings to bytes. Its entries are written like messages with two fields. -/
@[simps num write fresh transfer]
def entries (num : Nat) (name : String) (get : M → List (String × List UInt8))
    (insert : M → String → List UInt8 → M) : MessageField M where
  num := num
  write m := some ((get m).map fun (key, value) =>
    .message num [.bytes 1 (utf8 key), .bytes 2 value])
  read := .entry name fun m key value => insert m (text key) value
  fresh _ := True
  transfer m acc := (get m).foldl (fun acc (key, value) => insert acc key value) acc

@[simp] theorem entries_sound (num : Nat) (name : String) (get : M → List (String × List UInt8))
    (insert : M → String → List UInt8 → M) (m : M) : (entries num name get insert).Sound m := by
  rintro items ⟨⟩ acc -
  simp only [entries]
  induction get m generalizing acc with
  | nil => exact .nil acc
  | cons entry entries ih =>
    obtain ⟨key, value⟩ := entry
    have reads := Case.entry_reads name (fun m key value => insert m (text key) value) (utf8 key)
      value acc
    rw [text_utf8] at reads
    have head : Takes [(num, Case.entry name fun m key value => insert m (text key) value)]
        [.message num [.bytes 1 (utf8 key), .bytes 2 value]] acc (insert acc key value) := by
      refine Takes.single rfl rfl ?_
      rw [Item.payload]
      exact reads
    exact head.append (ih (insert acc key value))

end MessageField

/-! ### A message of fields -/

/-- In the order of the field numbers. -/
def writeAll : List (MessageField M) → M → Option (List Item)
  | [], _ => some []
  | field :: fields, m => do return (← field.write m) ++ (← writeAll fields m)

def switch (fields : List (MessageField M)) : List (Nat × Case M) :=
  fields.map fun field => (field.num, field.read)

def Message.ofFields (zero : M) (fields : List (MessageField M)) (normal : M → M) : Message M where
  zero := zero
  write := writeAll fields
  read := unmarshal (switch fields)
  normal := normal

/-- Field by field, `acc` becomes `result`. Each field is fresh in what the fields before it have
made. -/
def Fills (m : M) : List (MessageField M) → M → M → Prop
  | [], acc, result => acc = result
  | field :: fields, acc, result =>
      field.fresh acc ∧ Fills m fields (field.transfer m acc) result

/-- One field is set. Messages with many fields stay readable that way. -/
def setField (set : M → V → M) (acc : M) (v : V) : M :=
  set acc v

namespace Fills

variable {m acc result : M} {fields : List (MessageField M)} {num : Nat} {name : String}

theorem step {field : MessageField M} (next : M) (fresh : field.fresh acc)
    (transfer : field.transfer m acc = next) (rest : Fills m fields next result) :
    Fills m (field :: fields) acc result :=
  ⟨fresh, transfer ▸ rest⟩

theorem string {get : M → String} {set : M → String → M}
    (rest : Fills m fields (setField set acc (get m)) result) :
    Fills m (.string num name get set :: fields) acc result :=
  ⟨trivial, rest⟩

theorem number {numbers : Number V} {get : M → V} {set : M → V → M}
    (rest : Fills m fields (setField set acc (get m)) result) :
    Fills m (.number num name numbers get set :: fields) acc result :=
  ⟨trivial, rest⟩

theorem embedded {message : Message N} {get : M → N} {set : M → N → M}
    (fresh : get acc = message.zero)
    (rest : Fills m fields (setField set acc (message.normal (get m))) result) :
    Fills m (.embedded num name message get set :: fields) acc result :=
  ⟨fresh, rest⟩

theorem elim_put {put : M → Option N → M} (put_none : put acc none = acc) (f : V → N)
    (o : Option V) : o.elim acc (fun n => put acc (some (f n))) = put acc (o.map f) := by
  cases o with
  | none => exact put_none.symm
  | some n => rfl

theorem optionalNumber {numbers : Number V} {get : M → Option V} {put : M → Option V → M}
    (put_none : put acc none = acc) (rest : Fills m fields (setField put acc (get m)) result) :
    Fills m (.optionalNumber num name numbers get put :: fields) acc result := by
  refine ⟨trivial, ?_⟩
  rw [MessageField.optionalNumber_transfer, elim_put put_none fun v => v, Option.map_id']
  exact rest

theorem optional {message : Message N} {get : M → Option N} {put : M → Option N → M}
    (fresh : get acc = none) (put_none : put acc none = acc)
    (rest : Fills m fields (setField put acc ((get m).map message.normal)) result) :
    Fills m (.optional num name message get put :: fields) acc result := by
  refine ⟨fresh, ?_⟩
  rw [MessageField.optional_transfer, elim_put put_none]
  exact rest

theorem custom {message : Message N} {get : M → Option N} {put : M → Option N → M}
    (put_none : put acc none = acc)
    (rest : Fills m fields (setField put acc ((get m).map message.normal)) result) :
    Fills m (.custom num name message get put :: fields) acc result := by
  refine ⟨trivial, ?_⟩
  rw [MessageField.custom_transfer, MessageField.optional_transfer, elim_put put_none]
  exact rest

/-- A list where `nil` and an empty list are the same. -/
structure PutsList (get : M → List V) (put : M → List V → M) (acc : M) : Prop where
  get_put : ∀ m l, get (put m l) = l
  put_put : ∀ m l l', put (put m l) l' = put m l'
  fresh : get acc = []
  put_nil : put acc [] = acc

theorem repeatedString {get : M → List String} {put : M → List String → M}
    (puts : PutsList get put acc) (rest : Fills m fields (setField put acc (get m)) result) :
    Fills m (.repeatedString num name get put :: fields) acc result := by
  refine ⟨trivial, ?_⟩
  rw [MessageField.repeatedString_transfer,
    appendAll_fresh get put puts.get_put puts.put_put puts.fresh puts.put_nil]
  exact rest

theorem repeatedNumber {numbers : Number V} {get : M → List V} {put : M → List V → M}
    (puts : PutsList get put acc) (rest : Fills m fields (setField put acc (get m)) result) :
    Fills m (.repeatedNumber num name numbers get put :: fields) acc result := by
  refine ⟨trivial, ?_⟩
  rw [MessageField.repeatedNumber_transfer,
    appendAll_fresh get put puts.get_put puts.put_put puts.fresh puts.put_nil]
  exact rest

theorem repeatedMessage {message : Message N} {get : M → List (Option N)}
    {put : M → List (Option N) → M} (puts : PutsList get put acc)
    (rest : Fills m fields (setField put acc ((get m).map (Option.map message.normal))) result) :
    Fills m (.repeatedMessage num name message get put :: fields) acc result := by
  refine ⟨trivial, ?_⟩
  rw [MessageField.repeatedMessage_transfer,
    appendAll_fresh get put puts.get_put puts.put_put puts.fresh puts.put_nil]
  exact rest

end Fills

/-- The numbers of the fields are numbers that a field may have, and no two are the same. -/
def Numbered (fields : List (MessageField M)) : Prop :=
  (fields.map MessageField.num).Nodup ∧ ∀ num ∈ fields.map MessageField.num, num < 2 ^ 29

instance (fields : List (MessageField M)) : Decidable (Numbered fields) :=
  inferInstanceAs (Decidable (_ ∧ _))

theorem lookup_switch {fields : List (MessageField M)}
    (distinct : (fields.map MessageField.num).Nodup) {field : MessageField M}
    (mem : field ∈ fields) :
    (switch fields).lookup field.num = some field.read := by
  induction fields with
  | nil => cases mem
  | cons first fields ih =>
    rw [List.map_cons, List.nodup_cons] at distinct
    rw [switch, List.map_cons, List.lookup_cons]
    obtain rfl | mem := List.mem_cons.1 mem
    · simp
    · have other : (field.num == first.num) = false := by
        rw [beq_eq_false_iff_ne]
        intro same
        exact distinct.1 (same ▸ List.mem_map_of_mem mem)
      rw [other]
      exact ih distinct.2 mem

theorem Takes.of_single {num : Nat} {c : Case M} {items : List Item} {m m' : M}
    (takes : Takes [(num, c)] items m m') {cases : List (Nat × Case M)}
    (found : cases.lookup num = some c) : Takes cases items m m' := by
  induction takes with
  | nil m => exact .nil m
  | @cons item items c' m m' m'' here type reads _ ih =>
    have same : item.num = num ∧ c' = c := by
      have mem := mem_of_lookup here
      simpa using mem
    obtain ⟨rfl, rfl⟩ := same
    exact .cons found type reads ih

/-- The fields that are written one after the other, each by its own case. -/
theorem Fills.takes {cases : List (Nat × Case M)} {fields : List (MessageField M)} {m : M}
    (found : ∀ field ∈ fields, cases.lookup field.num = some field.read)
    (sound : ∀ field ∈ fields, field.Sound m) {items : List Item}
    (written : writeAll fields m = some items) {acc result : M}
    (fills : Fills m fields acc result) : Takes cases items acc result := by
  induction fields generalizing items acc with
  | nil =>
    cases written
    cases fills
    exact .nil _
  | cons field fields ih =>
    simp only [writeAll, Option.bind_eq_bind, Option.bind_eq_some_iff] at written
    obtain ⟨here, first, rest, others, done⟩ := written
    cases done
    have head := (sound field List.mem_cons_self here first acc fills.1).of_single
      (found field List.mem_cons_self)
    have tail := ih (fun f mem => found f (List.mem_cons_of_mem _ mem))
      (fun f mem => sound f (List.mem_cons_of_mem _ mem)) others fills.2
    exact head.append tail

namespace Message

/-- The methods of the message type are those generated from the fields. -/
structure GeneratedFrom (message : Message M) (fields : List (MessageField M)) : Prop where
  numbered : Numbered fields
  write : message.write = writeAll fields
  read : message.read = unmarshal (switch fields)
  fills : ∀ m, Fills m fields message.zero (message.normal m)

theorem ofFields_generated {zero : M} {fields : List (MessageField M)} {normal : M → M}
    (numbered : Numbered fields) (fills : ∀ m, Fills m fields zero (normal m)) :
    (ofFields zero fields normal).GeneratedFrom fields :=
  ⟨numbered, rfl, rfl, fills⟩

variable {message : Message M} {fields : List (MessageField M)}

/-- What a message was written as is read as this message, also with fields in between that the
reader does not know. -/
theorem GeneratedFrom.reads (generated : message.GeneratedFrom fields) {m : M}
    (sound : ∀ field ∈ fields, field.Sound m) {items : List Item}
    (written : message.write m = some items) {data : List UInt8}
    (woven : Woven (switch fields) items data) (small : data.length < 2 ^ 63) :
    Decodes message.read data message.zero (message.normal m) := by
  rw [generated.read]
  rw [generated.write] at written
  have takes := (generated.fills m).takes
    (fun field mem => lookup_switch generated.numbered.1 mem) sound written
  refine takes.decodes ?_ woven small
  intro entry mem
  obtain ⟨field, of_field, rfl⟩ := List.mem_map.1 mem
  exact generated.numbered.2 _ (List.mem_map_of_mem of_field)

theorem GeneratedFrom.lawful (generated : message.GeneratedFrom fields) {m : M}
    (sound : ∀ field ∈ fields, field.Sound m) : message.LawfulAt m :=
  fun items written small => generated.reads sound written (woven_encodeAll _ items) small

/-- What was written is read back as something that equals it. -/
structure RoundTrips (message : Message M) (fields : List (MessageField M))
    (Equal : M → M → Prop) : Prop where
  generated : message.GeneratedFrom fields
  sound : ∀ m, ∀ field ∈ fields, field.Sound m
  equal : ∀ m, Equal (message.normal m) m

namespace RoundTrips

variable {Equal : M → M → Prop}

theorem lawful (roundTrips : message.RoundTrips fields Equal) (m : M) : message.LawfulAt m :=
  roundTrips.generated.lawful (roundTrips.sound m)

theorem decodes (roundTrips : message.RoundTrips fields Equal) {m : M} {data : List UInt8}
    (marshalled : message.marshal m = some data) :
    ∃ m', Decodes message.read data message.zero m' ∧ Equal m' m :=
  ⟨_, (roundTrips.lawful m).decodes marshalled, roundTrips.equal m⟩

theorem pointer (roundTrips : message.RoundTrips fields Equal) (o : Option M) :
    Option.Rel Equal (o.map message.normal) o := by
  cases o with
  | none => exact .none
  | some m => exact .some (roundTrips.equal m)

theorem elements (roundTrips : message.RoundTrips fields Equal) (l : List (Option M)) :
    List.Forall₂ (Option.Rel Equal) (l.map (Option.map message.normal)) l := by
  induction l with
  | nil => exact .nil
  | cons o l ih => exact .cons (roundTrips.pointer o) ih

theorem pointer_eq (roundTrips : message.RoundTrips fields Eq) (o : Option M) :
    o.map message.normal = o := by
  cases o with
  | none => rfl
  | some m => exact congrArg some (roundTrips.equal m)

theorem elements_eq (roundTrips : message.RoundTrips fields Eq) (l : List (Option M)) :
    l.map (Option.map message.normal) = l := by
  rw [List.map_congr_left fun o _ => roundTrips.pointer_eq o, List.map_id']

end RoundTrips

end Message

/-! ### Equal messages -/

/-- Messages that equal each other are written the same way. -/
def Message.Canonical (message : Message M) (Equal : M → M → Prop) : Prop :=
  ∀ m m', Equal m m' → message.write m = message.write m'

theorem Message.Canonical.marshal_eq {message : Message M} {Equal : M → M → Prop}
    (canonical : message.Canonical Equal) {m m' : M} (equal : Equal m m') :
    message.marshal m = message.marshal m' := by
  rw [Message.marshal, Message.marshal, canonical _ _ equal]

theorem Message.canonical_eq (message : Message M) : message.Canonical Eq := by
  rintro m _ rfl
  rfl

theorem writeAll_congr {fields : List (MessageField M)} {m m' : M}
    (same : ∀ field ∈ fields, field.write m = field.write m') :
    writeAll fields m = writeAll fields m' := by
  induction fields with
  | nil => rfl
  | cons field fields ih =>
    rw [writeAll, writeAll, same field List.mem_cons_self,
      ih fun field mem => same field (List.mem_cons_of_mem _ mem)]

namespace MessageField

variable {message : Message N} {Equal : N → N → Prop} (canonical : message.Canonical Equal)
  {m m' : M}

include canonical

theorem embedded_congr (num : Nat) (name : String) {get : M → N} (set : M → N → M)
    (equal : Equal (get m) (get m')) :
    (embedded num name message get set).write m = (embedded num name message get set).write m' := by
  rw [embedded_write, embedded_write, canonical _ _ equal]

theorem optional_congr (num : Nat) (name : String) {get : M → Option N} (put : M → Option N → M)
    (equal : Option.Rel Equal (get m) (get m')) :
    (optional num name message get put).write m = (optional num name message get put).write m' := by
  rw [optional_write, optional_write]
  generalize get m = o at equal ⊢
  generalize get m' = o' at equal ⊢
  cases equal with
  | none => rfl
  | some equal => rw [Option.elim_some, Option.elim_some, canonical _ _ equal]

theorem custom_congr (num : Nat) (name : String) {get : M → Option N} (put : M → Option N → M)
    (equal : Option.Rel Equal (get m) (get m')) :
    (custom num name message get put).write m = (custom num name message get put).write m' :=
  optional_congr canonical num name put equal

theorem repeatedMessage_congr (num : Nat) (name : String) {get : M → List (Option N)}
    (put : M → List (Option N) → M) (equal : List.Forall₂ (Option.Rel Equal) (get m) (get m')) :
    (repeatedMessage num name message get put).write m =
      (repeatedMessage num name message get put).write m' := by
  rw [repeatedMessage_write, repeatedMessage_write]
  generalize get m = elements at equal ⊢
  generalize get m' = elements' at equal ⊢
  induction equal with
  | nil => rfl
  | cons first _ ih =>
    rw [List.mapM_cons, List.mapM_cons, ih]
    cases first with
    | none => rfl
    | some equal => rw [Option.bind_some, Option.bind_some, canonical _ _ equal]

end MessageField

end

end Bbs.Protobuf
