import Bbs.Json

/-!
Decoding that goes on after an error.

When a value does not fit the place it is decoded into, Go's `encoding/json` skips it,
leaves the place as it was, decodes the rest and returns an error in the end. What was
decoded is there all the same, for a caller that does not look at the error.
-/

namespace Bbs.Json

variable {α β F : Type}

/-- What is there after decoding, and whether there was no error. -/
structure Decoded (α : Type) where
  value : α
  clean : Bool

namespace Decoded

/-- For a caller that looks at the error. -/
def checked (decoded : Decoded α) : Option α :=
  if decoded.clean then some decoded.value else none

def map (f : α → β) (decoded : Decoded α) : Decoded β :=
  ⟨f decoded.value, decoded.clean⟩

end Decoded

/-- Keep the old value on an error. -/
def lenient (decode : α → Json → Option α) (old : α) (value : Json) : Decoded α :=
  match decode old value with
  | some a => ⟨a, true⟩
  | none => ⟨old, false⟩

def lenientMembers (fieldOf : String → Option F) (set : α → F → Json → Decoded α) :
    α → List (String × Json) → Decoded α
  | a, [] => ⟨a, true⟩
  | a, (key, value) :: members =>
      match fieldOf key with
      | none => lenientMembers fieldOf set a members
      | some f =>
          let here := set a f value
          let rest := lenientMembers fieldOf set here.value members
          ⟨rest.value, here.clean && rest.clean⟩

def lenientStruct (fieldOf : String → Option F) (set : α → F → Json → Decoded α) (old : α) :
    Json → Decoded α
  | .null => ⟨old, true⟩
  | .obj members => lenientMembers fieldOf set old members
  | _ => ⟨old, false⟩

def lenientPointer (zero : α) (decode : α → Json → Decoded α) (old : Option α) :
    Json → Decoded (Option α)
  | .null => ⟨none, true⟩
  | value => (decode (old.getD zero) value).map some

def lenientElements (zero : α) (decode : α → Json → Decoded α) :
    List α → List Json → Decoded (List α)
  | _, [] => ⟨[], true⟩
  | old, value :: values =>
      let here := decode (old.head?.getD zero) value
      let rest := lenientElements zero decode old.tail values
      ⟨here.value :: rest.value, here.clean && rest.clean⟩

def lenientSlice (zero : α) (decode : α → Json → Decoded α) (old : Option (List α)) :
    Json → Decoded (Option (List α))
  | .null => ⟨none, true⟩
  | .arr values => (lenientElements zero decode (old.getD []) values).map some
  | _ => ⟨old, false⟩

/-- A nil slice is written as `null`. -/
def encodeSlice (encode : α → Json) : Option (List α) → Json
  | none => .null
  | some values => .arr (values.map encode)

/-- So is a nil pointer. -/
def encodePointer (encode : α → Json) : Option α → Json
  | none => .null
  | some a => encode a

def decodeBool (old : Bool) : Json → Option Bool
  | .null => some old
  | .bool b => some b
  | _ => none

def decodeUInt16 : UInt16 → Json → Option UInt16 :=
  decodeInt 0 (UInt16.size - 1) fun n => UInt16.ofNat n.toNat

def decodeUInt64 : UInt64 → Json → Option UInt64 :=
  decodeInt 0 (UInt64.size - 1) fun n => UInt64.ofNat n.toNat

/-! ### What decoding gives back -/

theorem lenient_of_some {decode : α → Json → Option α} {old a : α} {value : Json}
    (h : decode old value = some a) : lenient decode old value = ⟨a, true⟩ := by
  rw [lenient, h]

theorem lenient_of_none {decode : α → Json → Option α} {old : α} {value : Json}
    (h : decode old value = none) : lenient decode old value = ⟨old, false⟩ := by
  rw [lenient, h]

theorem lenientPointer_of_ne_null {zero : α} {decode : α → Json → Decoded α} {old : Option α}
    {value : Json} (present : value ≠ .null) :
    lenientPointer zero decode old value = (decode (old.getD zero) value).map some := by
  cases value with
  | null => exact absurd rfl present
  | _ => rfl

@[simp] theorem decodeBool_bool (old b : Bool) : decodeBool old (.bool b) = some b := rfl

theorem decodeUInt16_num {old : UInt16} {n : Nat} (fits : n < UInt16.size) :
    decodeUInt16 old (.num n) = some (UInt16.ofNat n) := by
  rw [decodeUInt16, decodeInt_num _ _ (Int.natCast_nonneg _) (by omega)]
  rfl

theorem decodeUInt16_num_of_le {old : UInt16} {n : Nat} (big : UInt16.size ≤ n) :
    decodeUInt16 old (.num n) = none := by
  rw [decodeUInt16, decodeInt, if_neg]
  omega

@[simp] theorem decodeUInt64_toNat (old n : UInt64) : decodeUInt64 old (.num n.toNat) = some n := by
  have upper : (n.toNat : Int) ≤ UInt64.size - 1 := by
    have := n.toNat_lt
    simp only [UInt64.size]
    omega
  rw [decodeUInt64, decodeInt_num _ _ (Int.natCast_nonneg _) upper]
  simp

/-- Set fields one after the other. -/
def setFields (set : α → F → Json → Decoded α) : α → List (F × Json) → Decoded α
  | a, [] => ⟨a, true⟩
  | a, (f, value) :: fields =>
      let here := set a f value
      let rest := setFields set here.value fields
      ⟨rest.value, here.clean && rest.clean⟩

/-- Members written under the names of their fields are decoded field by field. -/
theorem lenientMembers_named {fieldOf : String → Option F} {name : F → String}
    (named : ∀ f, fieldOf (name f) = some f) (set : α → F → Json → Decoded α) (a : α)
    (fields : List (F × Json)) :
    lenientMembers fieldOf set a (fields.map fun p => (name p.1, p.2)) = setFields set a fields := by
  induction fields generalizing a with
  | nil => rfl
  | cons p fields ih => simp only [List.map_cons, lenientMembers, named, setFields, ih]

theorem setFields_append (set : α → F → Json → Decoded α) (a : α) (l m : List (F × Json)) :
    setFields set a (l ++ m) =
      ⟨(setFields set (setFields set a l).value m).value,
        (setFields set a l).clean && (setFields set (setFields set a l).value m).clean⟩ := by
  induction l generalizing a with
  | nil => simp [setFields]
  | cons p l ih => simp [setFields, ih, Bool.and_assoc]

/-- An array of encoded elements is decoded element by element into a fresh slice. -/
theorem lenientElements_map {zero : α} {decode : α → Json → Decoded α} {encode : β → Json}
    {f : β → α} {fits : β → Bool} (each : ∀ b, decode zero (encode b) = ⟨f b, fits b⟩)
    (bs : List β) :
    lenientElements zero decode [] (bs.map encode) = ⟨bs.map f, bs.all fits⟩ := by
  induction bs with
  | nil => rfl
  | cons b bs ih => simp [lenientElements, each, ih]

/-- A slice is decoded into a nil one element by element. -/
theorem lenientSlice_encodeSlice {zero : α} {decode : α → Json → Decoded α} {encode : β → Json}
    {f : β → α} {fits : β → Bool} (each : ∀ b, decode zero (encode b) = ⟨f b, fits b⟩)
    (slice : Option (List β)) :
    lenientSlice zero decode none (encodeSlice encode slice) =
      ⟨slice.map (List.map f), (slice.getD []).all fits⟩ := by
  cases slice with
  | none => rfl
  | some bs => simp [encodeSlice, lenientSlice, lenientElements_map each, Decoded.map]

theorem decodeSlice_encodeSlice {zero : α} {decode : α → Json → Option α} {encode : α → Json}
    (inverse : ∀ a, decode zero (encode a) = some a) (slice : Option (List α)) :
    decodeSlice zero decode none (encodeSlice encode slice) = some slice := by
  cases slice with
  | none => rfl
  | some as => simp [encodeSlice, decodeSlice, decodeElements_map inverse]

end Bbs.Json
