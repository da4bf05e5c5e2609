import Mathlib.Data.List.Basic

/-!
Byte strings, and the texts that they are the UTF-8 of.

A Go string holds any bytes. `encoding/json` writes those that do not belong to a well formed
character as U+FFFD (`coerce`), so what is written is the string itself only if the string is the
UTF-8 of some text (`coerce_utf8`).
-/

namespace Bbs.Utf8

def utf8 (s : String) : List UInt8 :=
  s.toUTF8.data.toList

/-- The characters that begin after the first `inside` bytes. -/
def coerceFrom : Nat → List UInt8 → List Char
  | _, [] => []
  | inside + 1, _ :: rest => coerceFrom inside rest
  | 0, b :: rest =>
      match ByteArray.utf8DecodeChar? ⟨(b :: rest).toArray⟩ 0 with
      | some c => c :: coerceFrom (c.utf8Size - 1) rest
      | none => Char.ofNat 0xFFFD :: coerceFrom 0 rest

def coerce (data : List UInt8) : String :=
  String.ofList (coerceFrom 0 data)

theorem coerceFrom_length (skipped data : List UInt8) :
    coerceFrom skipped.length (skipped ++ data) = coerceFrom 0 data := by
  induction skipped with
  | nil => rfl
  | cons b skipped ih => exact ih

theorem utf8_eq (s : String) : utf8 s = s.toList.flatMap String.utf8EncodeChar := by
  rw [utf8, String.toUTF8_eq_toByteArray, ← String.utf8Encode_toList, List.utf8Encode,
    List.data_toByteArray]

/-- A well formed character is read as it was written. -/
theorem coerceFrom_encodeChar (c : Char) (data : List UInt8) :
    coerceFrom 0 (String.utf8EncodeChar c ++ data) = c :: coerceFrom 0 data := by
  obtain ⟨b, rest, encoded⟩ := List.exists_cons_of_ne_nil (@String.utf8EncodeChar_ne_nil c)
  have length : rest.length = c.utf8Size - 1 := by
    have := String.length_utf8EncodeChar c
    rw [encoded, List.length_cons] at this
    omega
  have decoded : ByteArray.utf8DecodeChar? ⟨(b :: (rest ++ data)).toArray⟩ 0 = some c := by
    have joined : (b :: rest).toByteArray ++ ⟨data.toArray⟩ =
        ByteArray.mk (b :: (rest ++ data)).toArray := by
      ext1
      simp
    rw [← joined, ← encoded]
    exact ByteArray.utf8DecodeChar?_utf8EncodeChar_append
  rw [encoded, List.cons_append, coerceFrom, decoded]
  dsimp only
  rw [← length, coerceFrom_length]

/-- A text is coerced to itself. -/
@[simp] theorem coerce_utf8 (s : String) : coerce (utf8 s) = s := by
  have same : ∀ cs : List Char, coerceFrom 0 (cs.flatMap String.utf8EncodeChar) = cs := by
    intro cs
    induction cs with
    | nil => rfl
    | cons c cs ih => rw [List.flatMap_cons, coerceFrom_encodeChar, ih]
  rw [coerce, utf8_eq, same, String.ofList_toList]

end Bbs.Utf8
