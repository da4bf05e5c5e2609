import Mathlib.Data.List.Basic

/-!
JSON values and the decoding discipline of Go's `encoding/json`.

Decoding happens *into* a value: a member whose name is unknown is skipped,
`null` leaves a scalar or a struct as it was, and a value of the wrong kind or a
number out of range is an error (`none`). Member names are matched up to the
case folding Go applies. `decodeMembers` is the loop over an object's members,
shared by all record types; `decodeMembers_named` is what a round trip needs of
it.
-/

namespace Bbs

inductive Json where
  | null
  | bool (b : Bool)
  /-- An integer literal. -/
  | num (n : Int)
  /-- A number literal with a fraction or an exponent, kept as written. -/
  | real (literal : String)
  | str (s : String)
  | arr (elements : List Json)
  | obj (members : List (String × Json))

namespace Json

/-! ### Member names -/

/-- Go folds ASCII case, and the two non-ASCII letters that fold onto ASCII. -/
def foldChar (c : Char) : Char :=
  if c = '\u017F' then 's' else if c = '\u212A' then 'k' else c.toLower

def foldName (name : String) : List Char :=
  name.toList.map foldChar

/-- The field a member name selects among the fields of a struct. -/
def fieldNamed {F : Type} (fields : List F) (name : F → String) (key : String) : Option F :=
  fields.find? fun f => foldName (name f) = foldName key

/-- Where no two names fold alike, the name of a field selects it. -/
theorem fieldNamed_name {F : Type} {fields : List F} {name : F → String} {f : F}
    (distinct : (fields.map fun f => foldName (name f)).Nodup) (mem : f ∈ fields) :
    fieldNamed fields name (name f) = some f := by
  induction fields with
  | nil => cases mem
  | cons g fields ih =>
      obtain ⟨fresh, distinct⟩ := List.nodup_cons.mp distinct
      rcases List.mem_cons.mp mem with rfl | later
      · simp [fieldNamed]
      · have other : foldName (name g) ≠ foldName (name f) := by
          intro same
          exact fresh (List.mem_map.mpr ⟨f, later, same.symm⟩)
        rw [fieldNamed, List.find?_cons_of_neg (by simpa using other)]
        exact ih distinct later

/-! ### Decoding -/

def decodeString (old : String) : Json → Option String
  | .null => some old
  | .str s => some s
  | _ => none

/-- Decode into a fixed-width integer with range `lo` to `hi`. -/
def decodeInt {α : Type} (lo hi : Int) (ofInt : Int → α) (old : α) : Json → Option α
  | .null => some old
  | .num n => if lo ≤ n ∧ n ≤ hi then some (ofInt n) else none
  | _ => none

def decodeInt32 : Int32 → Json → Option Int32 :=
  decodeInt Int32.minValue.toInt Int32.maxValue.toInt Int32.ofInt

def decodeInt64 : Int64 → Json → Option Int64 :=
  decodeInt Int64.minValue.toInt Int64.maxValue.toInt Int64.ofInt

def decodeUInt32 : UInt32 → Json → Option UInt32 :=
  decodeInt 0 (UInt32.size - 1) fun n => UInt32.ofNat n.toNat

/-- Decode the members of an object one after the other into `a`. -/
def decodeMembers {F α : Type} (fieldOf : String → Option F) (set : α → F → Json → Option α) :
    α → List (String × Json) → Option α
  | a, [] => some a
  | a, (key, value) :: members =>
      match fieldOf key with
      | none => decodeMembers fieldOf set a members
      | some f => (set a f value).bind fun a' => decodeMembers fieldOf set a' members

def decodeStruct {F α : Type} (fieldOf : String → Option F) (set : α → F → Json → Option α)
    (old : α) : Json → Option α
  | .null => some old
  | .obj members => decodeMembers fieldOf set old members
  | _ => none

/-- Decode into a pointer: `null` clears it, anything else decodes into what it
points to, or into `zero` if it was nil. -/
def decodePointer {α : Type} (zero : α) (decode : α → Json → Option α) (old : Option α) :
    Json → Option (Option α)
  | .null => some none
  | value => (decode (old.getD zero) value).map some

/-- Decode array elements, each into the element already at its place. -/
def decodeElements {α : Type} (zero : α) (decode : α → Json → Option α) :
    List α → List Json → Option (List α)
  | _, [] => some []
  | old, value :: values => do
      let a ← decode (old.head?.getD zero) value
      let as ← decodeElements zero decode old.tail values
      return a :: as

/-- Decode into a slice: `null` makes it nil. -/
def decodeSlice {α : Type} (zero : α) (decode : α → Json → Option α) (old : Option (List α)) :
    Json → Option (Option (List α))
  | .null => some none
  | .arr values => (decodeElements zero decode (old.getD []) values).map some
  | _ => none

/-! ### What decoding gives back -/

@[simp] theorem decodeString_str (old s : String) : decodeString old (.str s) = some s := rfl

theorem decodeInt_num {α : Type} {lo hi n : Int} (ofInt : Int → α) (old : α) (lower : lo ≤ n)
    (upper : n ≤ hi) : decodeInt lo hi ofInt old (.num n) = some (ofInt n) :=
  if_pos ⟨lower, upper⟩

@[simp] theorem decodeInt32_toInt (old n : Int32) : decodeInt32 old (.num n.toInt) = some n := by
  rw [decodeInt32, decodeInt_num _ _ n.minValue_le_toInt n.toInt_le, Int32.ofInt_toInt]

@[simp] theorem decodeInt64_toInt (old n : Int64) : decodeInt64 old (.num n.toInt) = some n := by
  rw [decodeInt64, decodeInt_num _ _ n.minValue_le_toInt n.toInt_le, Int64.ofInt_toInt]

@[simp] theorem decodeUInt32_toNat (old n : UInt32) :
    decodeUInt32 old (.num n.toNat) = some n := by
  have upper : (n.toNat : Int) ≤ UInt32.size - 1 := by
    have := n.toNat_lt
    simp only [UInt32.size]
    omega
  rw [decodeUInt32, decodeInt_num _ _ (Int.natCast_nonneg _) upper]
  simp

/-- Members written under the names of their fields are decoded field by field. -/
theorem decodeMembers_named {F α : Type} {fieldOf : String → Option F} {name : F → String}
    (named : ∀ f, fieldOf (name f) = some f) (set : α → F → Json → Option α) (a : α)
    (fields : List (F × Json)) :
    decodeMembers fieldOf set a (fields.map fun p => (name p.1, p.2)) =
      fields.foldlM (fun a p => set a p.1 p.2) a := by
  induction fields generalizing a with
  | nil => rfl
  | cons p fields ih =>
      simp only [List.map_cons, decodeMembers, named, List.foldlM_cons]
      cases set a p.1 p.2 with
      | none => rfl
      | some a' => exact ih a'

/-- An array of encoded elements decodes element by element into a fresh slice. -/
theorem decodeElements_map {α : Type} {zero : α} {decode : α → Json → Option α}
    {encode : α → Json} (inverse : ∀ a, decode zero (encode a) = some a) (as : List α) :
    decodeElements zero decode [] (as.map encode) = some as := by
  induction as with
  | nil => rfl
  | cons a as ih => simp [decodeElements, inverse, ih]

end Json

end Bbs
