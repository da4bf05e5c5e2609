import Bbs.LenientJson

/-!
Decoding values that contain values of their own kind.

A decoder for such a type is a `step`: it decodes one value with the help of a decoder for the
values nested in it. `decodeNested step` runs it as often as the JSON value is deep. If the
helper is only ever used on values nested deeper (`Nests`), that is the decoder the step
describes: `decodeNested_eq`.
-/

namespace Bbs.Json

variable {α F : Type}

/-! ### Depth -/

mutual
def depth : Json → Nat
  | .null => 1
  | .bool _ => 1
  | .num _ => 1
  | .real _ => 1
  | .str _ => 1
  | .arr elements => depthElements elements + 1
  | .obj members => depthMembers members + 1

def depthElements : List Json → Nat
  | [] => 0
  | value :: values => max value.depth (depthElements values)

def depthMembers : List (String × Json) → Nat
  | [] => 0
  | (_, value) :: members => max value.depth (depthMembers members)
end

theorem depth_pos (j : Json) : 0 < j.depth := by
  cases j <;> simp [depth]

theorem depth_le_depthElements {value : Json} {values : List Json} (mem : value ∈ values) :
    value.depth ≤ depthElements values := by
  induction values with
  | nil => cases mem
  | cons v values ih =>
      rw [depthElements]
      rcases List.mem_cons.mp mem with rfl | mem
      · exact Nat.le_max_left ..
      · exact Nat.le_trans (ih mem) (Nat.le_max_right ..)

theorem depth_le_depthMembers {key : String} {value : Json} {members : List (String × Json)}
    (mem : (key, value) ∈ members) : value.depth ≤ depthMembers members := by
  induction members with
  | nil => cases mem
  | cons p members ih =>
      obtain ⟨k, v⟩ := p
      rw [depthMembers]
      rcases List.mem_cons.mp mem with same | mem
      · cases same
        exact Nat.le_max_left ..
      · exact Nat.le_trans (ih mem) (Nat.le_max_right ..)

/-! ### Decoders that agree on what is nested -/

theorem decodeMembers_congr {fieldOf : String → Option F} {set set' : α → F → Json → Option α}
    {members : List (String × Json)} (agree : ∀ p ∈ members, ∀ a f, set a f p.2 = set' a f p.2)
    (a : α) : decodeMembers fieldOf set a members = decodeMembers fieldOf set' a members := by
  induction members generalizing a with
  | nil => rfl
  | cons p members ih =>
      obtain ⟨key, value⟩ := p
      obtain ⟨here, rest⟩ := List.forall_mem_cons.mp agree
      have ih := ih rest
      rw [decodeMembers, decodeMembers]
      cases fieldOf key with
      | none => exact ih a
      | some f =>
          simp only [here, ih]

theorem decodeStruct_congr {fieldOf : String → Option F} {set set' : α → F → Json → Option α}
    {old : α} {j : Json} (agree : ∀ v : Json, v.depth < j.depth → ∀ a f, set a f v = set' a f v) :
    decodeStruct fieldOf set old j = decodeStruct fieldOf set' old j := by
  cases j with
  | obj members =>
      refine decodeMembers_congr (fun p mem => agree p.2 ?_) old
      rw [depth]
      exact Nat.lt_succ_of_le (depth_le_depthMembers mem)
  | _ => rfl

theorem decodePointer_congr {zero : α} {decode decode' : α → Json → Option α} {old : Option α}
    {j : Json} (agree : ∀ a, decode a j = decode' a j) :
    decodePointer zero decode old j = decodePointer zero decode' old j := by
  cases j with
  | null => rfl
  | _ => simp only [decodePointer, agree]

theorem decodeElements_congr {zero : α} {decode decode' : α → Json → Option α} {values : List Json}
    (agree : ∀ v ∈ values, ∀ a, decode a v = decode' a v) (old : List α) :
    decodeElements zero decode old values = decodeElements zero decode' old values := by
  induction values generalizing old with
  | nil => rfl
  | cons v values ih =>
      obtain ⟨here, rest⟩ := List.forall_mem_cons.mp agree
      simp only [decodeElements, here, ih rest]

theorem decodeSlice_congr {zero : α} {decode decode' : α → Json → Option α} {old : Option (List α)}
    {j : Json} (agree : ∀ v : Json, v.depth < j.depth → ∀ a, decode a v = decode' a v) :
    decodeSlice zero decode old j = decodeSlice zero decode' old j := by
  cases j with
  | arr values =>
      have deeper : ∀ v ∈ values, ∀ a, decode a v = decode' a v := by
        intro v mem
        refine agree v ?_
        rw [depth]
        exact Nat.lt_succ_of_le (depth_le_depthElements mem)
      rw [decodeSlice, decodeSlice, decodeElements_congr deeper]
  | _ => rfl

/-! ### Nested decoding -/

/-- Decode to the given depth. -/
def decodeTo (step : (α → Json → Option α) → α → Json → Option α) : Nat → α → Json → Option α
  | 0 => fun _ _ => none
  | n + 1 => step (decodeTo step n)

def decodeNested (step : (α → Json → Option α) → α → Json → Option α) (old : α) (j : Json) :
    Option α :=
  decodeTo step j.depth old j

/-- The step uses the decoder on nested values only. -/
def Nests (step : (α → Json → Option α) → α → Json → Option α) : Prop :=
  ∀ ⦃decode decode' : α → Json → Option α⦄ ⦃j : Json⦄,
    (∀ v : Json, v.depth < j.depth → ∀ a, decode a v = decode' a v) →
    ∀ old, step decode old j = step decode' old j

variable {step : (α → Json → Option α) → α → Json → Option α}

/-- Any depth from that of the value on gives the same. -/
theorem decodeTo_eq (nests : Nests step) {m n : Nat} {j : Json} (deepM : j.depth ≤ m)
    (deepN : j.depth ≤ n) (old : α) : decodeTo step m old j = decodeTo step n old j := by
  induction m generalizing n j old with
  | zero => exact absurd deepM (Nat.not_le.mpr j.depth_pos)
  | succ m ih =>
      cases n with
      | zero => exact absurd deepN (Nat.not_le.mpr j.depth_pos)
      | succ n =>
          refine nests (fun v deeper a => ih ?_ ?_ a) old
          · omega
          · omega

/-- The recursive equation of the decoder. -/
theorem decodeNested_eq (nests : Nests step) (old : α) (j : Json) :
    decodeNested step old j = step (decodeNested step) old j := by
  obtain ⟨n, depth⟩ : ∃ n, j.depth = n + 1 := ⟨j.depth - 1, by have := j.depth_pos; omega⟩
  rw [decodeNested, depth]
  refine nests (fun v deeper a => ?_) old
  exact decodeTo_eq nests (by omega) (Nat.le_refl _) a

/-! ### Pointers and slices -/

/-- A function that is known on both kinds of pointers is `encodePointer`. -/
theorem eq_encodePointer {f : Option α → Json} {encode : α → Json} (absent : f none = .null)
    (present : ∀ a, f (some a) = encode a) (o : Option α) : f o = encodePointer encode o := by
  cases o with
  | none => exact absent
  | some a => exact present a

theorem decodePointer_encodePointer {zero : α} {decode : α → Json → Option α} {encode : α → Json}
    {o : Option α} (inverse : ∀ a ∈ o, decode zero (encode a) = some a)
    (present : ∀ a, encode a ≠ .null) :
    decodePointer zero decode none (encodePointer encode o) = some o := by
  cases o with
  | none => rfl
  | some a =>
      rw [encodePointer, decodePointer]
      · rw [Option.getD_none, inverse a rfl, Option.map_some]
      · exact present a

/-- The same for an encoder of pointers that is known on both kinds. -/
theorem decodePointer_of_eq {zero : α} {decode : α → Json → Option α} {f : Option α → Json}
    {encode : α → Json} (absent : f none = .null) (present : ∀ a, f (some a) = encode a)
    {o : Option α} (inverse : ∀ a ∈ o, decode zero (encode a) = some a)
    (nonnull : ∀ a, encode a ≠ .null) : decodePointer zero decode none (f o) = some o := by
  rw [eq_encodePointer absent present]
  exact decodePointer_encodePointer inverse nonnull

theorem decodeSlice_map {zero : α} {decode : α → Json → Option α} {encode : α → Json}
    {as : List α} (inverse : ∀ a ∈ as, decode zero (encode a) = some a) :
    decodeSlice zero decode (some []) (.arr (as.map encode)) = some (some as) := by
  rw [decodeSlice, Option.getD_some]
  induction as with
  | nil => rfl
  | cons a as ih =>
      obtain ⟨here, rest⟩ := List.forall_mem_cons.mp inverse
      have ih := ih rest
      simp only [Option.map_eq_some_iff] at ih
      obtain ⟨_, rest, same⟩ := ih
      cases same
      simp [decodeElements, here, rest]

/-! ### Members that are left out -/

/-- A member of a struct, which is left out if it is `empty`. -/
structure Member (F : Type) where
  empty : Bool
  field : F
  value : Json

def encodeStruct (name : F → String) (members : List (Member F)) : Json :=
  .obj ((members.filter fun m => !m.empty).map fun m => (name m.field, m.value))

theorem encodeStruct_ne_null (name : F → String) (members : List (Member F)) :
    encodeStruct name members ≠ .null := by
  simp [encodeStruct]

section

variable (set : α → F → Json → Option α)

/-- Set all the fields, one after the other. -/
def setAll : α → List (Member F) → Option α
  | a, [] => some a
  | a, m :: members => (set a m.field m.value).bind fun a => setAll a members

/-- Reading the value of a member that is left out would not have changed anything. -/
def Harmless : α → List (Member F) → Prop
  | _, [] => True
  | a, m :: members =>
      (m.empty = true → set a m.field m.value = some a) ∧
        ∀ a', set a m.field m.value = some a' → Harmless a' members

variable {set}

theorem decodeStruct_encodeStruct {fieldOf : String → Option F} {name : F → String} {a : α}
    {members : List (Member F)} (named : ∀ f, fieldOf (name f) = some f)
    (harmless : Harmless set a members) :
    decodeStruct fieldOf set a (encodeStruct name members) = setAll set a members := by
  show decodeMembers fieldOf set a _ = _
  induction members generalizing a with
  | nil => rfl
  | cons m members ih =>
      obtain ⟨same, rest⟩ := harmless
      rw [setAll]
      cases empty : m.empty with
      | true =>
          have here := same empty
          simp only [List.filter_cons, empty, Bool.not_true, here, Option.bind_some]
          exact ih (rest a here)
      | false =>
          simp only [List.filter_cons, empty, Bool.not_false, if_true, List.map_cons, decodeMembers,
            named]
          cases here : set a m.field m.value with
          | none => rfl
          | some a' => exact ih (rest a' here)

end

end Bbs.Json
