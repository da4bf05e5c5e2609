import Bbs.Protobuf.Fields

/-!
Message types that contain themselves.

The `Unmarshal` of such a type calls itself for the messages inside. What a decoder does with some
fuel depends only on what the decoders of the messages inside do with less (`unmarshal_agree`), so
a decoder that is built up level by level does not change any more once there are as many levels as
there is fuel. `unroll_eq` is the equation that the recursive method satisfies.
-/

namespace Bbs.Protobuf

section

variable {M N : Type}

/-- The decoders do the same as long as they have less than `n` fuel. -/
def AgreeBelow (n : Nat) (read read' : Decoder M) : Prop :=
  ∀ fuel < n, read fuel = read' fuel

theorem AgreeBelow.mono {n k : Nat} {read read' : Decoder M} (agree : AgreeBelow n read read')
    (le : k ≤ n) : AgreeBelow k read read' :=
  fun fuel below => agree fuel (Nat.lt_of_lt_of_le below le)

/-- The same case, up to what it does with `n` fuel or more. -/
structure Case.AgreeBelow (n : Nat) (c c' : Case M) : Prop where
  name : c.name = c'.name
  wireType : c.wireType = c'.wireType
  body : ∀ fuel < n, c.body fuel = c'.body fuel

theorem Case.AgreeBelow.refl (n : Nat) (c : Case M) : c.AgreeBelow n c :=
  ⟨rfl, rfl, fun _ _ => rfl⟩

theorem Case.message_agree {n : Nat} {read read' : Decoder N}
    (agree : Protobuf.AgreeBelow n read read') (name : String) (target : M → N) (set : M → N → M) :
    (Case.message name read target set).AgreeBelow n (Case.message name read' target set) := by
  refine ⟨rfl, rfl, fun fuel below => ?_⟩
  simp only [Case.message, agree fuel below]

def MessageField.AgreeBelow (n : Nat) (field field' : MessageField M) : Prop :=
  field.num = field'.num ∧ field.read.AgreeBelow n field'.read

def FieldsAgree (n : Nat) (fields fields' : List (MessageField M)) : Prop :=
  List.Forall₂ (MessageField.AgreeBelow n) fields fields'

theorem lookup_agree {n : Nat} {fields fields' : List (MessageField M)}
    (agree : FieldsAgree n fields fields') (num : Nat) :
    Option.Rel (Case.AgreeBelow n) ((switch fields).lookup num) ((switch fields').lookup num) := by
  induction agree with
  | nil => exact .none
  | @cons field field' fields fields' same _ ih =>
    simp only [switch, List.map_cons, List.lookup_cons, same.1]
    split
    · exact .some same.2
    · exact ih

theorem andThen_congr {r : Option (Result M)} {next next' : M → Option (Result N)}
    (same : ∀ m, next m = next' m) : andThen r next = andThen r next' := by
  rw [funext same]

/-- Every step of the loop hands on less fuel than it has. -/
theorem unmarshalLoop_agree {n : Nat} {fields fields' : List (MessageField M)}
    (agree : FieldsAgree n fields fields') (data : List UInt8) :
    ∀ fuel ≤ n, ∀ (i : Int) (m : M),
      unmarshalLoop (switch fields) data fuel i m =
        unmarshalLoop (switch fields') data fuel i m := by
  intro fuel
  induction fuel with
  | zero =>
    intro _ i m
    rfl
  | succ fuel ih =>
    intro enough i m
    rw [unmarshalLoop, unmarshalLoop]
    refine if_congr Iff.rfl rfl (if_congr Iff.rfl rfl ?_)
    cases readVarint 64 (data.drop i.toNat) with
    | none => rfl
    | some tag =>
      obtain ⟨wire, rest⟩ := tag
      have same := lookup_agree agree (wire.toNat / 8 % 2 ^ 32)
      dsimp only
      generalize (switch fields).lookup (wire.toNat / 8 % 2 ^ 32) = found at same ⊢
      generalize (switch fields').lookup (wire.toNat / 8 % 2 ^ 32) = found' at same ⊢
      cases same with
      | none =>
        refine andThen_congr fun skippy => ?_
        exact if_congr Iff.rfl rfl (ih (by omega) _ m)
      | some same =>
        simp only [same.name, same.wireType, same.body fuel (by omega)]
        refine if_congr Iff.rfl rfl (andThen_congr fun read => ?_)
        exact ih (by omega) _ _

/-- What a message type reads depends on the message types inside. -/
theorem unmarshal_agree {n : Nat} {fields fields' : List (MessageField M)}
    (agree : FieldsAgree n fields fields') :
    AgreeBelow (n + 1) (unmarshal (switch fields)) (unmarshal (switch fields')) := by
  intro fuel below
  funext data m
  exact unmarshalLoop_agree agree data fuel (by omega) 0 m

/-! ### Fields that agree -/

structure Message.AgreeBelow (n : Nat) (message message' : Message M) : Prop where
  zero : message.zero = message'.zero
  read : Protobuf.AgreeBelow n message.read message'.read

theorem Message.ofFields_agree {n : Nat} (zero : M) {fields fields' : List (MessageField M)}
    (agree : FieldsAgree n fields fields') (normal normal' : M → M) :
    (ofFields zero fields normal).AgreeBelow n (ofFields zero fields' normal') :=
  ⟨rfl, (unmarshal_agree agree).mono (Nat.le_succ n)⟩

@[simp] theorem MessageField.AgreeBelow.refl (n : Nat) (field : MessageField M) :
    field.AgreeBelow n field :=
  ⟨rfl, Case.AgreeBelow.refl n _⟩

theorem MessageField.optional_agree {n : Nat} {message message' : Message N}
    (agree : message.AgreeBelow n message') (num : Nat) (name : String) (get : M → Option N)
    (put : M → Option N → M) :
    (optional num name message get put).AgreeBelow n (optional num name message' get put) := by
  refine ⟨rfl, ?_⟩
  simp only [optional, agree.zero]
  exact Case.message_agree agree.read _ _ _

theorem MessageField.repeatedMessage_agree {n : Nat} {message message' : Message N}
    (agree : message.AgreeBelow n message') (num : Nat) (name : String)
    (get : M → List (Option N)) (put : M → List (Option N) → M) :
    (repeatedMessage num name message get put).AgreeBelow n
      (repeatedMessage num name message' get put) := by
  refine ⟨rfl, ?_⟩
  simp only [repeatedMessage, agree.zero]
  exact Case.message_agree agree.read _ _ _

/-! ### Unrolling -/

/-- A message type of which only the reading is used. -/
def Message.reader (zero : M) (read : Decoder M) : Message M where
  zero := zero
  write _ := none
  read := read
  normal := id

/-- `levels` calls inside one another. -/
def unrollTo (zero : M) (fields : Message M → List (MessageField M)) : Nat → Decoder M
  | 0 => fun _ _ _ => none
  | levels + 1 => unmarshal (switch (fields (.reader zero (unrollTo zero fields levels))))

/-- The recursive method. There are never more calls inside one another than there is fuel. -/
def unroll (zero : M) (fields : Message M → List (MessageField M)) : Decoder M :=
  fun fuel => unrollTo zero fields fuel fuel

variable {zero : M} {fields : Message M → List (MessageField M)}
  (fields_agree : ∀ {n message message'}, message.AgreeBelow n message' →
    FieldsAgree n (fields message) (fields message'))

include fields_agree

theorem unrollTo_succ (levels : Nat) :
    AgreeBelow (levels + 1) (unrollTo zero fields levels) (unrollTo zero fields (levels + 1)) := by
  induction levels with
  | zero =>
    intro fuel below
    obtain rfl : fuel = 0 := by omega
    rfl
  | succ levels ih => exact unmarshal_agree (fields_agree ⟨rfl, ih⟩)

theorem unrollTo_add (levels k : Nat) :
    AgreeBelow (levels + 1) (unrollTo zero fields levels)
      (unrollTo zero fields (levels + k)) := by
  induction k with
  | zero => exact fun _ _ => rfl
  | succ k ih =>
    intro fuel below
    rw [ih fuel below]
    exact unrollTo_succ fields_agree (levels + k) fuel (by omega)

theorem unroll_agree (levels : Nat) :
    AgreeBelow (levels + 1) (unroll zero fields) (unrollTo zero fields levels) := by
  intro fuel below
  obtain ⟨k, rfl⟩ := Nat.exists_eq_add_of_le (Nat.le_of_lt_succ below)
  exact unrollTo_add fields_agree fuel k fuel (Nat.lt_succ_self fuel)

/-- The method is the one generated from the fields, with itself for the messages inside. -/
theorem unroll_eq {message : Message M} (zero_eq : message.zero = zero)
    (read_eq : message.read = unroll zero fields) :
    unroll zero fields = unmarshal (switch (fields message)) := by
  funext fuel
  have inside : message.AgreeBelow (fuel + 1)
      (.reader zero (unrollTo zero fields fuel)) :=
    ⟨zero_eq, read_eq ▸ unroll_agree fields_agree fuel⟩
  have outside := unmarshal_agree (fields_agree inside) fuel (by omega)
  rw [outside]
  exact unroll_agree fields_agree (fuel + 1) fuel (by omega)

end

end Bbs.Protobuf
