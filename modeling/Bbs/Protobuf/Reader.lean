import Bbs.Protobuf.Writer

/-!
Reading protobuf messages, as the `Unmarshal` and `skip` functions that `protoc-gen-gogo`
generates do it.

`Unmarshal` goes through the data with an index. It reads a tag and takes the case of its
`switch` for the field number, or skips a field it does not know. Lengths are read as signed
64-bit numbers and are not checked for their sign, so an index may come to lie before the place it
was at, or before the data: the code may panic, and it may go round in circles. A decoder
therefore takes fuel, and is `none` as long as it has not come to an end.

`Takes.decodes` is the way to show that data is decoded: field by field, along what was written.
-/

namespace Bbs.Protobuf

inductive DecodeError where
  /-- `io.ErrUnexpectedEOF` -/
  | unexpectedEOF
  | wrongWireType (wireType : Nat) (field : String)
  | illegalWireType (wireType : Nat)
  deriving DecidableEq

/-- The `Error()` method. -/
def DecodeError.error : DecodeError → String
  | .unexpectedEOF => "unexpected EOF"
  | .wrongWireType wireType field =>
      s!"proto: wrong wireType = {wireType} for field {field}"
  | .illegalWireType wireType => s!"proto: illegal wireType {wireType}"

/-- How a call ends. -/
inductive Result (α : Type) where
  | ok (a : α)
  | error (e : DecodeError)
  | panic

/-- Go on with what was returned, if anything was. -/
def andThen {α β : Type} (r : Option (Result α)) (next : α → Option (Result β)) :
    Option (Result β) :=
  match r with
  | none => none
  | some (.ok a) => next a
  | some (.error e) => some (.error e)
  | some .panic => some .panic

@[simp] theorem andThen_ok {α β : Type} (a : α) (next : α → Option (Result β)) :
    andThen (some (.ok a)) next = next a := rfl

/-- The result of an addition of two `int`s. -/
def wrap (n : Int) : Int :=
  n.bmod (2 ^ 64)

theorem wrap_of_small {n : Nat} (small : n < 2 ^ 63) : wrap n = n := by
  rw [wrap, Int.bmod_eq_of_le]
  · omega
  · omega

/-! ### Fields that are not known -/

mutual
/-- The number of bytes of the field in front. -/
def skip : Nat → List UInt8 → Option (Result Int)
  | 0, _ => none
  | fuel + 1, data =>
      match readVarint 64 data with
      | none => some (if data = [] then .panic else .error .unexpectedEOF)
      | some (wire, rest) =>
          let i := data.length - rest.length
          match wire.toNat % 8 with
          | 0 => some (match readVarint 64 rest with
              | none => .error .unexpectedEOF
              | some (_, rest) => .ok ((data.length - rest.length : Nat) : Int))
          | 1 => some (.ok (i + 8 : Nat))
          | 2 => some (match readVarint 64 rest with
              | none => .error .unexpectedEOF
              | some (length, rest) =>
                  .ok (wrap ((data.length - rest.length : Nat) + length.toInt)))
          | 3 => skipGroup fuel data i
          | 4 => some (.ok (i : Nat))
          | 5 => some (.ok (i + 4 : Nat))
          | wireType => some (.error (.illegalWireType wireType))

/-- The loop over the fields of a group, which ends behind the tag that ends it. -/
def skipGroup : Nat → List UInt8 → Int → Option (Result Int)
  | 0, _, _ => none
  | fuel + 1, data, i =>
      if data.length ≤ i then some (.error .unexpectedEOF)
      else if i < 0 then some .panic
      else match readVarint 64 (data.drop i.toNat) with
        | none => some (.error .unexpectedEOF)
        | some (innerWire, rest) =>
            if innerWire.toNat % 8 = 4 then some (.ok ((data.length - rest.length : Nat) : Int))
            else andThen (skip fuel (data.drop i.toNat)) fun next =>
              skipGroup fuel data (wrap (i + next))
end

/-- A field as some other program may write it, which knows more fields. -/
inductive Foreign where
  | varint (num : Nat) (value : UInt64)
  | fixed64 (num : Nat) (contents : Vector UInt8 8)
  | bytes (num : Nat) (contents : List UInt8)
  | group (num : Nat) (fields : List Foreign)
  | fixed32 (num : Nat) (contents : Vector UInt8 4)

namespace Foreign

def num : Foreign → Nat
  | .varint num _ => num
  | .fixed64 num _ => num
  | .bytes num _ => num
  | .group num _ => num
  | .fixed32 num _ => num

def wireType : Foreign → Nat
  | .varint .. => 0
  | .fixed64 .. => 1
  | .bytes .. => 2
  | .group .. => 3
  | .fixed32 .. => 5

def tag (field : Foreign) : List UInt8 :=
  encodeVarint (field.num * 8 + field.wireType)

mutual
def payload : Foreign → List UInt8
  | .varint _ value => encodeVarint value.toNat
  | .fixed64 _ contents => contents.toList
  | .bytes _ contents => encodeVarint contents.length ++ contents
  | .group num fields => groupPayload fields ++ encodeVarint (num * 8 + 4)
  | .fixed32 _ contents => contents.toList

def groupPayload : List Foreign → List UInt8
  | [] => []
  | field :: fields => field.tag ++ (field.payload ++ groupPayload fields)
end

end Foreign

/-! ### Places in the data -/

/-- At the index `i` of the data stands `rest`. -/
structure At (data : List UInt8) (i : Nat) (rest : List UInt8) : Prop where
  drop : data.drop i = rest
  length : i + rest.length = data.length

namespace At

variable {data bytes rest : List UInt8} {i v : Nat}

theorem zero (data : List UInt8) : At data 0 data :=
  ⟨rfl, Nat.zero_add _⟩

theorem append (place : At data i (bytes ++ rest)) : At data (i + bytes.length) rest := by
  refine ⟨?_, ?_⟩
  · rw [← List.drop_drop, place.drop, List.drop_left]
  · rw [← place.length, List.length_append]
    omega

/-- The index that the code has after it has read up to `rest`. -/
theorem index (place : At data i rest) : data.length - rest.length = i := by
  have length := place.length
  omega

theorem readVarint (place : At data i (encodeVarint v ++ rest)) (w : Nat) :
    Protobuf.readVarint w (data.drop i) = some (BitVec.ofNat w v, rest) := by
  rw [place.drop, readVarint_encodeVarint]

end At

theorem length_toInt {n : Nat} (small : n < 2 ^ 63) : (BitVec.ofNat 64 n).toInt = n := by
  rw [BitVec.toInt_ofNat', Int.bmod_eq_of_le] <;> omega

theorem length_encodeVarint_pos (v : Nat) : 0 < (encodeVarint v).length := by
  rw [length_encodeVarint]
  exact sov_pos v

theorem wireType_of_tag (num : Nat) {wireType : Nat} (type : wireType < 8) :
    (BitVec.ofNat 64 (num * 8 + wireType)).toNat % 8 = wireType := by
  rw [BitVec.toNat_ofNat]
  omega

/-! ### Skipping -/

mutual
/-- A field is skipped up to its end, whatever it is. -/
theorem Foreign.skip_eq : ∀ field : Foreign, ∃ needed, ∀ fuel, needed ≤ fuel →
    ∀ after : List UInt8, (field.tag ++ (field.payload ++ after)).length < 2 ^ 63 →
      skip fuel (field.tag ++ (field.payload ++ after)) =
        some (.ok (field.tag.length + field.payload.length : Nat))
  | .varint num value => by
      refine ⟨1, fun fuel enough after small => ?_⟩
      obtain ⟨fuel, rfl⟩ := Nat.exists_eq_add_of_le' enough
      have behind := (At.zero ((Foreign.varint num value).tag ++
        ((Foreign.varint num value).payload ++ after))).append.append
      simp only [Foreign.tag, Foreign.payload, Foreign.num, Foreign.wireType] at behind ⊢
      simp only [skip, readVarint_encodeVarint, wireType_of_tag num (by decide : 0 < 8),
        behind.index, Nat.zero_add]
  | .fixed64 num contents => by
      refine ⟨1, fun fuel enough after small => ?_⟩
      obtain ⟨fuel, rfl⟩ := Nat.exists_eq_add_of_le' enough
      simp only [Foreign.tag, Foreign.payload, Foreign.num, Foreign.wireType, skip,
        readVarint_encodeVarint, wireType_of_tag num (by decide : 1 < 8), List.length_append,
        Vector.length_toList, Nat.add_sub_cancel]
  | .bytes num contents => by
      refine ⟨1, fun fuel enough after small => ?_⟩
      obtain ⟨fuel, rfl⟩ := Nat.exists_eq_add_of_le' enough
      simp only [Foreign.tag, Foreign.payload, Foreign.num, Foreign.wireType,
        List.append_assoc] at small ⊢
      have behind := (At.zero (encodeVarint (num * 8 + 2) ++
        (encodeVarint contents.length ++ (contents ++ after)))).append.append
      simp only [skip, readVarint_encodeVarint, wireType_of_tag num (by decide : 2 < 8),
        behind.index]
      simp only [List.length_append] at small
      rw [length_toInt (by omega), ← Int.natCast_add, wrap_of_small (by omega), List.length_append,
        Nat.zero_add, Nat.add_assoc]
  | .group num fields => by
      obtain ⟨needed, skips⟩ := Foreign.skipGroup_eq fields
      refine ⟨needed + 1, fun fuel enough after small => ?_⟩
      obtain ⟨fuel, rfl⟩ : ∃ fuel', fuel = fuel' + 1 := ⟨fuel - 1, by omega⟩
      simp only [Foreign.tag, Foreign.payload, Foreign.num, Foreign.wireType,
        List.append_assoc] at small ⊢
      have behind := (At.zero (encodeVarint (num * 8 + 3) ++
        (groupPayload fields ++ (encodeVarint (num * 8 + 4) ++ after)))).append
      simp only [skip, readVarint_encodeVarint, wireType_of_tag num (by decide : 3 < 8),
        behind.index]
      rw [skips fuel (by omega) num behind small, Nat.zero_add, List.length_append, Nat.add_assoc]
  | .fixed32 num contents => by
      refine ⟨1, fun fuel enough after small => ?_⟩
      obtain ⟨fuel, rfl⟩ := Nat.exists_eq_add_of_le' enough
      simp only [Foreign.tag, Foreign.payload, Foreign.num, Foreign.wireType, skip,
        readVarint_encodeVarint, wireType_of_tag num (by decide : 5 < 8), List.length_append,
        Vector.length_toList, Nat.add_sub_cancel]

theorem Foreign.skipGroup_eq : ∀ fields : List Foreign, ∃ needed, ∀ fuel, needed ≤ fuel →
    ∀ (num : Nat) {data after : List UInt8} {i : Nat},
      At data i (groupPayload fields ++ (encodeVarint (num * 8 + 4) ++ after)) →
        data.length < 2 ^ 63 → skipGroup fuel data i =
          some (.ok (i + (groupPayload fields).length + (encodeVarint (num * 8 + 4)).length : Nat))
  | [] => by
      refine ⟨1, fun fuel enough num data after i place small => ?_⟩
      obtain ⟨fuel, rfl⟩ := Nat.exists_eq_add_of_le' enough
      rw [groupPayload, List.nil_append] at place
      have length := place.length
      have tag_pos := length_encodeVarint_pos (num * 8 + 4)
      rw [List.length_append] at length
      rw [skipGroup, if_neg (by omega), if_neg (by omega)]
      simp only [Int.toNat_natCast, place.readVarint, wireType_of_tag num (by decide : 4 < 8),
        if_true, place.append.index, groupPayload, List.length_nil, Nat.add_zero]
  | field :: fields => by
      obtain ⟨needed, skips⟩ := field.skip_eq
      obtain ⟨needed', skipsAll⟩ := Foreign.skipGroup_eq fields
      refine ⟨max needed needed' + 1, fun fuel enough num data after i place small => ?_⟩
      obtain ⟨fuel, rfl⟩ : ∃ fuel', fuel = fuel' + 1 := ⟨fuel - 1, by omega⟩
      have type : field.wireType < 8 ∧ field.wireType ≠ 4 := by
        cases field <;> simp [Foreign.wireType]
      simp only [groupPayload, List.append_assoc] at place
      have length := place.length
      have tag_pos := length_encodeVarint_pos (field.num * 8 + field.wireType)
      rw [← Foreign.tag] at tag_pos
      have inner := skips fuel (by omega)
        (groupPayload fields ++ (encodeVarint (num * 8 + 4) ++ after)) (by omega)
      rw [← place.drop] at inner
      have rest := skipsAll fuel (by omega) num place.append.append small
      simp only [List.length_append] at length
      rw [skipGroup, if_neg (by omega), if_neg (by omega)]
      simp only [Int.toNat_natCast, place.readVarint, wireType_of_tag field.num type.1, type.2,
        if_false]
      rw [inner, andThen_ok, ← Int.natCast_add, wrap_of_small (by omega), ← Nat.add_assoc, rest,
        groupPayload]
      simp only [List.length_append, Nat.add_assoc]
end

/-! ### `Unmarshal` -/

/-- Reads `data` into a message that may have contents already. -/
abbrev Decoder (M : Type) : Type :=
  Nat → List UInt8 → M → Option (Result M)

/-- The contents behind a length, and the index behind the contents. -/
def delimited (data : List UInt8) (i : Nat) : Result (List UInt8 × Nat) :=
  match readVarint 64 (data.drop i) with
  | none => .error .unexpectedEOF
  | some (length, rest) =>
      let postIndex := wrap ((data.length - rest.length : Nat) + length.toInt)
      if data.length < postIndex then .error .unexpectedEOF
      else if postIndex < (data.length - rest.length : Nat) then .panic
      else .ok (rest.take (postIndex.toNat - (data.length - rest.length)), postIndex.toNat)

/-- A case of the `switch` over the field numbers. It reads at an index of the data, behind the
tag, and moves the index. -/
structure Case (M : Type) where
  name : String
  wireType : Nat
  body : Nat → List UInt8 → Nat → M → Option (Result (M × Int))

section

variable {M N : Type}

namespace Case

/-- A number of `w` bits. -/
def varint (w : Nat) (name : String) (set : M → BitVec w → M) : Case M where
  name := name
  wireType := 0
  body _ data i m := some (match readVarint w (data.drop i) with
    | none => .error .unexpectedEOF
    | some (v, rest) => .ok (set m v, (data.length - rest.length : Nat)))

/-- A string or bytes. -/
def bytes (name : String) (set : M → List UInt8 → M) : Case M where
  name := name
  wireType := 2
  body _ data i m := andThen (some (delimited data i)) fun (contents, j) =>
    some (.ok (set m contents, j))

/-- A message, which is read into `target`. -/
def message (name : String) (read : Decoder N) (target : M → N) (set : M → N → M) : Case M where
  name := name
  wireType := 2
  body fuel data i m := andThen (some (delimited data i)) fun (contents, j) =>
    andThen (read fuel contents (target m)) fun n => some (.ok (set m n, j))

/-- An entry of a map. Its parts are read up to the end of the data, not of the entry; where the
entry ends is only where the index is moved to. The tags of the parts are not looked at. -/
def entry (name : String) (insert : M → List UInt8 → List UInt8 → M) : Case M where
  name := name
  wireType := 2
  body _ data i m :=
    match readVarint 64 (data.drop i) with
    | none => some (.error .unexpectedEOF)
    | some (length, rest) =>
        let postIndex := wrap ((data.length - rest.length : Nat) + length.toInt)
        if data.length < postIndex then some (.error .unexpectedEOF)
        else match readVarint 64 rest with
          | none => some (.error .unexpectedEOF)
          | some (_, rest) =>
              andThen (some (delimited data (data.length - rest.length))) fun (key, j) =>
                match readVarint 64 (data.drop j) with
                | none => some (.error .unexpectedEOF)
                | some (_, rest) =>
                    andThen (some (delimited data (data.length - rest.length))) fun (value, _) =>
                      some (.ok (insert m key value, postIndex))

end Case

def unmarshalLoop (cases : List (Nat × Case M)) (data : List UInt8) :
    Nat → Int → M → Option (Result M)
  | 0, _, _ => none
  | fuel + 1, i, m =>
      if data.length ≤ i then some (.ok m)
      else if i < 0 then some .panic
      else match readVarint 64 (data.drop i.toNat) with
        | none => some (.error .unexpectedEOF)
        | some (wire, rest) =>
            let j := data.length - rest.length
            -- the field number is an `int32`
            match cases.lookup (wire.toNat / 8 % 2 ^ 32) with
            | some c =>
                if wire.toNat % 8 ≠ c.wireType then
                  some (.error (.wrongWireType (wire.toNat % 8) c.name))
                else andThen (c.body fuel data j m) fun (m, k) => unmarshalLoop cases data fuel k m
            | none =>
                -- back to the tag, by the bytes it needs and not by those it had
                let start := j - sov wire.toNat
                andThen (skip fuel (data.drop start)) fun skippy =>
                  let k := wrap (start + skippy)
                  if data.length < k then some (.error .unexpectedEOF)
                  else unmarshalLoop cases data fuel k m

def unmarshal (cases : List (Nat × Case M)) : Decoder M :=
  fun fuel data m => unmarshalLoop cases data fuel 0 m

/-! ### Decoding what was written -/

/-- With enough fuel, the decoder reads `data` into `m` and gets `m'`. -/
def Decodes (read : Decoder M) (data : List UInt8) (m m' : M) : Prop :=
  ∃ needed, ∀ fuel, needed ≤ fuel → read fuel data m = some (.ok m')

theorem Decodes.unique {read : Decoder M} {data : List UInt8} {m a b : M}
    (first : Decodes read data m a) (second : Decodes read data m b) : a = b := by
  obtain ⟨needed, reads⟩ := first
  obtain ⟨needed', reads'⟩ := second
  have same := (reads (max needed needed') (le_max_left _ _)).symm.trans
    (reads' (max needed needed') (le_max_right _ _))
  cases same
  rfl

open Classical in
/-- How the decoder ends, if it comes to an end at all. -/
noncomputable def outcome (read : Decoder M) (data : List UInt8) (m : M) : Option (Result M) :=
  if ends : ∃ r needed, ∀ fuel, needed ≤ fuel → read fuel data m = some r then some ends.choose
  else none

theorem outcome_eq {read : Decoder M} {data : List UInt8} {m : M} {r : Result M} (needed : Nat)
    (reads : ∀ fuel, needed ≤ fuel → read fuel data m = some r) : outcome read data m = some r := by
  have ends : ∃ r needed, ∀ fuel, needed ≤ fuel → read fuel data m = some r := ⟨_, needed, reads⟩
  obtain ⟨needed', reads'⟩ := ends.choose_spec
  rw [outcome, dif_pos ends, ← reads' (max needed needed') (le_max_right _ _),
    reads (max needed needed') (le_max_left _ _)]

theorem Decodes.outcome_eq {read : Decoder M} {data : List UInt8} {m m' : M}
    (decodes : Decodes read data m m') : outcome read data m = some (.ok m') := by
  obtain ⟨needed, reads⟩ := decodes
  exact Protobuf.outcome_eq needed reads

theorem At.delimited {data contents rest : List UInt8} {i : Nat}
    (place : At data i (encodeVarint contents.length ++ (contents ++ rest)))
    (small : data.length < 2 ^ 63) :
    Protobuf.delimited data i =
      .ok (contents, i + (encodeVarint contents.length).length + contents.length) := by
  have inside := place.append.length
  rw [List.length_append] at inside
  simp only [Protobuf.delimited, place.readVarint, place.append.index]
  rw [length_toInt (by omega), ← Int.natCast_add, wrap_of_small (by omega), if_neg (by omega),
    if_neg (by omega), Int.toNat_natCast, Nat.add_sub_cancel_left, List.take_left]

/-- The case reads `payload`, wherever it stands in the data, and gets from `m` to `m'`. -/
def Case.Reads (c : Case M) (payload : List UInt8) (m m' : M) : Prop :=
  ∃ needed, ∀ fuel, needed ≤ fuel → ∀ {data rest : List UInt8} {i : Nat},
    At data i (payload ++ rest) → data.length < 2 ^ 63 →
      c.body fuel data i m = some (.ok (m', (i + payload.length : Nat)))

theorem Case.varint_reads (w : Nat) (name : String) (set : M → BitVec w → M) (v : Nat) (m : M) :
    (Case.varint w name set).Reads (encodeVarint v) m (set m (BitVec.ofNat w v)) := by
  refine ⟨0, fun fuel _ data rest i place _ => ?_⟩
  simp only [Case.varint, place.readVarint, place.append.index]

theorem Case.bytes_reads (name : String) (set : M → List UInt8 → M) (contents : List UInt8)
    (m : M) :
    (Case.bytes name set).Reads (encodeVarint contents.length ++ contents) m (set m contents) := by
  refine ⟨0, fun fuel _ data rest i place small => ?_⟩
  rw [List.append_assoc] at place
  simp only [Case.bytes, place.delimited small, andThen_ok, List.length_append, Nat.add_assoc]

theorem Case.message_reads (name : String) {read : Decoder N} (target : M → N) (set : M → N → M)
    {contents : List UInt8} {m : M} {n : N}
    (decodes : contents.length < 2 ^ 63 → Decodes read contents (target m) n) :
    (Case.message name read target set).Reads (encodeVarint contents.length ++ contents) m
      (set m n) := by
  -- how much fuel is needed depends on the contents only
  by_cases short : contents.length < 2 ^ 63
  · obtain ⟨needed, reads⟩ := decodes short
    refine ⟨needed, fun fuel enough data rest i place small => ?_⟩
    rw [List.append_assoc] at place
    simp only [Case.message, place.delimited small, andThen_ok, reads fuel enough,
      List.length_append, Nat.add_assoc]
  · refine ⟨0, fun fuel _ data rest i place small => ?_⟩
    have length := place.length
    simp only [List.length_append] at length
    omega

theorem Case.entry_reads (name : String) (insert : M → List UInt8 → List UInt8 → M)
    (key value : List UInt8) (m : M) :
    (Case.entry name insert).Reads
      (encodeVarint (encodeAll [.bytes 1 key, .bytes 2 value]).length ++
        encodeAll [.bytes 1 key, .bytes 2 value]) m (insert m key value) := by
  refine ⟨0, fun fuel _ data rest i place small => ?_⟩
  have entry_eq : encodeAll [.bytes 1 key, .bytes 2 value] ++ rest = encodeVarint 10 ++
      (encodeVarint key.length ++ (key ++ (encodeVarint 18 ++
        (encodeVarint value.length ++ (value ++ rest))))) := by
    simp [encodeAll, Item.tag, Item.num, Item.wireType, Item.payload]
  have length := place.length
  rw [List.append_assoc] at place
  have behind := place.append
  simp only [List.length_append] at length
  simp only [Case.entry, place.readVarint, behind.index]
  rw [length_toInt (by omega), ← Int.natCast_add, wrap_of_small (by omega), if_neg (by omega),
    List.length_append, ← Nat.add_assoc]
  rw [entry_eq] at behind ⊢
  -- the two parts, one behind the other
  have key_read := behind.append.delimited small
  have value_tag := behind.append.append.append
  have value_read := value_tag.append.delimited small
  simp only [readVarint_encodeVarint, behind.append.index, key_read, andThen_ok,
    value_tag.readVarint, value_tag.append.index, value_read]

/-- The fields are read one after the other by the cases that there are for them. -/
inductive Takes (cases : List (Nat × Case M)) : List Item → M → M → Prop where
  | nil (m : M) : Takes cases [] m m
  | cons {item : Item} {items : List Item} {c : Case M} {m m' m'' : M}
      (found : cases.lookup item.num = some c) (type : c.wireType = item.wireType)
      (reads : c.Reads item.payload m m') (rest : Takes cases items m' m'') :
      Takes cases (item :: items) m m''

theorem Takes.append {cases : List (Nat × Case M)} {items items' : List Item} {m m' m'' : M}
    (first : Takes cases items m m') (second : Takes cases items' m' m'') :
    Takes cases (items ++ items') m m'' := by
  induction first with
  | nil m => exact second
  | cons found type reads _ ih => exact .cons found type reads (ih second)

theorem mem_of_lookup {cases : List (Nat × Case M)} {num : Nat} {c : Case M}
    (found : cases.lookup num = some c) : (num, c) ∈ cases := by
  induction cases with
  | nil => cases found
  | cons entry cases ih =>
    rw [List.lookup_cons] at found
    split at found
    · rename_i same
      cases found
      rw [beq_iff_eq] at same
      subst same
      exact List.mem_cons_self
    · exact List.mem_cons_of_mem _ (ih found)

/-- The data of a message, with fields in between that there is no case for. -/
inductive Woven (cases : List (Nat × Case M)) : List Item → List UInt8 → Prop where
  | nil : Woven cases [] []
  | item (item : Item) {items : List Item} {data : List UInt8} (rest : Woven cases items data) :
      Woven cases (item :: items) (item.tag ++ (item.payload ++ data))
  | foreign (field : Foreign) {items : List Item} {data : List UInt8}
      (unknown : cases.lookup field.num = none) (small : field.num < 2 ^ 29)
      (rest : Woven cases items data) : Woven cases items (field.tag ++ (field.payload ++ data))

theorem woven_encodeAll (cases : List (Nat × Case M)) (items : List Item) :
    Woven cases items (encodeAll items) := by
  induction items with
  | nil => exact .nil
  | cons item items ih =>
    rw [encodeAll, List.append_assoc]
    exact .item item ih

theorem tag_toNat {num wireType : Nat} (known : num < 2 ^ 29) (type : wireType < 8) :
    (BitVec.ofNat 64 (num * 8 + wireType)).toNat = num * 8 + wireType := by
  rw [BitVec.toNat_ofNat, Nat.mod_eq_of_lt (by omega)]

theorem unmarshalLoop_item {cases : List (Nat × Case M)} {item : Item} {c : Case M} {m m' : M}
    (found : cases.lookup item.num = some c) (known : item.num < 2 ^ 29)
    (type : c.wireType = item.wireType) {fuel : Nat} {data rest : List UInt8} {i : Nat}
    (place : At data i (item.tag ++ (item.payload ++ rest)))
    (body : c.body fuel data (i + item.tag.length) m =
      some (.ok (m', (i + item.tag.length + item.payload.length : Nat)))) :
    unmarshalLoop cases data (fuel + 1) i m =
      unmarshalLoop cases data fuel (i + item.tag.length + item.payload.length : Nat) m' := by
  have small : item.wireType < 8 := by
    cases item <;> simp [Item.wireType]
  have tag_pos : 0 < item.tag.length := length_encodeVarint_pos _
  have length := place.length
  have num : (item.num * 8 + item.wireType) / 8 % 2 ^ 32 = item.num := by
    omega
  have wireType : (item.num * 8 + item.wireType) % 8 = item.wireType := by
    omega
  rw [List.length_append] at length
  rw [unmarshalLoop, if_neg (by omega), if_neg (by omega)]
  simp only [Int.toNat_natCast, place.readVarint, tag_toNat known small, num, found, wireType, type,
    ne_eq, not_true_eq_false, if_false, place.append.index]
  rw [body, andThen_ok]

theorem unmarshalLoop_foreign {cases : List (Nat × Case M)} {field : Foreign}
    (unknown : cases.lookup field.num = none) (known : field.num < 2 ^ 29) {fuel : Nat}
    {data rest : List UInt8} {i : Nat} (place : At data i (field.tag ++ (field.payload ++ rest)))
    (small : data.length < 2 ^ 63)
    (skips : skip fuel (field.tag ++ (field.payload ++ rest)) =
      some (.ok (field.tag.length + field.payload.length : Nat))) (m : M) :
    unmarshalLoop cases data (fuel + 1) i m =
      unmarshalLoop cases data fuel (i + field.tag.length + field.payload.length : Nat) m := by
  have type : field.wireType < 8 := by
    cases field <;> simp [Foreign.wireType]
  have tag_pos : 0 < field.tag.length := length_encodeVarint_pos _
  have length := place.length
  have num : (field.num * 8 + field.wireType) / 8 % 2 ^ 32 = field.num := by
    omega
  -- the tag was written with no more bytes than it needs
  have back : i + field.tag.length - sov (field.num * 8 + field.wireType) = i := by
    rw [← length_encodeVarint, ← Foreign.tag, Nat.add_sub_cancel]
  simp only [List.length_append] at length
  rw [unmarshalLoop, if_neg (by omega), if_neg (by omega)]
  simp only [Int.toNat_natCast, place.readVarint, tag_toNat known type, num, unknown,
    place.append.index]
  rw [back, place.drop, skips, andThen_ok, ← Int.natCast_add, wrap_of_small (by omega),
    if_neg (by omega), Nat.add_assoc]

/-- Along the data of a message: each field is read by its case, or skipped. -/
theorem Takes.unmarshalLoop_eq {cases : List (Nat × Case M)}
    (known : ∀ entry ∈ cases, entry.1 < 2 ^ 29) {items : List Item} {rest : List UInt8}
    (woven : Woven cases items rest) :
    ∀ {m m' : M}, Takes cases items m m' → ∃ needed, ∀ fuel, needed ≤ fuel →
      ∀ {data : List UInt8} {i : Nat}, At data i rest → data.length < 2 ^ 63 →
        unmarshalLoop cases data fuel i m = some (.ok m') := by
  induction woven with
  | nil =>
    rintro m m' ⟨⟩
    refine ⟨1, fun fuel enough data i place _ => ?_⟩
    obtain ⟨fuel, rfl⟩ := Nat.exists_eq_add_of_le' enough
    have length := place.length
    rw [List.length_nil] at length
    rw [unmarshalLoop, if_pos (by omega)]
  | @item item items rest _ ih =>
    rintro m m'' (_ | @⟨_, _, c, _, m', _, found, type, reads, takes⟩)
    obtain ⟨needed, ih⟩ := ih takes
    obtain ⟨needed', reads⟩ := reads
    refine ⟨max needed needed' + 1, fun fuel enough data i place small => ?_⟩
    obtain ⟨fuel, rfl⟩ : ∃ fuel', fuel = fuel' + 1 := ⟨fuel - 1, by omega⟩
    have body := reads fuel (by omega) place.append small
    rw [unmarshalLoop_item found (known _ (mem_of_lookup found)) type place body]
    exact ih fuel (by omega) place.append.append small
  | @foreign field items rest unknown number _ ih =>
    intro m m' takes
    obtain ⟨needed, ih⟩ := ih takes
    obtain ⟨needed', skips⟩ := field.skip_eq
    refine ⟨max needed needed' + 1, fun fuel enough data i place small => ?_⟩
    obtain ⟨fuel, rfl⟩ : ∃ fuel', fuel = fuel' + 1 := ⟨fuel - 1, by omega⟩
    have length := place.length
    have inner := skips fuel (by omega) rest (by omega)
    rw [unmarshalLoop_foreign unknown number place small inner]
    exact ih fuel (by omega) place.append.append small

/-- What was written field by field is read field by field, and what stands in between does not
matter. -/
theorem Takes.decodes {cases : List (Nat × Case M)} {items : List Item} {m m' : M}
    (takes : Takes cases items m m') (known : ∀ entry ∈ cases, entry.1 < 2 ^ 29)
    {data : List UInt8} (woven : Woven cases items data) (small : data.length < 2 ^ 63) :
    Decodes (unmarshal cases) data m m' := by
  obtain ⟨needed, reads⟩ := takes.unmarshalLoop_eq known woven
  exact ⟨needed, fun fuel enough => reads fuel enough (At.zero data) small⟩

end

end Bbs.Protobuf
