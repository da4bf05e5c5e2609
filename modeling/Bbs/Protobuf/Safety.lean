import Bbs.Protobuf.Recursion

/-!
When `Unmarshal` returns, and when it does not.

The code takes a length as it stands, also one that is negative or that makes the index overflow.
Such a length has at least nine bytes, and a ninth byte of 0x40 or more. In data in which no eight
bytes with the high bit set are followed by such a byte (`Tame`), every varint is below 2 ^ 62, and
the index only moves forward: `SafeBelow` says that `Unmarshal` then ends with a message or an
error, with an amount of fuel that is twice the length of the data. It is kept by all kinds of
fields. Outside of such data there are fields that bring the index back to where they begin, and
`Unmarshal` does not end (`unmarshalLoop_circle`), or that make it panic (`unmarshal_panics`).
-/

namespace Bbs.Protobuf

/-! ### Short varints -/

/-- Behind eight bytes in a row with the high bit set, there is no byte of 0x40 or more. -/
def Tame (data : List UInt8) : Prop :=
  ∀ run b, run ++ [b] <:+: data → run.length = 8 → (∀ c ∈ run, ¬ c < 0x80) → b < 0x40

theorem Tame.of_infix {data part : List UInt8} (tame : Tame data) (inside : part <:+: data) :
    Tame part :=
  fun run b within => tame run b (within.trans inside)

theorem Tame.drop {data : List UInt8} (tame : Tame data) (i : Nat) : Tame (data.drop i) :=
  tame.of_infix (List.drop_suffix i data).isInfix

theorem tame_of_low {data : List UInt8} (low : ∀ b ∈ data, b < 0x80) : Tame data := by
  intro run b inside eight set
  obtain ⟨c, mem⟩ := List.exists_mem_of_length_pos (by omega : 0 < run.length)
  exact absurd (low c (inside.subset (List.mem_append_left _ mem))) (set c mem)

/-- Before the last byte of a varint at most eight bytes have the high bit set, and with eight the
last byte is small. -/
theorem Tame.ninth {high rest : List UInt8} {last : UInt8} (tame : Tame (high ++ last :: rest))
    (set : ∀ b ∈ high, ¬ b < 0x80) : high.length < 8 ∨ high.length = 8 ∧ last < 0x40 := by
  obtain short | long := Nat.lt_or_ge high.length 8
  · exact .inl short
  have eight : (high.take 8).length = 8 := by
    rw [List.length_take]
    omega
  have set' : ∀ b ∈ high.take 8, ¬ b < 0x80 := fun b mem => set b (List.mem_of_mem_take mem)
  have whole : high.take 8 ++ high.drop 8 = high := List.take_append_drop 8 high
  cases more : high.drop 8 with
  | nil =>
    rw [more, List.append_nil] at whole
    rw [whole] at eight
    exact .inr ⟨eight, tame high last ⟨[], rest, by simp⟩ eight set⟩
  | cons b others =>
    rw [more] at whole
    have inside : high.take 8 ++ [b] <:+: high ++ last :: rest := by
      refine ⟨[], others ++ last :: rest, ?_⟩
      conv_rhs => rw [← whole]
      simp
    have low : b < 0x40 := tame (high.take 8) b inside eight set'
    have mem : b ∈ high := by
      rw [← whole]
      simp
    exact absurd (UInt8.lt_trans low (by decide)) (set b mem)

/-- Each byte adds seven bits, or fewer if it is small. -/
theorem accumulate_lt {acc : BitVec 64} {shift p : Nat} {b : UInt8} (small : acc.toNat < 2 ^ shift)
    (bits : b.toNat % 128 < 2 ^ p) :
    (acc ||| (BitVec.ofNat 64 b.toNat &&& 0x7F) <<< shift).toNat < 2 ^ (shift + p) := by
  rw [BitVec.toNat_or, and_seven_bits, BitVec.toNat_shiftLeft, BitVec.toNat_ofNat]
  refine Nat.or_lt_two_pow (small.trans_le (Nat.pow_le_pow_right (by omega) (by omega))) ?_
  refine (Nat.mod_le _ _).trans_lt ?_
  rw [Nat.shiftLeft_eq, Nat.add_comm, Nat.pow_add]
  exact Nat.mul_lt_mul_of_pos_right ((Nat.mod_le _ _).trans_lt bits) (Nat.two_pow_pos shift)

/-- What has been read is a varint, and its last byte bounds the number. -/
theorem varintLoop_lt {acc v : BitVec 64} {shift : Nat} {data rest : List UInt8}
    (read : varintLoop 64 acc shift data = some (v, rest)) (small : acc.toNat < 2 ^ shift) :
    ∃ high last, data = high ++ last :: rest ∧ (∀ b ∈ high, ¬ b < 0x80) ∧ last < 0x80 ∧
      ∀ p, last.toNat < 2 ^ p → v.toNat < 2 ^ (shift + 7 * high.length + p) := by
  induction data generalizing acc shift with
  | nil => cases read
  | cons b data ih =>
    rw [varintLoop] at read
    split at read
    · next low =>
      cases read
      exact ⟨[], b, rfl, by simp, low,
        fun p bits => accumulate_lt small ((Nat.mod_le _ _).trans_lt bits)⟩
    · next first =>
      obtain ⟨high, last, rfl, set, low, bound⟩ :=
        ih read (accumulate_lt small (Nat.mod_lt _ (by decide : 0 < 2 ^ 7)))
      refine ⟨b :: high, last, rfl, List.forall_mem_cons.2 ⟨first, set⟩, low, fun p bits => ?_⟩
      rw [List.length_cons]
      convert bound p bits using 2
      omega

theorem sov_le {k v : Nat} (pos : 0 < k) (small : v < 2 ^ (7 * k)) : sov v ≤ k := by
  induction k generalizing v with
  | zero => cases pos
  | succ k ih =>
    rw [sov]
    split
    · omega
    · next large =>
      obtain rfl | pos := Nat.eq_zero_or_pos k
      · omega
      · have shorter : v / 128 < 2 ^ (7 * k) := by
          rw [Nat.mul_add, Nat.pow_add] at small
          exact Nat.div_lt_of_lt_mul (by omega)
        have le := ih pos shorter
        omega

/-- What is read from tame data: a number that is far from overflowing an index, and needs no more
bytes than it had. -/
structure ShortRead (data : List UInt8) (v : BitVec 64) (rest : List UInt8) : Prop where
  moves : rest.length < data.length
  suffix : rest <:+ data
  small : v.toNat < 2 ^ 62
  sov_le : rest.length + sov v.toNat ≤ data.length

theorem Tame.readVarint {data rest : List UInt8} {v : BitVec 64} (tame : Tame data)
    (read : readVarint 64 data = some (v, rest)) : ShortRead data v rest := by
  obtain ⟨high, last, rfl, set, low, bound⟩ :=
    varintLoop_lt read (by decide : (0 : BitVec 64).toNat < 2 ^ 0)
  have seven := bound 7 (UInt8.lt_iff_toNat_lt.1 low)
  rw [Nat.zero_add] at seven
  refine ⟨?_, ⟨high ++ [last], by simp⟩, ?_, ?_⟩
  · rw [List.length_append, List.length_cons]
    omega
  · obtain short | ⟨eight, tiny⟩ := tame.ninth set
    · exact seven.trans_le (Nat.pow_le_pow_right (by omega) (by omega))
    · have six := bound 6 (UInt8.lt_iff_toNat_lt.1 tiny)
      rwa [eight] at six
  · have le : sov v.toNat ≤ high.length + 1 := Protobuf.sov_le (by omega) seven
    rw [List.length_append, List.length_cons]
    omega

/-! ### Ending -/

/-- The call ends with an error or, if it succeeds, with something as stated. It does not panic. -/
inductive Returns {α : Type} (P : α → Prop) : Option (Result α) → Prop where
  | ok {a : α} : P a → Returns P (some (.ok a))
  | error (e : DecodeError) : Returns P (some (.error e))

theorem Returns.andThen {α β : Type} {P : α → Prop} {Q : β → Prop} {r : Option (Result α)}
    {next : α → Option (Result β)} (first : Returns P r) (second : ∀ a, P a → Returns Q (next a)) :
    Returns Q (andThen r next) := by
  cases first with
  | ok holds => exact second _ holds
  | error e => exact .error e

theorem toInt_of_small {v : BitVec 64} (small : v.toNat < 2 ^ 62) : v.toInt = v.toNat := by
  rw [BitVec.toInt_eq_toNat_cond, if_pos (by omega)]

/-- What skipping gives in tame data: some bytes, and not so many that adding them to an index
would overflow. -/
def Forward (k : Int) : Prop :=
  1 ≤ k ∧ k < 2 ^ 61 + 2 ^ 62

/-- By induction on the fuel. Skipping a field needs twice its bytes, since a group and the first
field in it begin with a tag each. -/
theorem skip_returns (fuel : Nat) :
    (∀ data : List UInt8, Tame data → data.length < 2 ^ 61 → data ≠ [] → 2 * data.length ≤ fuel →
      Returns Forward (skip fuel data)) ∧
    ∀ (data : List UInt8) (i : Nat), Tame data → data.length < 2 ^ 61 → 1 ≤ i →
      2 * (data.length - i) + 1 ≤ fuel → Returns Forward (skipGroup fuel data i) := by
  induction fuel with
  | zero =>
    refine ⟨fun data _ _ some_bytes enough => ?_, fun data i _ _ _ enough => by omega⟩
    have pos := List.length_pos_iff.2 some_bytes
    omega
  | succ fuel ih =>
    refine ⟨fun data tame small some_bytes enough => ?_, fun data i tame small pos enough => ?_⟩
    · rw [skip]
      split
      · rw [if_neg some_bytes]
        exact .error _
      · next wire rest read =>
        have tag := tame.readVarint read
        have moves := tag.moves
        dsimp only
        split
        · split
          · exact .error _
          · next read' =>
            have value := (tame.of_infix tag.suffix.isInfix).readVarint read'
            have moves' := value.moves
            exact .ok ⟨by omega, by omega⟩
        · exact .ok ⟨by omega, by omega⟩
        · split
          · exact .error _
          · next length rest' read' =>
            have value := (tame.of_infix tag.suffix.isInfix).readVarint read'
            have moves' := value.moves
            have short := value.small
            rw [toInt_of_small short, ← Int.natCast_add, wrap_of_small (by omega)]
            exact .ok ⟨by omega, by omega⟩
        · exact ih.2 data _ tame small (by omega) (by omega)
        · exact .ok ⟨by omega, by omega⟩
        · exact .ok ⟨by omega, by omega⟩
        · exact .error _
    · rw [skipGroup]
      split
      · exact .error _
      · next inside =>
        rw [if_neg (by omega), Int.toNat_natCast]
        split
        · exact .error _
        · next wire rest read =>
          have tag := (tame.drop i).readVarint read
          have moves := tag.moves
          rw [List.length_drop] at moves
          split
          · exact .ok ⟨by omega, by omega⟩
          · have inner : Returns Forward (skip fuel (data.drop i)) := by
              refine ih.1 _ (tame.drop i) ?_ ?_ ?_
              · rw [List.length_drop]
                omega
              · exact List.ne_nil_of_length_pos (by rw [List.length_drop]; omega)
              · rw [List.length_drop]
                omega
            refine inner.andThen fun next forward => ?_
            obtain ⟨next, rfl⟩ := Int.eq_ofNat_of_zero_le (by have := forward.1; omega : 0 ≤ next)
            obtain ⟨some_bytes, few⟩ := forward
            rw [← Int.natCast_add, wrap_of_small (by omega)]
            exact ih.2 data (i + next) tame small (by omega) (by omega)

/-! ### More fuel -/

/-- A call that has come to an end does the same with more fuel. -/
def Extends {α : Type} (r r' : Option (Result α)) : Prop :=
  ∀ a, r = some a → r' = some a

theorem Extends.rfl {α : Type} {r : Option (Result α)} : Extends r r :=
  fun _ ended => ended

theorem Extends.andThen {α β : Type} {r r' : Option (Result α)} {next next' : α → Option (Result β)}
    (first : Extends r r') (second : ∀ a, Extends (next a) (next' a)) :
    Extends (andThen r next) (andThen r' next') := by
  intro b ended
  cases r with
  | none => cases ended
  | some a =>
    rw [first a (Eq.refl _)]
    cases a with
    | ok a => exact second a b ended
    | error e => exact ended
    | panic => exact ended

theorem skip_extends (fuel : Nat) :
    (∀ data, Extends (skip fuel data) (skip (fuel + 1) data)) ∧
      ∀ data i, Extends (skipGroup fuel data i) (skipGroup (fuel + 1) data i) := by
  induction fuel with
  | zero => simp [Extends, skip, skipGroup]
  | succ fuel ih =>
    refine ⟨fun data => ?_, fun data i => ?_⟩
    · rw [skip, skip]
      split
      · exact .rfl
      · dsimp only
        split
        · exact .rfl
        · exact .rfl
        · exact .rfl
        · exact ih.2 data _
        · exact .rfl
        · exact .rfl
        · exact .rfl
    · rw [skipGroup, skipGroup]
      split
      · exact .rfl
      · split
        · exact .rfl
        · split
          · exact .rfl
          · split
            · exact .rfl
            · exact (ih.1 _).andThen fun next => ih.2 data _

/-! ### Cases and loops that return -/

section

variable {M N V : Type}

/-- With less than `n` fuel: more fuel changes nothing, and what is enough for the data is enough
to return. -/
structure SafeBelow (n : Nat) (read : Decoder M) : Prop where
  fuel : ∀ fuel < n, ∀ (data : List UInt8) (m : M),
    Extends (read fuel data m) (read (fuel + 1) data m)
  returns : ∀ fuel < n, ∀ (data : List UInt8) (m : M), Tame data → data.length < 2 ^ 61 →
    2 * data.length + 1 ≤ fuel → Returns (fun _ => True) (read fuel data m)

/-- The index that the case returns is not before the one it was given. -/
structure Case.SafeBelow (n : Nat) (c : Case M) : Prop where
  fuel : ∀ fuel < n, ∀ (data : List UInt8) (i : Nat) (m : M),
    Extends (c.body fuel data i m) (c.body (fuel + 1) data i m)
  returns : ∀ fuel < n, ∀ (data : List UInt8) (i : Nat) (m : M), Tame data →
    data.length < 2 ^ 61 → 2 * (data.length - i) ≤ fuel →
      Returns (fun (p : M × Int) => i ≤ p.2 ∧ p.2 ≤ data.length) (c.body fuel data i m)

theorem Case.varint_safe (n w : Nat) (name : String) (set : M → BitVec w → M) :
    (Case.varint w name set).SafeBelow n := by
  refine ⟨fun _ _ _ _ _ => .rfl, fun fuel _ data i m tame small enough => ?_⟩
  simp only [Case.varint]
  split
  · exact .error _
  · next v rest read =>
    obtain ⟨bytes, same, varint⟩ := isVarint_of_readVarint read
    have length := congrArg List.length same
    rw [List.length_drop, List.length_append] at length
    have pos := varint.length_pos
    exact .ok ⟨by omega, by omega⟩

/-- The contents behind a length are tame, and shorter than the data. -/
theorem delimited_returns {data : List UInt8} (tame : Tame data) (small : data.length < 2 ^ 61)
    (i : Nat) :
    Returns (fun (p : List UInt8 × Nat) => Tame p.1 ∧ i + 1 + p.1.length ≤ p.2 ∧
      p.2 ≤ data.length) (some (delimited data i)) := by
  rw [delimited]
  split
  · exact .error _
  · next length rest read =>
    have value := (tame.drop i).readVarint read
    have moves := value.moves
    have short := value.small
    rw [List.length_drop] at moves
    dsimp only
    rw [toInt_of_small short, ← Int.natCast_add, wrap_of_small (by omega)]
    split
    · exact .error _
    · next inside =>
      rw [if_neg (by omega), Int.toNat_natCast]
      refine .ok ⟨?_, ?_, by omega⟩
      · have part := (List.take_prefix (data.length - rest.length + length.toNat -
          (data.length - rest.length)) rest).isInfix
        exact tame.of_infix (part.trans (value.suffix.trans (List.drop_suffix i data)).isInfix)
      · rw [List.length_take]
        omega

theorem Case.bytes_safe (n : Nat) (name : String) (set : M → List UInt8 → M) :
    (Case.bytes name set).SafeBelow n := by
  refine ⟨fun _ _ _ _ _ => .rfl, fun fuel _ data i m tame small enough => ?_⟩
  refine (delimited_returns tame small i).andThen fun p inside => .ok ⟨?_, ?_⟩
  · have behind := inside.2.1
    omega
  · exact Int.ofNat_le.2 inside.2.2

theorem Case.message_safe {n : Nat} {read : Decoder N} (safe : Protobuf.SafeBelow n read)
    (name : String) (target : M → N) (set : M → N → M) :
    (Case.message name read target set).SafeBelow n := by
  refine ⟨fun fuel below data i m => ?_, fun fuel below data i m tame small enough => ?_⟩
  · refine Extends.rfl.andThen fun p => ?_
    exact (safe.fuel fuel below p.1 (target m)).andThen fun n => .rfl
  · refine (delimited_returns tame small i).andThen fun p inside => ?_
    obtain ⟨contents, j⟩ := p
    obtain ⟨tame', behind, within⟩ := inside
    dsimp only at tame' behind within ⊢
    have reads := safe.returns fuel below contents (target m) tame' (by omega) (by omega)
    exact reads.andThen fun _ _ => .ok ⟨by omega, Int.ofNat_le.2 within⟩

theorem Case.entry_safe (n : Nat) (name : String) (insert : M → List UInt8 → List UInt8 → M) :
    (Case.entry name insert).SafeBelow n := by
  refine ⟨fun _ _ _ _ _ => .rfl, fun fuel _ data i m tame small enough => ?_⟩
  simp only [Case.entry]
  split
  · exact .error _
  · next length rest read =>
    have value := (tame.drop i).readVarint read
    have moves := value.moves
    have short := value.small
    rw [List.length_drop] at moves
    rw [toInt_of_small short, ← Int.natCast_add, wrap_of_small (by omega)]
    split
    · exact .error _
    · split
      · exact .error _
      · refine (delimited_returns tame small _).andThen fun key _ => ?_
        split
        · exact .error _
        · refine (delimited_returns tame small _).andThen fun value _ => .ok ⟨?_, ?_⟩
          · dsimp only
            omega
          · dsimp only
            omega

theorem unmarshalLoop_extends {n : Nat} {cases : List (Nat × Case M)}
    (safe : ∀ entry ∈ cases, entry.2.SafeBelow n) (data : List UInt8) :
    ∀ fuel ≤ n, ∀ (i : Int) (m : M),
      Extends (unmarshalLoop cases data fuel i m) (unmarshalLoop cases data (fuel + 1) i m) := by
  intro fuel
  induction fuel with
  | zero =>
    intro _ i m a ended
    cases ended
  | succ fuel ih =>
    intro below i m
    rw [unmarshalLoop, unmarshalLoop]
    split
    · exact .rfl
    · split
      · exact .rfl
      · split
        · exact .rfl
        · dsimp only
          split
          · next c found =>
            split
            · exact .rfl
            · have body := (safe _ (mem_of_lookup found)).fuel fuel (by omega) data
              exact (body _ m).andThen fun p => ih (by omega) p.2 p.1
          · refine ((skip_extends fuel).1 _).andThen fun skippy => ?_
            split
            · exact .rfl
            · exact ih (by omega) _ m

/-- Every step of the loop moves the index forward. -/
theorem unmarshalLoop_returns {n : Nat} {cases : List (Nat × Case M)}
    (safe : ∀ entry ∈ cases, entry.2.SafeBelow n) {data : List UInt8} (tame : Tame data)
    (small : data.length < 2 ^ 61) :
    ∀ fuel ≤ n, ∀ (i : Nat) (m : M), 2 * (data.length - i) + 1 ≤ fuel →
      Returns (fun _ => True) (unmarshalLoop cases data fuel i m) := by
  intro fuel
  induction fuel with
  | zero =>
    intro _ i m enough
    omega
  | succ fuel ih =>
    intro below i m enough
    rw [unmarshalLoop]
    split
    · exact .ok trivial
    · rw [if_neg (by omega), Int.toNat_natCast]
      split
      · exact .error _
      · next wire rest read =>
        have tag := (tame.drop i).readVarint read
        have moves := tag.moves
        have back := tag.sov_le
        have sov_pos := sov_pos wire.toNat
        rw [List.length_drop] at moves back
        dsimp only
        split
        · next c found =>
          split
          · exact .error _
          · have body := (safe _ (mem_of_lookup found)).returns fuel (by omega) data
              (data.length - rest.length) m tame small (by omega)
            refine body.andThen fun p inside => ?_
            obtain ⟨m', k⟩ := p
            obtain ⟨k, rfl⟩ := Int.eq_ofNat_of_zero_le (by have := inside.1; omega : 0 ≤ k)
            obtain ⟨forward, -⟩ := inside
            exact ih (by omega) k m' (by dsimp only at forward; omega)
        · have skips : Returns Forward
              (skip fuel (data.drop (data.length - rest.length - sov wire.toNat))) := by
            refine (skip_returns fuel).1 _ (tame.drop _) ?_ ?_ ?_
            · rw [List.length_drop]
              omega
            · exact List.ne_nil_of_length_pos (by rw [List.length_drop]; omega)
            · rw [List.length_drop]
              omega
          refine skips.andThen fun k forward => ?_
          obtain ⟨k, rfl⟩ := Int.eq_ofNat_of_zero_le (by have := forward.1; omega : 0 ≤ k)
          obtain ⟨some_bytes, few⟩ := forward
          rw [← Int.natCast_add, wrap_of_small (by omega)]
          split
          · exact .error _
          · exact ih (by omega) _ m (by omega)

/-! ### Message types that return -/

def MessageField.SafeBelow (n : Nat) (field : MessageField M) : Prop :=
  field.read.SafeBelow n

def Message.SafeBelow (n : Nat) (message : Message M) : Prop :=
  Protobuf.SafeBelow n message.read

theorem unmarshal_safe {n : Nat} {fields : List (MessageField M)}
    (safe : ∀ field ∈ fields, field.SafeBelow n) :
    Protobuf.SafeBelow (n + 1) (unmarshal (switch fields)) := by
  have cases_safe : ∀ entry ∈ switch fields, entry.2.SafeBelow n := by
    intro entry mem
    obtain ⟨field, of_field, rfl⟩ := List.mem_map.1 mem
    exact safe field of_field
  refine ⟨fun fuel below data m => ?_, fun fuel below data m tame small enough => ?_⟩
  · exact unmarshalLoop_extends cases_safe data fuel (by omega) 0 m
  · exact unmarshalLoop_returns cases_safe tame small fuel (by omega) 0 m (by omega)

/-- The messages inside are read with less fuel than the message. -/
theorem Message.ofFields_safe {n : Nat} (zero : M) {fields : List (MessageField M)}
    (safe : ∀ field ∈ fields, field.SafeBelow n) (normal : M → M) :
    (ofFields zero fields normal).SafeBelow n :=
  ⟨fun fuel below => (unmarshal_safe safe).fuel fuel (by omega),
    fun fuel below => (unmarshal_safe safe).returns fuel (by omega)⟩

namespace MessageField

variable {n : Nat}

@[simp] theorem string_safe (num : Nat) (name : String) (get : M → String) (set : M → String → M) :
    (string num name get set).SafeBelow n :=
  Case.bytes_safe n name fun m contents => set m (text contents)

@[simp] theorem repeatedString_safe (num : Nat) (name : String) (get : M → List String)
    (put : M → List String → M) : (repeatedString num name get put).SafeBelow n :=
  Case.bytes_safe n name fun m contents => put m (get m ++ [text contents])

@[simp] theorem number_safe (num : Nat) (name : String) (numbers : Number V) (get : M → V)
    (set : M → V → M) : (number num name numbers get set).SafeBelow n :=
  Case.varint_safe n numbers.width name _

@[simp] theorem optionalNumber_safe (num : Nat) (name : String) (numbers : Number V)
    (get : M → Option V) (put : M → Option V → M) :
    (optionalNumber num name numbers get put).SafeBelow n :=
  Case.varint_safe n numbers.width name _

@[simp] theorem repeatedNumber_safe (num : Nat) (name : String) (numbers : Number V)
    (get : M → List V) (put : M → List V → M) :
    (repeatedNumber num name numbers get put).SafeBelow n :=
  Case.varint_safe n numbers.width name _

@[simp] theorem entries_safe (num : Nat) (name : String) (get : M → List (String × List UInt8))
    (insert : M → String → List UInt8 → M) : (entries num name get insert).SafeBelow n :=
  Case.entry_safe n name fun m key value => insert m (text key) value

variable {message : Message N} (safe : message.SafeBelow n)

include safe

theorem embedded_safe (num : Nat) (name : String) (get : M → N) (set : M → N → M) :
    (embedded num name message get set).SafeBelow n :=
  Case.message_safe safe name _ _

theorem optional_safe (num : Nat) (name : String) (get : M → Option N) (put : M → Option N → M) :
    (optional num name message get put).SafeBelow n :=
  Case.message_safe safe name _ _

theorem custom_safe (num : Nat) (name : String) (get : M → Option N) (put : M → Option N → M) :
    (custom num name message get put).SafeBelow n :=
  Case.message_safe safe name _ _

theorem repeatedMessage_safe (num : Nat) (name : String) (get : M → List (Option N))
    (put : M → List (Option N) → M) : (repeatedMessage num name message get put).SafeBelow n :=
  Case.message_safe safe name _ _

end MessageField

/-- A decoder that returns has an outcome. -/
theorem Message.outcome_of_safe {message : Message M} (safe : ∀ n, message.SafeBelow n)
    {data : List UInt8} (tame : Tame data) (small : data.length < 2 ^ 61) (m : M) :
    (∃ m', outcome message.read data m = some (.ok m')) ∨
      ∃ e, outcome message.read data m = some (.error e) := by
  have settles : ∀ {r : Result M}, message.read (2 * data.length + 1) data m = some r →
      outcome message.read data m = some r := by
    intro r ended
    refine outcome_eq (2 * data.length + 1) fun fuel enough => ?_
    induction enough with
    | refl => exact ended
    | @step fuel _ ih => exact (safe (fuel + 1)).fuel fuel (Nat.lt_succ_self fuel) data m r ih
  obtain ⟨m', ended⟩ | ⟨e, ended⟩ :
      (∃ m', message.read (2 * data.length + 1) data m = some (.ok m')) ∨
        ∃ e, message.read (2 * data.length + 1) data m = some (.error e) := by
    have returns := (safe (2 * data.length + 2)).returns _ (Nat.lt_succ_self _) data m tame small
      le_rfl
    generalize message.read (2 * data.length + 1) data m = r at returns
    cases returns with
    | ok _ => exact .inl ⟨_, rfl⟩
    | error e => exact .inr ⟨e, rfl⟩
  · exact .inl ⟨m', settles ended⟩
  · exact .inr ⟨e, settles ended⟩

end

/-! ### Negative lengths -/

/-- A field whose length says that it ends `back` bytes before its contents begin. -/
def backward (num back : Nat) : List UInt8 :=
  encodeVarint (num * 8 + 2) ++ encodeVarint (2 ^ 64 - back)

theorem toInt_backward {back : Nat} (pos : 0 < back) (le : back ≤ 2 ^ 63) :
    (BitVec.ofNat 64 (2 ^ 64 - back)).toInt = -back := by
  rw [BitVec.toInt_eq_toNat_cond, BitVec.toNat_ofNat, Nat.mod_eq_of_lt (by omega),
    if_neg (by omega)]
  omega

/-- The length leads from behind it to where the tag begins. -/
theorem skip_backward {num back : Nat} (whole : (backward num back).length = back)
    (short : back ≤ 2 ^ 63) (after : List UInt8) (fuel : Nat) :
    skip (fuel + 1) (backward num back ++ after) = some (.ok 0) := by
  have pos : 0 < back := by
    have tag_pos := length_encodeVarint_pos (num * 8 + 2)
    rw [← whole, backward, List.length_append]
    omega
  rw [backward, List.length_append] at whole
  rw [backward, List.append_assoc]
  have behind := (At.zero (encodeVarint (num * 8 + 2) ++
    (encodeVarint (2 ^ 64 - back) ++ after))).append.append
  simp only [skip, readVarint_encodeVarint, wireType_of_tag num (by decide : 2 < 8), behind.index]
  rw [Nat.zero_add, whole, toInt_backward pos short, Int.add_right_neg]
  rfl

section

variable {M : Type} {fields : List (MessageField M)}

/-- Skipping the field is to stay where it begins, so the loop is where it was before. -/
theorem unmarshalLoop_circle {num back : Nat} (unknown : (switch fields).lookup num = none)
    (small : num < 2 ^ 29) (whole : (backward num back).length = back) (short : back ≤ 2 ^ 63)
    {data after : List UInt8} {i : Nat} (place : At data i (backward num back ++ after))
    (size : data.length < 2 ^ 63) (fuel : Nat) (m : M) :
    unmarshalLoop (switch fields) data fuel i m = none := by
  have tag_pos := length_encodeVarint_pos (num * 8 + 2)
  have number : (num * 8 + 2) / 8 % 2 ^ 32 = num := by omega
  have back_to_tag : i + (encodeVarint (num * 8 + 2)).length - sov (num * 8 + 2) = i := by
    rw [length_encodeVarint, Nat.add_sub_cancel]
  have skips := skip_backward whole short after
  rw [← place.drop] at skips
  rw [backward, List.append_assoc] at place
  have length := place.length
  rw [List.length_append] at length
  induction fuel with
  | zero => rfl
  | succ fuel ih =>
    rw [unmarshalLoop, if_neg (by omega), if_neg (by omega)]
    simp only [Int.toNat_natCast, place.readVarint, tag_toNat small (by decide : 2 < 8), number,
      unknown, place.append.index]
    rw [back_to_tag]
    cases fuel with
    | zero => rfl
    | succ fuel =>
      rw [skips, andThen_ok, Int.add_zero, wrap_of_small (by omega), if_neg (by omega)]
      exact ih

/-- For a field that is known, the slice that is asked for ends before it begins. -/
theorem delimited_backward {back : Nat} (pos : 0 < back) (short : back ≤ 2 ^ 63)
    {data after : List UInt8} {i : Nat} (place : At data i (encodeVarint (2 ^ 64 - back) ++ after))
    (size : data.length < 2 ^ 63) : delimited data i = .panic := by
  have length := place.append.length
  simp only [delimited, place.readVarint, place.append.index, toInt_backward pos short]
  have wrapped : wrap ((i + (encodeVarint (2 ^ 64 - back)).length : Nat) + -(back : Int)) =
      (i + (encodeVarint (2 ^ 64 - back)).length : Nat) + -(back : Int) := by
    rw [wrap, Int.bmod_eq_of_le] <;> omega
  rw [wrapped, if_neg (by omega), if_pos (by omega)]

/-- If the case of the field reads something with a length, then it takes a slice of that length. -/
def MessageField.Slices (field : MessageField M) : Prop :=
  field.read.wireType = 2 → ∀ fuel data i m, delimited data i = .panic →
    field.read.body fuel data i m = some .panic

theorem unmarshal_panics (numbered : Numbered fields) {field : MessageField M}
    (mem : field ∈ fields) (slices : field.Slices) (type : field.read.wireType = 2) {back : Nat}
    (pos : 0 < back) (short : back ≤ 2 ^ 63) {after : List UInt8}
    (size : (backward field.num back ++ after).length < 2 ^ 63) (fuel : Nat) (m : M) :
    unmarshal (switch fields) (fuel + 1) (backward field.num back ++ after) m = some .panic := by
  have small : field.num < 2 ^ 29 := numbered.2 _ (List.mem_map_of_mem mem)
  have tag_pos := length_encodeVarint_pos (field.num * 8 + 2)
  have number : (field.num * 8 + 2) / 8 % 2 ^ 32 = field.num := by omega
  have wireType : (field.num * 8 + 2) % 8 = 2 := by omega
  have place := At.zero (backward field.num back ++ after)
  rw [backward, List.append_assoc] at place size ⊢
  have some_bytes : 0 < (encodeVarint (field.num * 8 + 2) ++
      (encodeVarint (2 ^ 64 - back) ++ after)).length := by
    rw [List.length_append]
    omega
  have panics := slices type fuel _ _ m (delimited_backward pos short place.append size)
  change unmarshalLoop (switch fields) _ (fuel + 1) (0 : Nat) m = some .panic
  rw [unmarshalLoop, if_neg (by omega), if_neg (by omega)]
  simp only [Int.toNat_natCast, place.readVarint, tag_toNat small (by decide : 2 < 8), number,
    lookup_switch numbered.1 mem, wireType, type, ne_eq, not_true_eq_false, if_false,
    place.append.index]
  rw [panics, andThen]

end

namespace MessageField

variable {M N V : Type}

@[simp] theorem string_slices (num : Nat) (name : String) (get : M → String)
    (set : M → String → M) : (string num name get set).Slices := by
  intro _ fuel data i m panics
  simp only [string, stringCase, Case.bytes, panics, andThen]

@[simp] theorem repeatedString_slices (num : Nat) (name : String) (get : M → List String)
    (put : M → List String → M) : (repeatedString num name get put).Slices := by
  intro _ fuel data i m panics
  simp only [repeatedString, stringCase, Case.bytes, panics, andThen]

@[simp] theorem number_slices (num : Nat) (name : String) (numbers : Number V) (get : M → V)
    (set : M → V → M) : (number num name numbers get set).Slices := by
  rintro ⟨⟩

@[simp] theorem optionalNumber_slices (num : Nat) (name : String) (numbers : Number V)
    (get : M → Option V) (put : M → Option V → M) :
    (optionalNumber num name numbers get put).Slices := by
  rintro ⟨⟩

@[simp] theorem repeatedNumber_slices (num : Nat) (name : String) (numbers : Number V)
    (get : M → List V) (put : M → List V → M) :
    (repeatedNumber num name numbers get put).Slices := by
  rintro ⟨⟩

variable (message : Message N)

@[simp] theorem embedded_slices (num : Nat) (name : String) (get : M → N) (set : M → N → M) :
    (embedded num name message get set).Slices := by
  intro _ fuel data i m panics
  simp only [embedded, Case.message, panics, andThen]

@[simp] theorem optional_slices (num : Nat) (name : String) (get : M → Option N)
    (put : M → Option N → M) : (optional num name message get put).Slices := by
  intro _ fuel data i m panics
  simp only [optional, Case.message, panics, andThen]

@[simp] theorem custom_slices (num : Nat) (name : String) (get : M → Option N)
    (put : M → Option N → M) : (custom num name message get put).Slices := by
  intro _ fuel data i m panics
  simp only [custom, Case.message, panics, andThen]

@[simp] theorem repeatedMessage_slices (num : Nat) (name : String) (get : M → List (Option N))
    (put : M → List (Option N) → M) : (repeatedMessage num name message get put).Slices := by
  intro _ fuel data i m panics
  simp only [repeatedMessage, Case.message, panics, andThen]

end MessageField

end Bbs.Protobuf
