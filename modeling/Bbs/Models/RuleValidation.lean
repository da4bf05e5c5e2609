import Mathlib.Data.List.TakeWhile
import Bbs.Models.SecurityGroups

/-!
What `SecurityGroupRule.Validate` accepts.

`AcceptedDestination` and `SecurityGroupRule.Meets` say it without the loops of the code: a range of
addresses is in numerical order, and each protocol asks for the fields it needs. The byte loop
of `validateDestinations` goes on after an error, but only to report more of them
(`rangeErrors_eq_nil`).
-/

namespace Bbs.Models

open Bbs.Net

/-! ### Destinations -/

/-- Neither of the characters that `strings.IndexAny` looks for. -/
def Unseparated (chars : List Char) : Prop :=
  ∀ c ∈ chars, c ≠ '-' ∧ c ≠ '/'

structure AcceptedDestination (d : String) : Prop where
  ip : Unseparated d.toList → ∃ ip, parseIP d.toList = some ip
  cidr : ∀ a b, d.toList = a ++ '/' :: b → Unseparated a →
    ∃ network, parseCIDR d.toList = some network
  range : ∀ a b, d.toList = a ++ '-' :: b → Unseparated a →
    ∃ first second, parseIP a = some first ∧ parseIP b = some second ∧
      bigEndian first ≤ bigEndian second

/-- Where the first separator is. -/
theorem unseparated_or_split (chars : List Char) :
    Unseparated chars ∨ ∃ a b, Unseparated a ∧ (chars = a ++ '/' :: b ∨ chars = a ++ '-' :: b) := by
  induction chars with
  | nil => exact .inl (by simp [Unseparated])
  | cons c chars ih =>
      by_cases slash : c = '/'
      · exact .inr ⟨[], chars, by simp [Unseparated], .inl (by rw [slash]; rfl)⟩
      · by_cases dash : c = '-'
        · exact .inr ⟨[], chars, by simp [Unseparated], .inr (by rw [dash]; rfl)⟩
        · rcases ih with whole | ⟨a, b, whole, split⟩
          · exact .inl (List.forall_mem_cons.mpr ⟨⟨dash, slash⟩, whole⟩)
          · refine .inr ⟨c :: a, b, List.forall_mem_cons.mpr ⟨⟨dash, slash⟩, whole⟩, ?_⟩
            simpa using split

theorem split_unique {a a' b b' : List Char} {c c' : Char}
    (whole : Unseparated a) (whole' : Unseparated a')
    (separator : c = '-' ∨ c = '/') (separator' : c' = '-' ∨ c' = '/')
    (same : a ++ c :: b = a' ++ c' :: b') : a = a' ∧ c = c' ∧ b = b' := by
  induction a generalizing a' with
  | nil =>
      cases a' with
      | nil => simpa using same
      | cons x a' =>
          obtain ⟨rfl, -⟩ := List.cons.inj same
          obtain ⟨dash, slash⟩ := whole' c List.mem_cons_self
          exact absurd separator (not_or.mpr ⟨dash, slash⟩)
  | cons x a ih =>
      cases a' with
      | nil =>
          obtain ⟨rfl, -⟩ := List.cons.inj same
          obtain ⟨dash, slash⟩ := whole x List.mem_cons_self
          exact absurd separator' (not_or.mpr ⟨dash, slash⟩)
      | cons y a' =>
          obtain ⟨rfl, rest⟩ := List.cons.inj same
          obtain ⟨rfl, rfl, rfl⟩ := ih (fun c mem => whole c (List.mem_cons_of_mem _ mem))
            (fun c mem => whole' c (List.mem_cons_of_mem _ mem)) rest
          exact ⟨rfl, rfl, rfl⟩

theorem destinationErrors_unseparated {d : String} (whole : Unseparated d.toList) :
    destinationErrors d = [] ↔ ∃ ip, parseIP d.toList = some ip := by
  have pass : ∀ c ∈ d.toList, (!decide (c = '-' ∨ c = '/')) = true := by
    simpa [Unseparated] using whole
  have after : (d.toList.dropWhile fun c => !decide (c = '-' ∨ c = '/')) = [] :=
    List.dropWhile_eq_nil_iff.mpr pass
  unfold destinationErrors
  simp only [after]
  cases parseIP d.toList <;> simp

theorem destinationErrors_cidr {d : String} {a b : List Char} (chars : d.toList = a ++ '/' :: b)
    (whole : Unseparated a) :
    destinationErrors d = [] ↔ ∃ network, parseCIDR d.toList = some network := by
  have pass : ∀ c ∈ a, (!decide (c = '-' ∨ c = '/')) = true := by
    simpa [Unseparated] using whole
  have after : (d.toList.dropWhile fun c => !decide (c = '-' ∨ c = '/')) = '/' :: b := by
    rw [chars, List.dropWhile_append_of_pos pass]
    simp
  unfold destinationErrors
  simp only [after]
  cases parseCIDR d.toList <;> simp

theorem destinationErrors_eq_nil (d : String) :
    destinationErrors d = [] ↔ AcceptedDestination d := by
  rcases unseparated_or_split d.toList with whole | ⟨a, b, whole, chars | chars⟩
  · rw [destinationErrors_unseparated whole]
    constructor
    · intro parses
      constructor
      · intro _
        exact parses
      · intro a b chars _
        exact absurd rfl (whole '/' (by simp [chars])).2
      · intro a b chars _
        exact absurd rfl (whole '-' (by simp [chars])).1
    · intro accepted
      exact accepted.ip whole
  · rw [destinationErrors_cidr chars whole]
    constructor
    · intro parses
      constructor
      · intro whole
        exact absurd rfl (whole '/' (by simp [chars])).2
      · intro _ _ _ _
        exact parses
      · intro a' b' chars' whole'
        have := (split_unique whole whole' (.inr rfl) (.inl rfl) (chars.symm.trans chars')).2.1
        exact absurd this (by decide)
    · intro accepted
      exact accepted.cidr a b chars whole
  · rw [destinationErrors_range chars whole]
    constructor
    · rintro ⟨first, second, parsed, parsed', inOrder⟩
      have same := (parseIP_length parsed).trans (parseIP_length parsed').symm
      constructor
      · intro whole
        exact absurd rfl (whole '-' (by simp [chars])).1
      · intro a' b' chars' whole'
        have := (split_unique whole whole' (.inl rfl) (.inr rfl) (chars.symm.trans chars')).2.1
        exact absurd this (by decide)
      · intro a' b' chars' whole'
        obtain ⟨rfl, -, rfl⟩ :=
          split_unique whole whole' (.inl rfl) (.inl rfl) (chars.symm.trans chars')
        exact ⟨first, second, parsed, parsed', (bigEndian_le_iff same).mpr inOrder⟩
    · intro accepted
      obtain ⟨first, second, parsed, parsed', inOrder⟩ := accepted.range a b chars whole
      have same := (parseIP_length parsed).trans (parseIP_length parsed').symm
      exact ⟨first, second, parsed, parsed', (bigEndian_le_iff same).mp inOrder⟩

/-! ### The fields of a protocol -/

namespace SecurityGroupRule

/-- Either ports or a range of ports, from port 1 up. -/
inductive NamesPorts (rule : SecurityGroupRule) : Prop
  | ports {ports : List UInt32} (rangeless : rule.portRange = none) (listed : rule.ports = some ports)
      (nonempty : ports ≠ []) (positive : ∀ p ∈ ports, 1 ≤ p)
  | range {range : PortRange UInt32} (portless : rule.ports = none)
      (ranged : rule.portRange = some range) (positive : 1 ≤ range.start)
      (inOrder : range.start ≤ range.stop)

/-- What each protocol requires of the other fields. -/
inductive Meets (rule : SecurityGroupRule) : Prop
  | tcp (protocol : rule.protocol = tcpProtocol) (ports : rule.NamesPorts)
      (icmpInfo : rule.icmpInfo = none)
  | udp (protocol : rule.protocol = udpProtocol) (ports : rule.NamesPorts)
      (icmpInfo : rule.icmpInfo = none) (log : rule.log = false)
  | icmp (protocol : rule.protocol = icmpProtocol) (portRange : rule.portRange = none)
      (ports : rule.ports = none) (icmpInfo : rule.icmpInfo ≠ none) (log : rule.log = false)
  | all (protocol : rule.protocol = allProtocol) (portRange : rule.portRange = none)
      (ports : rule.ports = none) (icmpInfo : rule.icmpInfo = none)

variable {rule : SecurityGroupRule}

/-- The loop over the ports adds an error for each port below 1. -/
theorem foldl_check_eq_nil (ports : List UInt32) (ve : ValidationError) :
    ports.foldl (fun ve p => ve.check (p < 1) (.invalidField "ports")) ve = [] ↔
      ve = [] ∧ ∀ p ∈ ports, 1 ≤ p := by
  induction ports generalizing ve with
  | nil => simp
  | cons p ports ih =>
      rw [List.foldl_cons, ih, ValidationError.check_invalidField, UInt32.not_lt, and_assoc,
        List.forall_mem_cons]

theorem validatePorts_iff : rule.validatePorts = [] ↔ rule.NamesPorts := by
  constructor
  · intro valid
    unfold validatePorts at valid
    split at valid
    · cases valid
    · cases valid
    · next ranged portless =>
        simp only [ValidationError.check_invalidField, UInt32.not_lt] at valid
        exact .range portless ranged valid.1.1.2 valid.2
    · next rangeless listed =>
        rw [foldl_check_eq_nil, ValidationError.check_invalidField] at valid
        obtain ⟨⟨-, nonempty⟩, positive⟩ := valid
        exact .ports rangeless listed (by simpa using nonempty) positive
  · rintro (⟨rangeless, listed, nonempty, positive⟩ | ⟨portless, ranged, positive, inOrder⟩)
    · unfold validatePorts
      rw [rangeless, listed]
      simp only
      rw [foldl_check_eq_nil, ValidationError.check_invalidField]
      exact ⟨⟨rfl, by simpa using nonempty⟩, positive⟩
    · unfold validatePorts
      rw [ranged, portless]
      simp only [ValidationError.check_invalidField, UInt32.not_lt]
      exact ⟨⟨⟨rfl, positive⟩, UInt32.le_trans positive inOrder⟩, inOrder⟩

theorem validateProtocol_iff : rule.validateProtocol = [] ↔ rule.Meets := by
  constructor
  · intro valid
    unfold validateProtocol at valid
    split at valid
    · next tcp =>
        simp only [ValidationError.check_invalidField, not_not, validatePorts_iff] at valid
        exact .tcp tcp valid.1 valid.2
    split at valid
    · next udp =>
        simp only [ValidationError.check_invalidField, not_not, validatePorts_iff,
          Bool.not_eq_true] at valid
        exact .udp udp valid.1.1 valid.1.2 valid.2
    split at valid
    · next icmp =>
        simp only [ValidationError.check_invalidField, not_not, Bool.not_eq_true] at valid
        exact .icmp icmp valid.1.1.1.2 valid.1.1.2 valid.1.2 valid.2
    split at valid
    · next all =>
        simp only [ValidationError.check_invalidField, not_not] at valid
        exact .all all valid.1.1.2 valid.1.2 valid.2
    · cases valid
  · rintro (⟨protocol, ports, icmpInfo⟩ | ⟨protocol, ports, icmpInfo, log⟩ |
      ⟨protocol, portRange, ports, icmpInfo, log⟩ | ⟨protocol, portRange, ports, icmpInfo⟩)
    · simp [validateProtocol, protocol, validatePorts_iff, ports, icmpInfo]
    · simp [validateProtocol, protocol, tcpProtocol, udpProtocol, validatePorts_iff, ports,
        icmpInfo, log]
    · simp [validateProtocol, protocol, tcpProtocol, udpProtocol, icmpProtocol, portRange, ports,
        icmpInfo, log]
    · simp [validateProtocol, protocol, tcpProtocol, udpProtocol, icmpProtocol, allProtocol,
        portRange, ports, icmpInfo]

theorem validateDestinations_iff (nonempty : rule.destinations ≠ []) :
    rule.validateDestinations = none ↔ ∀ d ∈ rule.destinations, AcceptedDestination d := by
  have listed : ¬ rule.destinations.length = 0 := by simpa using nonempty
  unfold validateDestinations
  rw [if_neg listed, ValidationError.result_eq_none, List.flatMap_eq_nil_iff]
  exact forall₂_congr fun d _ => destinationErrors_eq_nil d

/-- **Security group rules are checked exactly.** A non-empty list of destinations is accepted
if and only if each of them is, and a rule passes `Validate` if and only if it has
destinations, all accepted, and the fields its protocol requires. -/
theorem validate_exact (rule : SecurityGroupRule) :
    (rule.destinations ≠ [] →
      (rule.validateDestinations = none ↔ ∀ d ∈ rule.destinations, AcceptedDestination d)) ∧
    (rule.validate = none ↔
      rule.destinations ≠ [] ∧ (∀ d ∈ rule.destinations, AcceptedDestination d) ∧ rule.Meets) := by
  refine ⟨validateDestinations_iff, ?_⟩
  rw [validate, ValidationError.result_eq_none]
  by_cases empty : rule.destinations = []
  · have missing : rule.validateDestinations = some (.text "Must have at least 1 destination") := by
      simp [validateDestinations, empty]
    simp [missing, ValidationError.append, empty]
  · cases checked : rule.validateDestinations with
    | none =>
        have accepted := (validateDestinations_iff empty).mp checked
        simp only [validateProtocol_iff]
        exact ⟨fun meets => ⟨empty, accepted, meets⟩, fun parts => parts.2.2⟩
    | some err =>
        constructor
        · intro valid
          simp [ValidationError.append] at valid
        · rintro ⟨_, accepted, _⟩
          rw [(validateDestinations_iff empty).mpr accepted] at checked
          cases checked

/-- A range in order, and the same range reversed. -/
example : destinationErrors "1.2.3.4-1.2.3.5" = [] ∧
    destinationErrors "1.2.3.5-1.2.3.4" = [errInvalidIP] := by
  exact ⟨rfl, rfl⟩

end SecurityGroupRule

end Bbs.Models
