import Mathlib.Data.List.Forall2
import Bbs.Models.Errors
import Bbs.Net

/-!
Security group rules (`models/security_groups.go`): `Validate`, and the conversion to the
rules of runtime-schema (`SecurityGroupRulesFromProto`).

The two kinds of rules differ in the width of a port number only, so both are `RuleOf` that
width. `Ports` may be nil, which `Validate` tells apart from an empty list.
-/

namespace Bbs.Models

open Bbs.Net

def tcpProtocol : String :=
  "tcp"

def udpProtocol : String :=
  "udp"

def icmpProtocol : String :=
  "icmp"

def allProtocol : String :=
  "all"

def maxPort : Nat :=
  65535

structure PortRange (P : Type) where
  start : P
  stop : P
  deriving DecidableEq

structure ICMPInfo where
  type : Int32
  code : Int32
  deriving DecidableEq

/-- Rules whose port numbers are of type `P`. -/
structure RuleOf (P : Type) where
  protocol : String
  destinations : List String
  ports : Option (List P)
  portRange : Option (PortRange P)
  icmpInfo : Option ICMPInfo
  log : Bool
  deriving DecidableEq

abbrev SecurityGroupRule : Type :=
  RuleOf UInt32

/-- The rules of runtime-schema. -/
abbrev OldSecurityGroupRule : Type :=
  RuleOf UInt16

/-! ### Destinations -/

def errInvalidIP : ErrorValue :=
  .text "Invalid IP"

/-- The loop over the bytes of the two ends of a range, which have the same number of
bytes. It goes on after an error. -/
def rangeErrors : List UInt8 → List UInt8 → ValidationError
  | b :: first, c :: second =>
      if b < c then []
      else if b = c then rangeErrors first second
      else errInvalidIP :: rangeErrors first second
  | _, _ => []

/-- What one destination adds to the errors. -/
def destinationErrors (d : String) : ValidationError :=
  let isSeparator (c : Char) : Bool := c = '-' ∨ c = '/'
  match d.toList.dropWhile (fun c => !isSeparator c) with
  | [] => if (parseIP d.toList).isNone then [errInvalidIP] else []
  | '/' :: _ =>
      if (parseCIDR d.toList).isNone then [.text ("invalid CIDR address: " ++ d)] else []
  | _ :: second =>
      match parseIP (d.toList.takeWhile fun c => !isSeparator c), parseIP second with
      | some firstIP, some secondIP => rangeErrors firstIP secondIP
      | _, _ => [errInvalidIP]

namespace SecurityGroupRule

def validateDestinations (rule : SecurityGroupRule) : Option ErrorValue :=
  if rule.destinations.length = 0 then some (.text "Must have at least 1 destination")
  else ValidationError.result (rule.destinations.flatMap destinationErrors)

/-! ### `Validate` -/

def validatePorts (rule : SecurityGroupRule) : ValidationError :=
  match rule.portRange, rule.ports with
  | none, none => .append [] (.text "Missing required field: ports or port_range")
  | some _, some _ => .append [] (.text "Invalid: ports and port_range provided")
  | some portRange, none =>
      ((ValidationError.nil.check (portRange.start < 1) (.invalidField "port_range")).check
        (portRange.stop < 1) (.invalidField "port_range")).check
        (portRange.start > portRange.stop) (.invalidField "port_range")
  | none, some ports =>
      ports.foldl (fun ve p => ve.check (p < 1) (.invalidField "ports"))
        (ValidationError.nil.check (ports.length = 0) (.invalidField "ports"))

def validateProtocol (rule : SecurityGroupRule) : ValidationError :=
  if rule.protocol = tcpProtocol then
    rule.validatePorts.check (rule.icmpInfo ≠ none) (.invalidField "icmp_info")
  else if rule.protocol = udpProtocol then
    (rule.validatePorts.check (rule.icmpInfo ≠ none) (.invalidField "icmp_info")).check
      (rule.log = true) (.invalidField "log")
  else if rule.protocol = icmpProtocol then
    (((ValidationError.nil.check (rule.portRange ≠ none) (.invalidField "port_range")).check
      (rule.ports ≠ none) (.invalidField "ports")).check
      (rule.icmpInfo = none) (.invalidField "icmp_info")).check
      (rule.log = true) (.invalidField "log")
  else if rule.protocol = allProtocol then
    ((ValidationError.nil.check (rule.portRange ≠ none) (.invalidField "port_range")).check
      (rule.ports ≠ none) (.invalidField "ports")).check
      (rule.icmpInfo ≠ none) (.invalidField "icmp_info")
  else ValidationError.nil.append (.invalidField "protocol")

def validate (rule : SecurityGroupRule) : Option ErrorValue :=
  ValidationError.result (match rule.validateDestinations with
    | none => rule.validateProtocol
    | some err =>
        rule.validateProtocol.append (.invalidField ("destinations [ " ++ err.error ++ " ]")))

end SecurityGroupRule

/-! ### Conversion -/

/-- The result is never nil. -/
def convertPortsFromProto (ports : Option (List UInt32)) : List UInt16 :=
  (ports.getD []).map UInt32.toUInt16

def securityGroupRuleFromProto (r : SecurityGroupRule) : OldSecurityGroupRule where
  protocol := r.protocol
  destinations := r.destinations
  ports := some (convertPortsFromProto r.ports)
  portRange := r.portRange.map fun range => ⟨range.start.toUInt16, range.stop.toUInt16⟩
  icmpInfo := r.icmpInfo
  log := r.log

def securityGroupRulesFromProto (rules : List SecurityGroupRule) : List OldSecurityGroupRule :=
  rules.map securityGroupRuleFromProto

/-! ### What `Validate` ensures -/

/-- The end of a range is not below its start. -/
theorem rangeErrors_eq_nil {first second : List UInt8} (same : first.length = second.length) :
    rangeErrors first second = [] ↔ first ≤ second := by
  induction first generalizing second with
  | nil =>
      cases second with
      | nil => simp [rangeErrors]
      | cons => cases same
  | cons b first ih =>
      cases second with
      | nil => cases same
      | cons c second =>
          have ih := ih (Nat.succ.inj same)
          rw [rangeErrors, List.cons_le_cons_iff]
          by_cases lower : b < c
          · simp [lower]
          · by_cases equal : b = c
            · simp [equal, ih]
            · simp [lower, equal]

/-- A range is accepted exactly if its two ends are addresses in ascending order. -/
theorem destinationErrors_range {d : String} {a b : List Char} (chars : d.toList = a ++ '-' :: b)
    (plain : ∀ c ∈ a, c ≠ '-' ∧ c ≠ '/') :
    destinationErrors d = [] ↔
      ∃ first second, parseIP a = some first ∧ parseIP b = some second ∧ first ≤ second := by
  have pass : ∀ c ∈ a, (!decide (c = '-' ∨ c = '/')) = true := by
    simpa using plain
  have before : (d.toList.takeWhile fun c => !decide (c = '-' ∨ c = '/')) = a := by
    rw [chars, List.takeWhile_append_of_pos pass]
    simp
  have after : (d.toList.dropWhile fun c => !decide (c = '-' ∨ c = '/')) = '-' :: b := by
    rw [chars, List.dropWhile_append_of_pos pass]
    simp
  unfold destinationErrors
  simp only [before, after]
  cases first : parseIP a with
  | none => simp
  | some firstIP =>
      cases second : parseIP b with
      | none => simp [second]
      | some secondIP =>
          simp [second, rangeErrors_eq_nil ((parseIP_length first).trans (parseIP_length second).symm)]

namespace SecurityGroupRule

variable {rule : SecurityGroupRule}

theorem validateProtocol_of_valid (valid : rule.validate = none) : rule.validateProtocol = [] := by
  rw [validate, ValidationError.result_eq_none] at valid
  split at valid
  · exact valid
  · simp [ValidationError.append] at valid

/-- Of the ports, `Validate` asks that a list is not empty and a range in order. -/
theorem validatePorts_eq_nil (valid : rule.validatePorts = []) :
    rule.ports ≠ some [] ∧ ∀ range, rule.portRange = some range → range.start ≤ range.stop := by
  unfold validatePorts at valid
  split at valid
  · cases valid
  · cases valid
  · rename_i range ranged portless
    simp only [ValidationError.check_invalidField, UInt32.not_lt] at valid
    rw [portless, ranged]
    simpa using valid.2
  · rename_i ports rangeless ported
    rw [ported, rangeless]
    refine ⟨fun empty => ?_, by simp⟩
    cases empty
    simp [ValidationError.check, ValidationError.append] at valid

theorem valid_ports (valid : rule.validate = none) :
    rule.ports ≠ some [] ∧ ∀ range, rule.portRange = some range → range.start ≤ range.stop := by
  have valid := validateProtocol_of_valid valid
  have portless (noRange : rule.portRange = none) (noPorts : rule.ports = none) :
      rule.ports ≠ some [] ∧ ∀ range, rule.portRange = some range → range.start ≤ range.stop := by
    simp [noRange, noPorts]
  unfold validateProtocol at valid
  split at valid
  · simp only [ValidationError.check_invalidField] at valid
    exact validatePorts_eq_nil valid.1
  · split at valid
    · simp only [ValidationError.check_invalidField] at valid
      exact validatePorts_eq_nil valid.1.1
    · split at valid
      · simp only [ValidationError.check_invalidField, not_not] at valid
        exact portless valid.1.1.1.2 valid.1.1.2
      · split at valid
        · simp only [ValidationError.check_invalidField, not_not] at valid
          exact portless valid.1.1.2 valid.1.2
        · cases valid

/-- All port numbers fit into 16 bits. -/
def PortsFit (rule : SecurityGroupRule) : Prop :=
  (∀ p ∈ rule.ports.getD [], p.toNat ≤ maxPort) ∧
    ∀ range, rule.portRange = some range → range.start.toNat ≤ maxPort ∧ range.stop.toNat ≤ maxPort

end SecurityGroupRule

/-! ### Ports survive conversion -/

/-- The converted rule opens the same ports, and its range is in order. -/
structure SamePorts (rule : SecurityGroupRule) (old : OldSecurityGroupRule) : Prop where
  ports : (old.ports.getD []).map UInt16.toNat = (rule.ports.getD []).map UInt32.toNat
  portRange : old.portRange.map (fun range => (range.start.toNat, range.stop.toNat)) =
    rule.portRange.map fun range => (range.start.toNat, range.stop.toNat)
  ordered : ∀ range, old.portRange = some range → range.start ≤ range.stop

theorem toUInt16_toNat_iff (p : UInt32) : p.toUInt16.toNat = p.toNat ↔ p.toNat ≤ maxPort := by
  rw [UInt32.toNat_toUInt16, maxPort]
  omega

theorem convertPorts_iff (ports : List UInt32) :
    (ports.map UInt32.toUInt16).map UInt16.toNat = ports.map UInt32.toNat ↔
      ∀ p ∈ ports, p.toNat ≤ maxPort := by
  induction ports with
  | nil => simp
  | cons p ports ih =>
      simp only [List.map_cons, List.cons.injEq, List.forall_mem_cons]
      exact and_congr (toUInt16_toNat_iff p) ih

theorem samePorts_iff {rule : SecurityGroupRule} (valid : rule.validate = none) :
    SamePorts rule (securityGroupRuleFromProto rule) ↔ rule.PortsFit := by
  obtain ⟨-, inOrder⟩ := SecurityGroupRule.valid_ports valid
  constructor
  · rintro ⟨ports, portRange, -⟩
    refine ⟨(convertPorts_iff _).mp ports, fun range ranged => ?_⟩
    simp only [securityGroupRuleFromProto, ranged, Option.map_some, Option.some.injEq,
      Prod.mk.injEq] at portRange
    exact ⟨(toUInt16_toNat_iff _).mp portRange.1, (toUInt16_toNat_iff _).mp portRange.2⟩
  · rintro ⟨ports, portRange⟩
    refine ⟨(convertPorts_iff _).mpr ports, ?_, ?_⟩
    · cases ranged : rule.portRange with
      | none => simp [securityGroupRuleFromProto, ranged]
      | some range =>
          obtain ⟨start, stop⟩ := portRange range ranged
          simp [securityGroupRuleFromProto, ranged, (toUInt16_toNat_iff _).mpr start,
            (toUInt16_toNat_iff _).mpr stop]
    · intro converted shown
      obtain ⟨range, ranged, rfl⟩ := Option.map_eq_some_iff.mp shown
      obtain ⟨start, stop⟩ := portRange range ranged
      rw [UInt16.le_iff_toNat_le, (toUInt16_toNat_iff _).mpr start, (toUInt16_toNat_iff _).mpr stop]
      exact UInt32.le_iff_toNat_le.mp (inOrder range ranged)

/-- **When validated ports survive conversion.** Of rules that pass `Validate`, the
converted rules are as many and in the same order; each opens the same ports, with its
range in order, if and only if every port number is at most 65535. -/
theorem validated_ports_survive_iff {rules : List SecurityGroupRule}
    (valid : ∀ rule ∈ rules, rule.validate = none) :
    List.Forall₂ SamePorts rules (securityGroupRulesFromProto rules) ↔
      ∀ rule ∈ rules, rule.PortsFit := by
  rw [securityGroupRulesFromProto, List.forall₂_map_right_iff, List.forall₂_same]
  exact forall₂_congr fun rule mem => samePorts_iff (valid rule mem)

/-- A rule for one port. -/
def portRule (port : UInt32) : SecurityGroupRule where
  protocol := tcpProtocol
  destinations := ["0.0.0.0/0"]
  ports := some [port]
  portRange := none
  icmpInfo := none
  log := false

theorem validated_ports_survive_iff_portRule :
    (portRule 22).validate = none ∧
      List.Forall₂ SamePorts [portRule 22] (securityGroupRulesFromProto [portRule 22]) := by
  have valid : ∀ rule ∈ [portRule 22], rule.validate = none := by
    simp only [List.forall_mem_singleton]
    decide
  refine ⟨valid _ List.mem_cons_self, (validated_ports_survive_iff valid).mpr ?_⟩
  simp [SecurityGroupRule.PortsFit, portRule, maxPort]

/-- A rule that allows port 65558 comes to open port 22. -/
theorem validated_port_opens_another :
    (portRule 65558).validate = none ∧
      (securityGroupRulesFromProto [portRule 65558]).map RuleOf.ports = [some [22]] ∧
      ¬List.Forall₂ SamePorts [portRule 65558] (securityGroupRulesFromProto [portRule 65558]) := by
  refine ⟨by decide, by decide, fun same => ?_⟩
  obtain ⟨⟨ports, -, -⟩, -⟩ := List.forall₂_cons.mp same
  simp [securityGroupRuleFromProto, convertPortsFromProto, portRule] at ports

end Bbs.Models
