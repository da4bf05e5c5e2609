import Bbs.LenientJson
import Bbs.Models.SecurityGroups

/-!
Security group rules as JSON.

The rules here (`models/security_group.pb.go`) and those of runtime-schema have the same
member names. A rule that is written with one width of port numbers and read with another
is `RuleOf.convert`ed number by number (`RuleOf.unmarshal_marshal`); a number that does not
fit leaves 0 and an error behind.
-/

namespace Bbs.Models

open Bbs.Json

variable {P Q : Type}

/-! ### Port ranges and ICMP -/

inductive RangeField where
  | start
  | stop
  deriving DecidableEq

def RangeField.name : RangeField → String
  | .start => "start"
  | .stop => "end"

def PortRange.fieldOf : String → Option RangeField :=
  fieldNamed [.start, .stop] RangeField.name

def PortRange.setField (decodePort : P → Json → Option P) (range : PortRange P) (field : RangeField)
    (value : Json) : Decoded (PortRange P) :=
  match field with
  | .start => (lenient decodePort range.start value).map fun port => { range with start := port }
  | .stop => (lenient decodePort range.stop value).map fun port => { range with stop := port }

def PortRange.marshal (num : P → Nat) (range : PortRange P) : Json :=
  .obj <| [(RangeField.start, Json.num (num range.start)), (.stop, .num (num range.stop))].map fun p =>
    (p.1.name, p.2)

inductive ICMPField where
  | type
  | code
  deriving DecidableEq

def ICMPField.name : ICMPField → String
  | .type => "type"
  | .code => "code"

def ICMPInfo.fieldOf : String → Option ICMPField :=
  fieldNamed [.type, .code] ICMPField.name

def ICMPInfo.setField (info : ICMPInfo) (field : ICMPField) (value : Json) : Decoded ICMPInfo :=
  match field with
  | .type => (lenient decodeInt32 info.type value).map fun type => { info with type := type }
  | .code => (lenient decodeInt32 info.code value).map fun code => { info with code := code }

def ICMPInfo.marshal (info : ICMPInfo) : Json :=
  .obj <| [(ICMPField.type, Json.num info.type.toInt), (.code, .num info.code.toInt)].map fun p =>
    (p.1.name, p.2)

/-! ### Rules -/

inductive RuleField where
  | protocol
  | destinations
  | ports
  | portRange
  | icmpInfo
  | log
  deriving DecidableEq

def RuleField.name : RuleField → String
  | .protocol => "protocol"
  | .destinations => "destinations"
  | .ports => "ports"
  | .portRange => "port_range"
  | .icmpInfo => "icmp_info"
  | .log => "log"

namespace RuleOf

def fieldOf : String → Option RuleField :=
  fieldNamed [.protocol, .destinations, .ports, .portRange, .icmpInfo, .log] RuleField.name

/-- A zero struct. -/
def zero : RuleOf P where
  protocol := ""
  destinations := []
  ports := none
  portRange := none
  icmpInfo := none
  log := false

def setField (decodePort : P → Json → Option P) (zero : P) (rule : RuleOf P) (field : RuleField)
    (value : Json) : Decoded (RuleOf P) :=
  match field with
  | .protocol => (lenient decodeString rule.protocol value).map fun protocol =>
      { rule with protocol := protocol }
  | .destinations =>
      (lenientSlice "" (lenient decodeString) (some rule.destinations) value).map fun destinations =>
        { rule with destinations := destinations.getD [] }
  | .ports => (lenientSlice zero (lenient decodePort) rule.ports value).map fun ports =>
      { rule with ports := ports }
  | .portRange =>
      (lenientPointer ⟨zero, zero⟩ (lenientStruct PortRange.fieldOf (PortRange.setField decodePort))
        rule.portRange value).map fun portRange => { rule with portRange := portRange }
  | .icmpInfo =>
      (lenientPointer ⟨0, 0⟩ (lenientStruct ICMPInfo.fieldOf ICMPInfo.setField)
        rule.icmpInfo value).map fun icmpInfo => { rule with icmpInfo := icmpInfo }
  | .log => (lenient decodeBool rule.log value).map fun log => { rule with log := log }

/-- Everything but `log` is omitted when empty. -/
def members (num : P → Nat) (rule : RuleOf P) : List (RuleField × Json) :=
  (if rule.protocol = "" then [] else [(.protocol, .str rule.protocol)]) ++
  (if rule.destinations = [] then [] else [(.destinations, .arr (rule.destinations.map .str))]) ++
  (if rule.ports.getD [] = [] then []
    else [(.ports, .arr ((rule.ports.getD []).map fun p => .num (num p)))]) ++
  (rule.portRange.map fun range => (RuleField.portRange, range.marshal num)).toList ++
  (rule.icmpInfo.map fun info => (RuleField.icmpInfo, info.marshal)).toList ++
  [(.log, .bool rule.log)]

def marshal (num : P → Nat) (rule : RuleOf P) : Json :=
  .obj ((rule.members num).map fun p => (p.1.name, p.2))

def unmarshal (decodePort : P → Json → Option P) (zero : P) : RuleOf P → Json → Decoded (RuleOf P) :=
  lenientStruct fieldOf (setField decodePort zero)

/-- All port numbers of a rule. -/
def numbers (rule : RuleOf P) : List P :=
  rule.ports.getD [] ++ (rule.portRange.map fun range => [range.start, range.stop]).getD []

/-- The rule with other port numbers. An empty list of ports becomes nil. -/
def convert (f : P → Q) (rule : RuleOf P) : RuleOf Q where
  protocol := rule.protocol
  destinations := rule.destinations
  ports := if rule.ports.getD [] = [] then none else some ((rule.ports.getD []).map f)
  portRange := rule.portRange.map fun range => ⟨f range.start, f range.stop⟩
  icmpInfo := rule.icmpInfo
  log := rule.log

end RuleOf

/-! ### Reading what was written -/

theorem PortRange.fieldOf_name (field : RangeField) : fieldOf field.name = some field := by
  refine fieldNamed_name ?_ ?_
  · decide
  · cases field <;> simp

theorem ICMPInfo.fieldOf_name (field : ICMPField) : fieldOf field.name = some field := by
  refine fieldNamed_name ?_ ?_
  · decide
  · cases field <;> simp

theorem RuleOf.fieldOf_name (field : RuleField) : fieldOf field.name = some field := by
  refine fieldNamed_name ?_ ?_
  · decide
  · cases field <;> simp

theorem ICMPInfo.unmarshal_marshal (old info : ICMPInfo) :
    lenientStruct fieldOf setField old info.marshal = ⟨info, true⟩ := by
  rw [marshal, lenientStruct, lenientMembers_named fieldOf_name]
  simp [setFields, setField, lenient, Decoded.map]

section Reading

variable {num : P → Nat} {decodePort : Q → Json → Option Q} {zero : Q} {f : P → Q} {fits : P → Bool}

theorem PortRange.unmarshal_marshal
    (each : ∀ p, lenient decodePort zero (.num (num p)) = ⟨f p, fits p⟩) (range : PortRange P) :
    lenientStruct fieldOf (setField decodePort) ⟨zero, zero⟩ (range.marshal num) =
      ⟨⟨f range.start, f range.stop⟩, fits range.start && fits range.stop⟩ := by
  rw [marshal, lenientStruct, lenientMembers_named fieldOf_name]
  simp [setFields, setField, each, Decoded.map]

namespace RuleOf

/-! A member is read into a place that is still zero, so an omitted one changes nothing. -/

theorem setFields_protocol (protocol : String) {rule : RuleOf Q} (empty : rule.protocol = "") :
    setFields (setField decodePort zero) rule
        (if protocol = "" then [] else [(.protocol, .str protocol)]) =
      ⟨{ rule with protocol := protocol }, true⟩ := by
  cases rule
  cases empty
  split
  · next omitted => rw [omitted, setFields]
  · simp [setFields, setField, lenient, Decoded.map]

theorem setFields_destinations (destinations : List String) {rule : RuleOf Q}
    (empty : rule.destinations = []) :
    setFields (setField decodePort zero) rule
        (if destinations = [] then [] else [(.destinations, .arr (destinations.map .str))]) =
      ⟨{ rule with destinations := destinations }, true⟩ := by
  have strings (s : String) : lenient decodeString "" (.str s) = ⟨id s, true⟩ := rfl
  cases rule
  cases empty
  split
  · next omitted => rw [omitted, setFields]
  · simp [setFields, setField, lenientSlice, lenientElements_map strings, Decoded.map]

theorem setFields_ports (each : ∀ p, lenient decodePort zero (.num (num p)) = ⟨f p, fits p⟩)
    (ports : List P) {rule : RuleOf Q} (empty : rule.ports = none) :
    setFields (setField decodePort zero) rule
        (if ports = [] then [] else [(.ports, .arr (ports.map fun p => .num (num p)))]) =
      ⟨{ rule with ports := if ports = [] then none else some (ports.map f) }, ports.all fits⟩ := by
  cases rule
  cases empty
  split
  · next omitted => rw [omitted, setFields, List.all_nil]
  · simp [setFields, setField, lenientSlice, lenientElements_map each, Decoded.map]

theorem setFields_portRange (each : ∀ p, lenient decodePort zero (.num (num p)) = ⟨f p, fits p⟩)
    (portRange : Option (PortRange P)) {rule : RuleOf Q} (empty : rule.portRange = none) :
    setFields (setField decodePort zero) rule
        (portRange.map fun range => (RuleField.portRange, range.marshal num)).toList =
      ⟨{ rule with portRange := portRange.map fun range => ⟨f range.start, f range.stop⟩ },
        ((portRange.map fun range => [range.start, range.stop]).getD []).all fits⟩ := by
  cases rule
  cases empty
  cases portRange with
  | none => simp [setFields]
  | some range =>
      have present : range.marshal num ≠ .null := by simp [PortRange.marshal]
      simp [setFields, setField, lenientPointer_of_ne_null present,
        PortRange.unmarshal_marshal each range, Decoded.map]

theorem setFields_icmpInfo (icmpInfo : Option ICMPInfo) {rule : RuleOf Q}
    (empty : rule.icmpInfo = none) :
    setFields (setField decodePort zero) rule
        (icmpInfo.map fun info => (RuleField.icmpInfo, info.marshal)).toList =
      ⟨{ rule with icmpInfo := icmpInfo }, true⟩ := by
  cases rule
  cases empty
  cases icmpInfo with
  | none => simp [setFields]
  | some info =>
      have present : info.marshal ≠ .null := by simp [ICMPInfo.marshal]
      simp [setFields, setField, lenientPointer_of_ne_null present, ICMPInfo.unmarshal_marshal,
        Decoded.map]

/-- Read into a zero struct, a rule comes back with every port number converted, and with an
error if one of them does not fit. -/
theorem unmarshal_marshal (each : ∀ p, lenient decodePort zero (.num (num p)) = ⟨f p, fits p⟩)
    (rule : RuleOf P) :
    unmarshal decodePort zero RuleOf.zero (rule.marshal num) =
      ⟨rule.convert f, rule.numbers.all fits⟩ := by
  rw [unmarshal, marshal, lenientStruct, lenientMembers_named fieldOf_name]
  simp [members, setFields_append, RuleOf.zero, setFields_protocol, setFields_destinations,
    setFields_ports each, setFields_portRange each, setFields_icmpInfo, setFields, setField,
    lenient, decodeBool, Decoded.map, convert, numbers]

end RuleOf

end Reading

/-! ### The widths of port numbers -/

/-- What is left of a port number where a 16-bit one is expected. -/
def narrow (p : UInt32) : UInt16 :=
  if p.toNat ≤ maxPort then p.toUInt16 else 0

theorem lenient_decodeUInt16 (p : UInt32) :
    lenient decodeUInt16 0 (.num p.toNat) = ⟨narrow p, decide (p.toNat ≤ maxPort)⟩ := by
  by_cases fits : p.toNat ≤ maxPort
  · have small : p.toNat < UInt16.size := Nat.lt_succ_of_le fits
    rw [lenient_of_some (decodeUInt16_num small), narrow, if_pos fits, decide_eq_true fits]
    rfl
  · have big : UInt16.size ≤ p.toNat := Nat.lt_of_not_le fits
    rw [lenient_of_none (decodeUInt16_num_of_le big), narrow, if_neg fits, decide_eq_false fits]

theorem lenient_decodeUInt16_self (p : UInt16) :
    lenient decodeUInt16 0 (.num p.toNat) = ⟨id p, true⟩ := by
  rw [lenient_of_some (decodeUInt16_num p.toNat_lt), UInt16.ofNat_toNat]
  rfl

theorem lenient_decodeUInt32 (p : UInt16) :
    lenient decodeUInt32 0 (.num p.toNat) = ⟨p.toUInt32, true⟩ := by
  have same : p.toNat = p.toUInt32.toNat := p.toNat_toUInt32.symm
  rw [same, lenient_of_some (decodeUInt32_toNat 0 p.toUInt32)]

theorem toUInt32_narrow_iff (p : UInt32) : (narrow p).toUInt32 = p ↔ p.toNat ≤ maxPort := by
  unfold narrow
  split
  · next fits =>
      refine iff_of_true (UInt32.toNat_inj.mp ?_) fits
      rw [UInt16.toNat_toUInt32, (toUInt16_toNat_iff p).mpr fits]
  · next big =>
      refine iff_of_false (fun same => big ?_) big
      rw [← same]
      decide

theorem map_eq_self_iff {f : P → P} {l : List P} : l.map f = l ↔ ∀ p ∈ l, f p = p := by
  simpa using @List.map_eq_map_iff _ _ f l id

namespace RuleOf

variable {R : Type}

theorem convert_convert (f : P → Q) (g : Q → R) (rule : RuleOf P) :
    (rule.convert f).convert g = rule.convert (g ∘ f) := by
  cases rule with
  | mk protocol destinations ports portRange icmpInfo log =>
      by_cases empty : ports.getD [] = [] <;> simp [convert, empty, Function.comp_def]

/-- Conversion leaves a rule as it is exactly if it leaves its port numbers. -/
theorem convert_eq_self_iff {f : P → P} {rule : RuleOf P} (listed : rule.ports ≠ some []) :
    rule.convert f = rule ↔ ∀ p ∈ rule.numbers, f p = p := by
  obtain ⟨protocol, destinations, ports, portRange, icmpInfo, log⟩ := rule
  rcases ports with _ | _ | ⟨p, ports⟩
  · cases portRange with
    | none => simp [convert, numbers]
    | some range => cases range; simp [convert, numbers]
  · exact absurd rfl listed
  · cases portRange with
    | none => simp [convert, numbers, map_eq_self_iff]
    | some range => cases range; simp [convert, numbers, map_eq_self_iff, or_imp, forall_and, and_assoc]

end RuleOf

theorem SecurityGroupRule.portsFit_iff {rule : SecurityGroupRule} :
    rule.PortsFit ↔ ∀ p ∈ rule.numbers, p.toNat ≤ maxPort := by
  unfold PortsFit RuleOf.numbers
  cases rule.portRange <;> simp [or_imp, forall_and]

end Bbs.Models
