import Bbs.Models.DesiredLRP
import Bbs.Models.Events
import Bbs.Wire.Actions
import Bbs.Wire.ActualLRP

/-!
The messages about desired LRPs: the generated code of `models/desired_lrp.pb.go` and
`models/security_group.pb.go`, and the methods of `models/routes.go`.

Routes are a custom type. They are written as a map from names to bytes, whose entries are sorted
by their names, so that equal routes are written the same way.
-/

namespace Bbs.Models

open Bbs.Protobuf Bbs.Utf8

/-! ### Security group rules -/

namespace PortRange

def fields : List (MessageField (PortRange UInt32)) :=
  [.number 1 "Start" .uint32 start fun m v => { m with start := v },
    .number 2 "End" .uint32 stop fun m v => { m with stop := v }]

def message : Message (PortRange UInt32) :=
  .ofFields ⟨0, 0⟩ fields id

theorem roundTrips : message.RoundTrips fields Eq where
  generated := Message.ofFields_generated (by decide) (by simp [Fills, fields])
  sound := by simp [fields]
  equal _ := rfl

end PortRange

namespace ICMPInfo

def fields : List (MessageField ICMPInfo) :=
  [.number 1 "Type" .int32 type fun m v => { m with type := v },
    .number 2 "Code" .int32 code fun m v => { m with code := v }]

def message : Message ICMPInfo :=
  .ofFields ⟨0, 0⟩ fields id

theorem roundTrips : message.RoundTrips fields Eq where
  generated := Message.ofFields_generated (by decide) (by simp [Fills, fields])
  sound := by simp [fields]
  equal _ := rfl

end ICMPInfo

namespace SecurityGroupRule

def portList (rule : SecurityGroupRule) : List UInt32 :=
  rule.ports.getD []

def fields : List (MessageField SecurityGroupRule) :=
  [.string 1 "Protocol" RuleOf.protocol fun m v => { m with protocol := v },
    .repeatedString 2 "Destinations" RuleOf.destinations fun m v => { m with destinations := v },
    .repeatedNumber 3 "Ports" .uint32 portList fun m v => { m with ports := some v },
    .optional 4 "PortRange" PortRange.message RuleOf.portRange
      fun m v => { m with portRange := v },
    .optional 5 "IcmpInfo" ICMPInfo.message RuleOf.icmpInfo
      fun m v => { m with icmpInfo := v },
    .number 6 "Log" .bool RuleOf.log fun m v => { m with log := v }]

/-- A slice without elements is read back as nil. -/
def normal (rule : SecurityGroupRule) : SecurityGroupRule :=
  { rule with ports := nilIfEmpty (portList rule) }

def message : Message SecurityGroupRule :=
  .ofFields ⟨"", [], none, none, none, false⟩ fields normal

theorem fills (rule : SecurityGroupRule) :
    Fills rule fields ⟨"", [], none, none, none, false⟩ (normal rule) := by
  refine .string (.repeatedString ⟨fun _ _ => rfl, fun _ _ _ => rfl, rfl, rfl⟩ (.step _ trivial
    (appendAll_nil portList (fun m o => { m with ports := o }) (fun _ _ => rfl) (fun _ _ _ => rfl)
      rfl rfl _) (.optional rfl rfl (.optional rfl rfl (.number ?_)))))
  simp only [PortRange.roundTrips.pointer_eq, ICMPInfo.roundTrips.pointer_eq]
  rfl

theorem roundTrips : message.RoundTrips fields Equal where
  generated := Message.ofFields_generated (by decide) fills
  sound := by
    simp [fields, MessageField.optional_sound, PortRange.roundTrips.lawful,
      ICMPInfo.roundTrips.lawful]
  equal rule := ⟨nilIfEmpty_getD _, rfl⟩

end SecurityGroupRule

/-! ### Routes -/

section

variable {V : Type}

/-- Setting a key of a map. -/
def setKey (entries : List (String × V)) (key : String) (value : V) : List (String × V) :=
  if key ∈ entries.map Prod.fst then
    entries.map fun p => if p.1 = key then (key, value) else p
  else entries ++ [(key, value)]

def sortKeys (entries : List (String × V)) : List (String × V) :=
  entries.mergeSort fun a b => decide (a.1 ≤ b.1)

theorem foldl_setKey {entries : List (String × V)} (distinct : (entries.map Prod.fst).Nodup) :
    entries.foldl (fun acc p => setKey acc p.1 p.2) [] = entries := by
  suffices ∀ acc : List (String × V), (acc.map Prod.fst ++ entries.map Prod.fst).Nodup →
      entries.foldl (fun acc p => setKey acc p.1 p.2) acc = acc ++ entries from this [] distinct
  clear distinct
  induction entries with
  | nil => simp
  | cons p entries ih =>
    intro acc distinct
    rw [List.map_cons] at distinct
    have new : p.1 ∉ acc.map Prod.fst := fun mem =>
      (List.nodup_append.1 distinct).2.2 _ mem _ List.mem_cons_self rfl
    rw [List.foldl_cons, setKey, if_neg new, ih, List.append_assoc, List.singleton_append]
    simpa using distinct

end

/-- The map that routes are written as. -/
abbrev ProtoRoutes : Type :=
  List (String × List UInt8)

namespace ProtoRoutes

def fields : List (MessageField ProtoRoutes) :=
  [.entries 1 "Routes" sortKeys setKey]

def message : Message ProtoRoutes :=
  .ofFields [] fields fun m => (sortKeys m).foldl (fun acc p => setKey acc p.1 p.2) []

theorem generated : message.GeneratedFrom fields :=
  Message.ofFields_generated (by decide) fun _ => ⟨trivial, rfl⟩

theorem lawful (m : ProtoRoutes) : message.LawfulAt m :=
  generated.lawful (by simp [fields])

end ProtoRoutes

namespace Routes

/-- The values are behind pointers, of which none may be nil. A list with a name twice is no map,
and stands for nothing. -/
def protoRoutes (routes : Routes) : Option ProtoRoutes :=
  if (routes.map Prod.fst).Nodup then
    routes.mapM fun p => p.2.map fun value => (p.1, utf8 value)
  else none

/-- `Unmarshal`. The entries are taken in some order. -/
def unmarshalProto : Decoder Routes := fun fuel data routes =>
  andThen (ProtoRoutes.message.read fuel data []) fun entries =>
    some (.ok (entries.foldl (fun routes p => routes.set p.1 (some (text p.2))) routes))

def message : Message Routes where
  zero := []
  write routes := routes.protoRoutes.bind ProtoRoutes.message.write
  read := unmarshalProto
  normal := sortKeys

theorem mapM_utf8 {routes : Routes} {entries : ProtoRoutes}
    (written : routes.mapM (fun p => p.2.map fun value => (p.1, utf8 value)) = some entries) :
    routes = entries.map fun p => (p.1, some (text p.2)) := by
  induction routes generalizing entries with
  | nil =>
    cases written
    rfl
  | cons p routes ih =>
    simp only [List.mapM_cons, Option.bind_eq_bind, Option.bind_eq_some_iff] at written
    obtain ⟨entry, first, rest, others, done⟩ := written
    cases done
    obtain ⟨value, present, rfl⟩ := Option.map_eq_some_iff.1 first
    rw [List.map_cons, ← ih others, text_utf8, ← present]

theorem protoRoutes_eq_some {routes : Routes} {entries : ProtoRoutes}
    (written : routes.protoRoutes = some entries) :
    (entries.map Prod.fst).Nodup ∧ routes = entries.map fun p => (p.1, some (text p.2)) := by
  rw [protoRoutes] at written
  split at written
  · rename_i distinct
    have same := mapM_utf8 written
    refine ⟨?_, same⟩
    rw [same, List.map_map] at distinct
    exact distinct
  · cases written

/-- The names are set one by one, in the order in which they were written. -/
theorem foldl_set {entries : ProtoRoutes} (distinct : (entries.map Prod.fst).Nodup) :
    entries.foldl (fun (routes : Routes) p => routes.set p.1 (some (text p.2))) [] =
      entries.map fun p => (p.1, some (text p.2)) := by
  have set_all := @foldl_setKey _ (entries.map fun p => (p.1, some (text p.2)))
    (by rw [List.map_map]; exact distinct)
  rw [List.foldl_map] at set_all
  exact set_all

theorem lawful (routes : Routes) : message.LawfulAt routes := by
  intro items written small
  obtain ⟨entries, of_routes, of_entries⟩ := Option.bind_eq_some_iff.1 written
  obtain ⟨distinct, rfl⟩ := protoRoutes_eq_some of_routes
  have sorted : ((sortKeys entries).map Prod.fst).Nodup :=
    ((List.mergeSort_perm _ _).map Prod.fst).nodup_iff.2 distinct
  obtain ⟨needed, reads⟩ := ProtoRoutes.lawful entries items of_entries small
  refine ⟨needed, fun fuel enough => ?_⟩
  have read : ProtoRoutes.message.read fuel (encodeAll items) [] =
      some (.ok (sortKeys entries)) := by
    rw [← foldl_setKey sorted]
    exact reads fuel enough
  have same : (sortKeys entries).map (fun p => (p.1, some (text p.2))) =
      sortKeys (entries.map fun p => (p.1, some (text p.2))) :=
    List.map_mergeSort fun a _ b _ => rfl
  change unmarshalProto fuel (encodeAll items) [] = some (.ok (sortKeys _))
  rw [unmarshalProto, read, andThen_ok, foldl_set sorted, same]

end Routes

/-! ### Desired LRPs -/

namespace DesiredLRP

def fields : List (MessageField DesiredLRP) :=
  [.string 1 "ProcessGuid" processGuid fun m v => { m with processGuid := v },
    .string 2 "Domain" domain fun m v => { m with domain := v },
    .string 3 "RootFs" rootFs fun m v => { m with rootFs := v },
    .number 4 "Instances" .int32 instances fun m v => { m with instances := v },
    .repeatedMessage 5 "EnvironmentVariables" EnvironmentVariable.message environmentVariables
      fun m v => { m with environmentVariables := v },
    .optional 6 "Setup" Action.message setup fun m v => { m with setup := v },
    .optional 7 "Action" Action.message action fun m v => { m with action := v },
    .number 8 "StartTimeout" .uint32 startTimeout fun m v => { m with startTimeout := v },
    .optional 9 "Monitor" Action.message monitor fun m v => { m with monitor := v },
    .number 10 "DiskMb" .int32 diskMb fun m v => { m with diskMb := v },
    .number 11 "MemoryMb" .int32 memoryMb fun m v => { m with memoryMb := v },
    .number 12 "CpuWeight" .uint32 cpuWeight fun m v => { m with cpuWeight := v },
    .number 13 "Privileged" .bool privileged fun m v => { m with privileged := v },
    .repeatedNumber 14 "Ports" .uint32 ports fun m v => { m with ports := v },
    .custom 15 "Routes" Routes.message routes fun m v => { m with routes := v },
    .string 16 "LogSource" logSource fun m v => { m with logSource := v },
    .string 17 "LogGuid" logGuid fun m v => { m with logGuid := v },
    .string 18 "MetricsGuid" metricsGuid fun m v => { m with metricsGuid := v },
    .string 19 "Annotation" annotation fun m v => { m with annotation := v },
    .repeatedMessage 20 "EgressRules" SecurityGroupRule.message egressRules
      fun m v => { m with egressRules := v },
    .optional 21 "ModificationTag" ModificationTag.message modificationTag
      fun m v => { m with modificationTag := v }]

/-- Routes are read back in the order in which they were written. -/
def normal (desired : DesiredLRP) : DesiredLRP :=
  { desired with
    routes := desired.routes.map sortKeys
    egressRules := desired.egressRules.map (Option.map SecurityGroupRule.message.normal) }

def message : Message DesiredLRP :=
  .ofFields .zero fields normal

theorem fills (desired : DesiredLRP) : Fills desired fields .zero desired.normal := by
  obtain ⟨guid, domain, rootFs, instances, env, setup, action, timeout, monitor, disk, memory, cpu,
    privileged, ports, routes, source, logGuid, metricsGuid, note, rules, tag⟩ := desired
  -- the fields up to a pointer or a list are set, and it is clear what is there
  refine .string (.string (.string (.number ?_)))
  change Fills (M := DesiredLRP) _ _ ⟨guid, domain, rootFs, instances, [], none, none, 0, none, 0,
    0, 0, false, [], none, "", "", "", "", [], none⟩ _
  refine .repeatedMessage ⟨fun _ _ => rfl, fun _ _ _ => rfl, rfl, rfl⟩ ?_
  rw [EnvironmentVariable.roundTrips.elements_eq]
  change Fills (M := DesiredLRP) _ _ ⟨guid, domain, rootFs, instances, env, none, none, 0, none, 0,
    0, 0, false, [], none, "", "", "", "", [], none⟩ _
  refine .optional rfl rfl ?_
  rw [Action.roundTrips.pointer_eq]
  change Fills (M := DesiredLRP) _ _ ⟨guid, domain, rootFs, instances, env, setup, none, 0, none, 0,
    0, 0, false, [], none, "", "", "", "", [], none⟩ _
  refine .optional rfl rfl (.number ?_)
  rw [Action.roundTrips.pointer_eq]
  change Fills (M := DesiredLRP) _ _ ⟨guid, domain, rootFs, instances, env, setup, action, timeout,
    none, 0, 0, 0, false, [], none, "", "", "", "", [], none⟩ _
  refine .optional rfl rfl (.number (.number (.number (.number ?_))))
  rw [Action.roundTrips.pointer_eq]
  change Fills (M := DesiredLRP) _ _ ⟨guid, domain, rootFs, instances, env, setup, action, timeout,
    monitor, disk, memory, cpu, privileged, [], none, "", "", "", "", [], none⟩ _
  refine .repeatedNumber ⟨fun _ _ => rfl, fun _ _ _ => rfl, rfl, rfl⟩ ?_
  change Fills (M := DesiredLRP) _ _ ⟨guid, domain, rootFs, instances, env, setup, action, timeout,
    monitor, disk, memory, cpu, privileged, ports, none, "", "", "", "", [], none⟩ _
  refine .custom rfl (.string (.string (.string (.string ?_))))
  change Fills (M := DesiredLRP) _ _ ⟨guid, domain, rootFs, instances, env, setup, action, timeout,
    monitor, disk, memory, cpu, privileged, ports, routes.map sortKeys, source, logGuid,
    metricsGuid, note, [], none⟩ _
  refine .repeatedMessage ⟨fun _ _ => rfl, fun _ _ _ => rfl, rfl, rfl⟩ (.optional rfl rfl ?_)
  rw [ModificationTag.roundTrips.pointer_eq]
  rfl

theorem roundTrips : message.RoundTrips fields Equal where
  generated := Message.ofFields_generated (by decide) fills
  sound := by
    simp [fields, MessageField.optional_sound, MessageField.custom_sound,
      MessageField.repeatedMessage_sound, EnvironmentVariable.roundTrips.lawful,
      Action.roundTrips.lawful, SecurityGroupRule.roundTrips.lawful,
      ModificationTag.roundTrips.lawful, Routes.lawful]
  equal desired := by
    refine ⟨?_, SecurityGroupRule.roundTrips.elements desired.egressRules, rfl⟩
    change Option.Rel List.Perm (desired.routes.map sortKeys) desired.routes
    cases desired.routes with
    | none => exact .none
    | some routes => exact .some (List.mergeSort_perm _ _)

end DesiredLRP

/-- What the desired LRPs handler answers with. -/
structure DesiredLRPs where
  desiredLrps : List (Option DesiredLRP)

namespace DesiredLRPs

def Equal (this that : DesiredLRPs) : Prop :=
  List.Forall₂ (Option.Rel DesiredLRP.Equal) this.desiredLrps that.desiredLrps

def fields : List (MessageField DesiredLRPs) :=
  [.repeatedMessage 1 "DesiredLrps" DesiredLRP.message desiredLrps fun _ v => ⟨v⟩]

def message : Message DesiredLRPs :=
  .ofFields ⟨[]⟩ fields fun m => ⟨m.desiredLrps.map (Option.map DesiredLRP.message.normal)⟩

theorem roundTrips : message.RoundTrips fields Equal where
  generated := Message.ofFields_generated (by decide) fun _ =>
    .repeatedMessage ⟨fun _ _ => rfl, fun _ _ _ => rfl, rfl, rfl⟩ rfl
  sound := by
    simp [fields, MessageField.repeatedMessage_sound, DesiredLRP.roundTrips.lawful]
  equal m := DesiredLRP.roundTrips.elements m.desiredLrps

end DesiredLRPs

end Bbs.Models
