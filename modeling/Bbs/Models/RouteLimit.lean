import Bbs.Models.DesiredLRP

/-!
The limit on the length of the routes in `DesiredLRP.Validate` (`models/desired_lrp.go`).

The loop over the routes stops at the first value that takes the total over the limit, and which
one that is depends on the order of iteration. What it reports does not (`checkRoutes_eq`), and
nothing else in `Validate` reports the field `routes`, however deep the actions are nested and
whatever is wrong with the egress rules: so `routes` is reported once or not at all
(`routes_reported_once`).
-/

namespace Bbs.Models

/-- The errors in what a `Validate` returned. -/
def reported : Option ErrorValue → List ErrorValue
  | none => []
  | some (.validation errors) => errors
  | some err => [err]

@[simp] theorem reported_result (ve : ValidationError) : reported ve.result = ve := by
  cases ve <;> rfl

def ErrorValue.names (field : String) : ErrorValue → Bool
  | .invalidField name => name = field
  | .text _ => false
  | .validation _ => false

/-- How often a field is reported. -/
def mentions (field : String) (ve : ValidationError) : Nat :=
  ve.countP (ErrorValue.names field)

section Mentions

variable {field name : String} {ve : ValidationError}

@[simp] theorem mentions_nil : mentions field [] = 0 := rfl

@[simp] theorem mentions_append (errors : ValidationError) :
    mentions field (ve ++ errors) = mentions field ve + mentions field errors :=
  List.countP_append

theorem mentions_eq_zero : mentions field ve = 0 ↔ ∀ e ∈ ve, e.names field = false := by
  simp [mentions]

@[simp] theorem mentions_violation (bad : Prop) [Decidable bad] :
    mentions field (violation bad name) = if bad ∧ name = field then 1 else 0 := by
  unfold violation mentions
  by_cases h : bad <;> simp [h, ErrorValue.names]

@[simp] theorem mentions_check (bad : Prop) [Decidable bad] :
    mentions field (ve.check bad (.invalidField name)) =
      mentions field ve + if bad ∧ name = field then 1 else 0 := by
  rw [check_eq_append, mentions_append, mentions_violation]

@[simp] theorem mentions_invalidField :
    mentions field (ve.append (.invalidField name)) =
      mentions field ve + if name = field then 1 else 0 := by
  simp [ValidationError.append, mentions, ErrorValue.names]

@[simp] theorem mentions_text (message : String) :
    mentions field (ve.append (.text message)) = mentions field ve := by
  simp [ValidationError.append, mentions, ErrorValue.names]

@[simp] theorem mentions_check_text (bad : Prop) [Decidable bad] (message : String) :
    mentions field (ve.check bad (.text message)) = mentions field ve := by
  unfold ValidationError.check
  split <;> simp

end Mentions

/-! ### Actions -/

theorem append_ne_routes {text : String} {c : Char} {chars : List Char}
    (starts : text.toList = c :: chars) (other : c ≠ 'r') (rest : String) :
    text ++ rest ≠ "routes" := by
  intro same
  have first := congrArg (List.head? ∘ String.toList) same
  simp only [Function.comp_apply, String.toList_append, starts, List.cons_append,
    List.head?_cons] at first
  exact other (Option.some.inj first)

theorem mentions_nilElements (index : Nat) (actions : List (Option Action)) :
    mentions "routes" (nilElements index actions) = 0 := by
  induction actions generalizing index with
  | nil => rfl
  | cons o actions ih =>
      cases o with
      | some w => exact ih (index + 1)
      | none =>
          have text : s!"action at index {index}" ≠ "routes" :=
            append_ne_routes rfl (by decide) _
          have other : ¬ (ErrorValue.invalidField s!"action at index {index}").names "routes" := by
            simpa [ErrorValue.names] using text
          rw [nilElements, mentions, List.countP_cons_of_neg other]
          exact ih (index + 1)

namespace ActionInterface

theorem mentions_violations (a : ActionInterface) : mentions "routes" a.violations = 0 := by
  cases a with
  | download | upload | run | timeout | emitProgress | tryAction => simp [violations]
  | parallel | serial | codependent =>
      simp [violations, ListAction.violations, mentions_nilElements]

/-- By induction along the wrappers: where `Validate` returns, no node below has reported the
field either. -/
theorem mentions_of_validate (a : ActionInterface) {outcome : Option ErrorValue}
    (validated : a.validate = some outcome) :
    ∃ errors : ValidationError, outcome = errors.result ∧ mentions "routes" errors = 0 := by
  induction a using ActionInterface.induction generalizing outcome with
  | node a ih =>
      have below : ∀ w ∈ a.children, ∃ errors : ValidationError,
          w.unwrapValidate = some errors.result ∧ mentions "routes" errors = 0 := by
        intro w mem
        have returned := a.validate_isSome.mp (by rw [validated]; rfl) w mem
        obtain ⟨i, value, returned⟩ := w.unwrapValidate_isSome_iff.mp returned
        obtain ⟨inner, validated⟩ := Option.isSome_iff_exists.mp returned
        obtain ⟨errors, rfl, silent⟩ := ih w mem i value validated
        refine ⟨errors, ?_, silent⟩
        rw [Action.unwrapValidate_eq, value, Option.bind_some, validated]
      have reports : ∀ w ∈ a.children, w.Reports (reported (w.unwrapValidate.getD none)) := by
        intro w mem
        obtain ⟨errors, report, -⟩ := below w mem
        exact ⟨errors, report, by simp [report]⟩
      obtain ⟨errors, validated', perm⟩ := validate_reports reports
      refine ⟨errors, Option.some.inj (validated.symm.trans validated'), ?_⟩
      rw [mentions_eq_zero]
      intro e mem
      rcases List.mem_append.mp (perm.subset mem) with own | inherited
      · exact mentions_eq_zero.mp a.mentions_violations e own
      · obtain ⟨w, child, mem⟩ := List.mem_flatMap.mp inherited
        obtain ⟨errors, report, silent⟩ := below w child
        simp only [report, Option.getD_some, reported_result] at mem
        exact mentions_eq_zero.mp silent e mem

end ActionInterface

/-! ### Egress rules -/

namespace SecurityGroupRule

theorem mentions_portLoop (ports : List UInt32) (ve : ValidationError) :
    mentions "routes" (ports.foldl (fun ve p => ve.check (p < 1) (.invalidField "ports")) ve) =
      mentions "routes" ve := by
  induction ports generalizing ve with
  | nil => rfl
  | cons p ports ih =>
      rw [List.foldl_cons, ih, mentions_check]
      simp

theorem mentions_validatePorts (rule : SecurityGroupRule) :
    mentions "routes" rule.validatePorts = 0 := by
  unfold validatePorts
  split
  · simp
  · simp
  · simp
  · rw [mentions_portLoop]
    simp

theorem mentions_validateProtocol (rule : SecurityGroupRule) :
    mentions "routes" rule.validateProtocol = 0 := by
  unfold validateProtocol
  split_ifs
  · simp [mentions_validatePorts]
  · simp [mentions_validatePorts]
  · simp
  · simp
  · simp

theorem mentions_of_validate (rule : SecurityGroupRule) :
    ∃ errors : ValidationError, rule.validate = errors.result ∧ mentions "routes" errors = 0 := by
  refine ⟨_, rfl, ?_⟩
  split
  · exact rule.mentions_validateProtocol
  · next err _ =>
      have other : "destinations [ " ++ err.error ++ " ]" ≠ "routes" := by
        rw [String.append_assoc]
        exact append_ne_routes rfl (by decide) _
      rw [mentions_invalidField, if_neg other, mentions_validateProtocol]

end SecurityGroupRule

/-! ### The whole of `Validate` -/

namespace DesiredLRP

theorem mentions_checkAction {ve ve' : ValidationError} {o : Option Action}
    (checked : checkAction ve o = some ve') : mentions "routes" ve' = mentions "routes" ve := by
  cases o with
  | none =>
      cases checked
      rfl
  | some w =>
      obtain ⟨outcome, validated, rfl⟩ := Option.map_eq_some_iff.mp checked
      rw [Action.unwrapValidate_eq] at validated
      obtain ⟨a, -, validated⟩ := Option.bind_eq_some_iff.mp validated
      obtain ⟨errors, rfl, silent⟩ := a.mentions_of_validate validated
      rw [ValidationError.extend_result, mentions_append, silent, Nat.add_zero]

theorem mentions_checkRules {ve ve' : ValidationError} {rules : List (Option SecurityGroupRule)}
    (checked : checkRules ve rules = some ve') :
    mentions "routes" ve' = mentions "routes" ve := by
  induction rules generalizing ve with
  | nil =>
      cases checked
      rfl
  | cons o rules ih =>
      cases o with
      | none => cases checked
      | some rule =>
          obtain ⟨errors, validated, silent⟩ := rule.mentions_of_validate
          rw [checkRules, validated] at checked
          cases errors with
          | nil => exact ih checked
          | cons e errors =>
              have longer := ih checked
              rw [longer, ValidationError.append, mentions_append, silent, mentions_invalidField]
              simp

/-- The length of all the route values together. -/
def totalRoutesLength (desired : DesiredLRP) : Nat :=
  (desired.routeValues.map fun value => (value.getD "").utf8ByteSize).sum

/-- Whichever order the routes are gone through in, only their loop reports them. -/
theorem mentions_validate {desired : DesiredLRP} {values : List (Option RawMessage)}
    {outcome : Option ErrorValue} (perm : values.Perm desired.routeValues)
    (present : none ∉ desired.routeValues) (validated : desired.validate values = some outcome) :
    mentions "routes" (reported outcome) =
      if maximumRouteLength < desired.totalRoutesLength then 1 else 0 := by
  rw [validate_perm perm fun missing => present (perm.mem_iff.mp missing)] at validated
  simp only [validate, Option.bind_eq_bind, Option.bind_eq_some_iff, Option.pure_def,
    Option.some.injEq] at validated
  obtain ⟨early, setup, middle, action, late, monitor, routed, routes, last, rules, rfl⟩ :=
    validated
  rw [checkRoutes_eq present _ (Nat.zero_le _), Nat.zero_add] at routes
  obtain rfl := Option.some.inj routes
  have before : mentions "routes" late = 0 := by
    rw [mentions_checkAction monitor, mentions_checkAction action, ErrInvalidActionType,
      mentions_check_text, mentions_checkAction setup]
    simp
  rw [reported_result, mentions_checkRules rules, mentions_check, ← totalRoutesLength]
  simp [before]

end DesiredLRP

/-- **The limit on the routes.** If no route value is nil, `Validate` ends in the same way in
whatever order Go iterates over the routes: it panics unless every wrapper it comes to has an
action and no egress rule is nil, and what it returns otherwise reports `routes` once if the values
together are longer than the limit, and not at all if they are not. -/
theorem routes_reported_once {desired : DesiredLRP} (present : none ∉ desired.routeValues) :
    ∃ outcome, (∀ other, desired.Validates other ↔ other = outcome) ∧
      (outcome.isSome ↔ desired.Guarded) ∧
      ∀ err, outcome = some err → mentions "routes" (reported err) =
        if maximumRouteLength < desired.totalRoutesLength then 1 else 0 := by
  have inOrder : desired.Validates (desired.validate desired.routeValues) := ⟨_, .refl _, rfl⟩
  refine ⟨desired.validate desired.routeValues, fun other => ?_, ?_, ?_⟩
  · constructor
    · intro validates
      exact validates.unique inOrder present
    · rintro rfl
      exact inOrder
  · rw [← desired.returns_iff_guarded]
    constructor
    · intro returned outcome validates
      rwa [validates.unique inOrder present]
    · intro returns
      exact returns _ inOrder
  · intro err validated
    exact desired.mentions_validate (.refl _) present validated

/-- A text of `2 ^ n` bytes. -/
def doubled : Nat → RawMessage
  | 0 => "x"
  | n + 1 => doubled n ++ doubled n

theorem utf8ByteSize_doubled (n : Nat) : (doubled n).utf8ByteSize = 2 ^ n := by
  induction n with
  | zero => decide
  | succ n ih =>
      rw [doubled, String.utf8ByteSize_append, ih]
      omega

/-- Two routes, each within the limit. -/
def sampleRouted : DesiredLRP :=
  { DesiredLRP.zero with
    action := some (wrapAction ActionInterface.sampleRun)
    routes := some [("cf-router", some (doubled 12)), ("diego-ssh", some (doubled 11))] }

theorem present_sampleRouted : none ∉ sampleRouted.routeValues := by
  simp [sampleRouted, DesiredLRP.routeValues]

theorem long_sampleRouted : maximumRouteLength < sampleRouted.totalRoutesLength := by
  simp [DesiredLRP.totalRoutesLength, DesiredLRP.routeValues, sampleRouted, utf8ByteSize_doubled,
    maximumRouteLength]

theorem guarded_sampleRouted : sampleRouted.Guarded := by
  constructor
  · simp [sampleRouted, DesiredLRP.zero]
  · rintro _ ⟨⟩
    exact .intro (ActionInterface.getValue_wrapAction _) (by simp [ActionInterface.sampleRun,
      ActionInterface.children])
  · simp [sampleRouted, DesiredLRP.zero]
  · exact present_sampleRouted
  · simp [sampleRouted, DesiredLRP.zero]

theorem routes_reported_once_sampleRouted :
    none ∉ sampleRouted.routeValues ∧ ∃ err,
      (∀ outcome, sampleRouted.Validates outcome ↔ outcome = some err) ∧
      mentions "routes" (reported err) = 1 := by
  obtain ⟨outcome, only, returns, reports⟩ := routes_reported_once present_sampleRouted
  obtain ⟨err, rfl⟩ := Option.isSome_iff_exists.mp (returns.mpr guarded_sampleRouted)
  refine ⟨present_sampleRouted, err, only, ?_⟩
  rw [reports err rfl, if_pos long_sampleRouted]

/-- With a wrapper that has no action, routes over the limit are not reported: `Validate` panics
before it comes to them. -/
theorem long_routes_unreported :
    none ∉ { sampleRouted with action := some .zero }.routeValues ∧
      maximumRouteLength < { sampleRouted with action := some .zero }.totalRoutesLength ∧
      ∀ outcome, { sampleRouted with action := some .zero }.Validates outcome ↔
        outcome = none := by
  refine ⟨present_sampleRouted, long_sampleRouted, fun outcome => ?_⟩
  constructor
  · rintro ⟨values, -, rfl⟩
    rfl
  · rintro rfl
    exact ⟨_, .refl _, rfl⟩

end Bbs.Models
