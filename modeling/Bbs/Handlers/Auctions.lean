import Bbs.Etcd.Client
import Bbs.Models.DesiredLRP
import Bbs.Models.TaskEncoding

/-!
The auction handlers (`Create` in `auctionhandlers/lrp_auction_handler.go` and
`auctionhandlers/task_auction_handler.go`).

Both decode a list, keep the elements that pass `Validate` and hand them to the auction runner.
`Validate` may panic, and then nothing is scheduled: `auctions_scheduled_iff`. Logging is left
out.
-/

namespace Bbs.Handlers

open Bbs.Etcd Bbs.Json Bbs.Models

/-! ### The loop -/

inductive AuctionResponse where
  /-- 202 -/
  | accepted
  /-- 400 -/
  | badRequest
  /-- 500 -/
  | internalServerError
  deriving DecidableEq

/-- The body of a request. -/
inductive Payload (α : Type) where
  /-- Reading it failed. -/
  | unreadable
  /-- It does not decode. -/
  | malformed
  | list (elements : List α)

/-- What a handler does: the lists it hands to the runner, and its response. -/
structure Created (α : Type) where
  scheduled : List (List α)
  response : AuctionResponse

/-- The elements with how their `Validate` ends. `none` if it panics. -/
def collect {α : Type} (valid : List α) : List (α × Option (Option ErrorValue)) → Option (List α)
  | [] => some valid
  | (_, none) :: _ => none
  | (a, some none) :: elements => collect (valid ++ [a]) elements
  | (_, some (some _)) :: elements => collect valid elements

section

variable {α : Type}

/-- How a handler may end, given how the `Validate` of an element may end. -/
def Creates (validates : α → Option (Option ErrorValue) → Prop) :
    Payload α → Option (Created α) → Prop
  | .unreadable, result => result = some ⟨[], .internalServerError⟩
  | .malformed, result => result = some ⟨[], .badRequest⟩
  | .list elements, result => ∃ outcomes, List.Forall₂ validates elements outcomes ∧
      result = (collect [] (elements.zip outcomes)).map fun valid => ⟨[valid], .accepted⟩

variable {validates : α → Option (Option ErrorValue) → Prop} {elements : List α}

open Classical in
/-- The handler schedules exactly the elements that pass `Validate`, in their order and at once. -/
def SchedulesValid (validates : α → Option (Option ErrorValue) → Prop) (elements : List α) : Prop :=
  ∀ result, Creates validates (.list elements) result →
    result = some ⟨[elements.filter fun a => validates a (some none)], .accepted⟩

theorem collect_isSome_of {valid : List α} {elements : List α}
    {outcomes : List (Option (Option ErrorValue))} (same : elements.length = outcomes.length)
    (returns : (collect valid (elements.zip outcomes)).isSome) : ∀ o ∈ outcomes, o.isSome := by
  induction elements generalizing valid outcomes with
  | nil =>
      cases outcomes with
      | nil => simp
      | cons => cases same
  | cons a elements ih =>
      cases outcomes with
      | nil => cases same
      | cons o outcomes =>
          have sameTail := Nat.succ.inj same
          match o with
          | none => cases returns
          | some none => exact List.forall_mem_cons.mpr ⟨rfl, ih sameTail returns⟩
          | some (some _) => exact List.forall_mem_cons.mpr ⟨rfl, ih sameTail returns⟩

open Classical in
theorem collect_eq_filter {valid : List α} {outcomes : List (Option (Option ErrorValue))}
    (unique : ∀ a ∈ elements, ∀ o, validates a o →
      o.isSome ∧ (validates a (some none) → o = some none))
    (validated : List.Forall₂ validates elements outcomes) :
    collect valid (elements.zip outcomes) =
      some (valid ++ elements.filter fun a => validates a (some none)) := by
  induction validated generalizing valid with
  | nil => simp [collect]
  | @cons a o elements outcomes here rest ih =>
      obtain ⟨first, unique⟩ := List.forall_mem_cons.mp unique
      obtain ⟨returns, passes⟩ := first o here
      rw [List.zip_cons_cons]
      match o with
      | none => cases returns
      | some none =>
          rw [collect, ih unique, List.filter_cons_of_pos (by simpa using here), List.append_assoc]
          rfl
      | some (some err) =>
          have fails : ¬ validates a (some none) := fun passed => nomatch passes passed
          rw [collect, ih unique, List.filter_cons_of_neg (by simpa using fails)]

/-- Every element has some outcome; those of a guarded one are the same and no panic. -/
theorem schedulesValid_iff {guarded : α → Prop}
    (total : ∀ a, ∃ o, validates a o)
    (returns : ∀ a, (∀ o, validates a o → o.isSome) ↔ guarded a)
    (unique : ∀ a, guarded a → ∀ o o', validates a o → validates a o' → o = o') :
    SchedulesValid validates elements ↔ ∀ a ∈ elements, guarded a := by
  constructor
  · intro schedules a mem
    rw [← returns]
    intro o validated
    -- an outcome for each element, and `o` for `a`
    classical
    choose any anyValidated using total
    have outcomes : List.Forall₂ validates elements
        (elements.map fun b => if b = a then o else any b) := by
      rw [List.forall₂_map_right_iff, List.forall₂_same]
      intro b _
      split
      · next same => rwa [same]
      · exact anyValidated b
    have result := schedules _ ⟨_, outcomes, rfl⟩
    obtain ⟨valid, collected, -⟩ := Option.map_eq_some_iff.mp result
    refine collect_isSome_of (by simp) (Option.isSome_iff_exists.mpr ⟨valid, collected⟩) o ?_
    exact List.mem_map.mpr ⟨a, mem, if_pos rfl⟩
  · rintro guarded _ ⟨outcomes, validated, rfl⟩
    rw [collect_eq_filter (fun a mem o here => ?_) validated]
    · simp
    · have safe := guarded a mem
      exact ⟨(returns a).mpr safe o here, fun passes => unique a safe _ _ here passes⟩

end

/-! ### Start requests -/

inductive StartField where
  | desiredLRP
  | indices
  deriving DecidableEq

def StartField.name : StartField → String
  | .desiredLRP => "desired_lrp"
  | .indices => "indices"

/-- A start request as the handler decodes it. -/
abbrev Start : Type :=
  LRPStartRequest DesiredLRP

namespace Start

def zero : Start :=
  ⟨none, []⟩

def fieldOf : String → Option StartField :=
  fieldNamed [.desiredLRP, .indices] StartField.name

def setField (rawText : Json → RawMessage) (start : Start) (field : StartField) (value : Json) :
    Option Start :=
  match field with
  | .desiredLRP =>
      (decodePointer .zero (DesiredLRP.unmarshal rawText) start.desiredLRP value).map fun desired =>
        { start with desiredLRP := desired }
  | .indices =>
      (decodeSlice 0 decodeUInt64 (some start.indices) value).map fun indices =>
        { start with indices := indices.getD [] }

/-- `Validate` calls that of the desired LRP through the pointer. -/
def Validates (start : Start) (outcome : Option (Option ErrorValue)) : Prop :=
  match start.desiredLRP with
  | none => outcome = none
  | some desired => ∃ err, desired.Validates err ∧ outcome = err.map fun err =>
      ((ValidationError.nil.extend err).check (start.indices.length = 0)
        (.invalidField "indices")).result

/-- There is a desired LRP, whose `Validate` does not panic. -/
def Guarded (start : Start) : Prop :=
  ∃ desired, start.desiredLRP = some desired ∧ desired.Guarded

theorem exists_validates (start : Start) : ∃ outcome, start.Validates outcome := by
  unfold Validates
  split
  · exact ⟨none, rfl⟩
  · exact ⟨_, _, ⟨_, .refl _, rfl⟩, rfl⟩

theorem returns_iff_guarded (start : Start) :
    (∀ outcome, start.Validates outcome → outcome.isSome) ↔ start.Guarded := by
  obtain ⟨desired, indices⟩ := start
  cases desired with
  | none =>
      constructor
      · intro returns
        cases returns none rfl
      · rintro ⟨_, missing, -⟩
        cases missing
  | some desired =>
      constructor
      · intro returns
        refine ⟨desired, rfl, desired.returns_iff_guarded.mp fun err validated => ?_⟩
        simpa using returns _ ⟨err, validated, rfl⟩
      · rintro ⟨_, same, guarded⟩ _ ⟨err, validated, rfl⟩
        cases same
        simpa using desired.returns_iff_guarded.mpr guarded err validated

theorem Validates.unique {start : Start} {outcome outcome' : Option (Option ErrorValue)}
    (guarded : start.Guarded) (validates : start.Validates outcome)
    (validates' : start.Validates outcome') : outcome = outcome' := by
  obtain ⟨_, indices⟩ := start
  obtain ⟨desired, rfl, guarded⟩ := guarded
  obtain ⟨err, validated, rfl⟩ := validates
  obtain ⟨err', validated', rfl⟩ := validates'
  rw [validated.unique validated' guarded.routes]

end Start

/-- The payload of `LRPAuctionHandler.Create`: `null` is an empty list, and an element `null` a zero
struct. -/
def decodeStarts (rawText : Json → RawMessage) (payload : Json) : Option (List Start) :=
  (decodeSlice .zero (decodeStruct Start.fieldOf (Start.setField rawText)) (some []) payload).map
    fun starts => starts.getD []

/-! ### Tasks -/

section

variable {O : Type} (actions : Actions Action ActionInterface) (schema : RuntimeSchema O)

/-- A zero struct. -/
def zeroTask : Models.Task Action where
  taskGuid := ""
  domain := ""
  rootFs := ""
  environmentVariables := none
  cellId := ""
  action := none
  resultFile := ""
  result := ""
  failed := false
  failureReason := ""
  memoryMb := 0
  diskMb := 0
  cpuWeight := 0
  privileged := false
  logGuid := ""
  logSource := ""
  metricsGuid := ""
  createdAt := 0
  updatedAt := 0
  firstCompletedAt := 0
  state := 0
  annotation := ""
  egressRules := none
  completionCallbackUrl := ""

/-- The payload of `TaskAuctionHandler.Create`: an element `null` is a nil pointer. -/
def decodeTasks (payload : Json) : Option (List (Option (Models.Task Action))) :=
  (decodeSlice none (decodePointer zeroTask (Models.Task.unmarshalJSON actions schema)) (some [])
    payload).map fun tasks => tasks.getD []

/-- `Validate` is called through the pointer. -/
def TaskValidates (task : Option (Models.Task Action)) (outcome : Option (Option ErrorValue)) : Prop :=
  outcome = task.bind (Models.Task.validate actions)

end

/-- **When the auction handlers schedule the valid elements.** Of every payload that decodes into a
list they schedule exactly the elements that pass `Validate`, in one call and in order, and accept
the request, if and only if no element is null, none has a null desired LRP, and none makes
`Validate` panic. -/
theorem auctions_scheduled_iff {O : Type} (rawText : Json → RawMessage)
    (marshal : Option Action → Option Json) (unmarshal : Json → Decoded Action)
    (schema : RuntimeSchema O) (payload : Json) :
    (∀ starts, decodeStarts rawText payload = some starts →
      (SchedulesValid Start.Validates starts ↔ ∀ start ∈ starts, start.Guarded)) ∧
    (∀ tasks, decodeTasks (actionsWith marshal unmarshal) schema payload = some tasks →
      (SchedulesValid (TaskValidates (actionsWith marshal unmarshal)) tasks ↔
        ∀ task ∈ tasks, ∃ t : Models.Task Action, task = some t ∧ t.Guarded)) := by
  constructor
  · intro starts _
    refine schedulesValid_iff Start.exists_validates Start.returns_iff_guarded ?_
    intro start guarded _ _ validates validates'
    exact validates.unique guarded validates'
  · intro tasks _
    refine schedulesValid_iff (fun _ => ⟨_, rfl⟩) (fun task => ?_) ?_
    · cases task with
      | none => simp [TaskValidates]
      | some task => simp [TaskValidates, task.returns_iff_guarded]
    · rintro _ _ _ _ rfl rfl
      rfl

/-! ### A valid element beside one that fails -/

theorem SchedulesValid.skips {α : Type} {validates : α → Option (Option ErrorValue) → Prop}
    {good bad : α} (schedules : SchedulesValid validates [good, bad])
    (passes : validates good (some none)) (fails : ¬ validates bad (some none))
    (result : Option (Created α)) (creates : Creates validates (.list [good, bad]) result) :
    result = some ⟨[[good]], .accepted⟩ := by
  rw [schedules result creates]
  simp [passes, fails]

/-- Two start requests for one desired LRP, the second without indices. -/
def sampleStarts : Json :=
  .arr [.obj [("desired_lrp", sampleDesired), ("indices", .arr [.num 0])],
    .obj [("desired_lrp", sampleDesired), ("indices", .arr [])]]

theorem sampleStarts_decoded {desired : DesiredLRP}
    (decoded : DesiredLRP.unmarshal (fun _ => "") .zero sampleDesired = some desired) :
    decodeStarts (fun _ => "") sampleStarts = some [⟨some desired, [0]⟩, ⟨some desired, []⟩] := by
  have named : Start.fieldOf "desired_lrp" = some .desiredLRP ∧
      Start.fieldOf "indices" = some .indices := by decide +kernel
  have pointer : decodePointer .zero (DesiredLRP.unmarshal fun _ => "") none sampleDesired =
      some (some desired) := by
    change (DesiredLRP.unmarshal (fun _ => "") .zero sampleDesired).map some = _
    rw [decoded, Option.map_some]
  have index : decodeUInt64 0 (.num 0) = some 0 := rfl
  simp [decodeStarts, sampleStarts, decodeSlice, decodeElements, decodeStruct, decodeMembers,
    named, Start.setField, Start.zero, pointer, index]

theorem start_passes {desired : DesiredLRP} (passes : desired.Passes) :
    Start.Validates ⟨some desired, [0]⟩ (some none) :=
  ⟨some none, ⟨_, .refl _, DesiredLRP.passes_iff.mp passes⟩, rfl⟩

theorem start_without_indices_fails {desired : DesiredLRP} (passes : desired.Passes) :
    ¬ Start.Validates ⟨some desired, []⟩ (some none) := by
  rintro ⟨err, validated, passed⟩
  rw [passes err validated] at passed
  cases passed

/-- Two tasks, the second without a domain. -/
def sampleTasks : Json :=
  let action : Json := .obj [("download", .obj [("from", .str "old_location"),
    ("to", .str "new_location"), ("cache_key", .str "the-cache-key"), ("user", .str "someone")])]
  .arr [.obj [("task_guid", .str "some-guid"), ("domain", .str "some-domain"),
      ("rootfs", .str "docker:///docker.com/docker"), ("action", action)],
    .obj [("task_guid", .str "some-guid"), ("rootfs", .str "docker:///docker.com/docker"),
      ("action", action)]]

theorem sampleTasks_decoded : ∃ good bad : Models.Task Action,
    decodeTasks jsonActions jsonSchema sampleTasks = some [some good, some bad] ∧
      good.validate jsonActions = some none ∧
        ∃ err, bad.validate jsonActions = some (some err) := by
  have outcomes : (decodeTasks jsonActions jsonSchema sampleTasks).map (List.map fun task =>
      (task.bind (Models.Task.validate jsonActions)).map Option.isNone) =
        some [some true, some false] := by decide +kernel
  obtain ⟨tasks, decoded, outcomes⟩ := Option.map_eq_some_iff.mp outcomes
  simp only [List.map_eq_cons_iff, List.map_eq_nil_iff, Option.map_eq_some_iff,
    Option.bind_eq_some_iff] at outcomes
  obtain ⟨_, _, rfl, ⟨passed, ⟨good, rfl, passes⟩, nil⟩, _, _, rfl, ⟨failed, ⟨bad, rfl, fails⟩,
    filled⟩, rfl⟩ := outcomes
  obtain rfl := Option.isNone_iff_eq_none.mp nil
  cases failed with
  | none => cases filled
  | some err => exact ⟨good, bad, decoded, passes, err, fails⟩

/-- Both handlers schedule the valid element and skip the one that fails `Validate`. -/
theorem auctions_scheduled_iff_samples :
    (∃ desired, decodeStarts (fun _ => "") sampleStarts =
        some [⟨some desired, [0]⟩, ⟨some desired, []⟩] ∧
      ∀ result, Creates Start.Validates (.list [⟨some desired, [0]⟩, ⟨some desired, []⟩]) result →
        result = some ⟨[[⟨some desired, [0]⟩]], .accepted⟩) ∧
    ∃ good bad, decodeTasks jsonActions jsonSchema sampleTasks = some [some good, some bad] ∧
      ∀ result, Creates (TaskValidates jsonActions) (.list [some good, some bad]) result →
        result = some ⟨[[some good]], .accepted⟩ := by
  constructor
  · obtain ⟨desired, read, -⟩ := Option.map_eq_some_iff.mp sampleDesired_fromJSON
    obtain ⟨decoded, passes⟩ := DesiredLRP.fromJSON_eq_some_iff.mp read
    have starts := sampleStarts_decoded decoded
    refine ⟨desired, starts, ?_⟩
    have scheduled := (auctions_scheduled_iff (fun _ => "") (fun _ => none)
      (lenient Action.unmarshal .zero) jsonSchema sampleStarts).1 _ starts
    refine (scheduled.mpr fun start mem => ?_).skips (start_passes passes)
      (start_without_indices_fails passes)
    simp only [List.mem_cons, List.not_mem_nil, or_false] at mem
    rcases mem with rfl | rfl <;> exact ⟨desired, rfl, passes.guarded⟩
  · obtain ⟨good, bad, tasks, passes, err, fails⟩ := sampleTasks_decoded
    refine ⟨good, bad, tasks, ?_⟩
    have scheduled := (auctions_scheduled_iff (fun _ => "")
      (fun action => some (marshalPointer action)) (lenient Action.unmarshal .zero) jsonSchema
      sampleTasks).2 _ tasks
    refine (scheduled.mpr fun task mem => ?_).skips passes.symm fun passed => ?_
    · simp only [List.mem_cons, List.not_mem_nil, or_false] at mem
      rcases mem with rfl | rfl
      · exact ⟨good, rfl, good.returns_iff_guarded.mp (Option.isSome_of_eq_some passes)⟩
      · exact ⟨bad, rfl, bad.returns_iff_guarded.mp (Option.isSome_of_eq_some fails)⟩
    · cases passed.trans fails

/-- The payload `[null]` makes both handlers panic. -/
theorem null_element_panics :
    (∃ starts, decodeStarts (fun _ => "") (.arr [.null]) = some starts ∧
      Creates Start.Validates (.list starts) none) ∧
    ∃ (actions : Actions Action ActionInterface) (schema : RuntimeSchema Empty) (tasks : _),
      decodeTasks actions schema (.arr [.null]) = some tasks ∧
        Creates (TaskValidates actions) (.list tasks) none := by
  refine ⟨⟨[.zero], rfl, [none], .cons rfl .nil, rfl⟩, ?_⟩
  refine ⟨actionsWith (fun _ => none) fun _ => ⟨.zero, true⟩,
    ⟨fun _ => none, fun _ => none, fun _ => .null, fun _ => none⟩, [none], rfl, [none], ?_, rfl⟩
  exact .cons rfl .nil

end Bbs.Handlers
