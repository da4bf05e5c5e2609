import Bbs.Etcd.Histories

/-!
Where changes of the store come from.

Whenever an operation has just applied a change, `Change` says which change it
was and what the operation must have seen before: a conditional write or delete
names the version of a record that was read, an unconditional write follows a
read that found nothing, and an unconditional delete follows the operation's own
write. `Request.change` proves it of every operation at any point of its course,
whether or not it has returned yet.
-/

namespace Bbs.Etcd

open Bbs.Interaction Bbs.Versioned Bbs.Models

variable {D : Type} {fromJSON : Json → Option D} {request : Request}

/-- `Change request past x`: exchange `x` of a request changed the store, and
`past` shows why it was entitled to. -/
inductive Change (request : Request) (past : List (Exchange (Call D) Answer)) :
    Exchange (Call D) Answer → Prop where
  | swap {path : String} {node : Node Json} {lrp new : ActualLRP} {clocks : List Int64}
      (named : request.path = some path) (seen : got path node ∈ past)
      (decoded : ActualLRP.unmarshal node.value = some lrp)
      (update : Update request lrp clocks new) (read : ∀ now ∈ clocks, ⟨.now, now⟩ ∈ past) :
      Change request past (swapped path new node.modifiedIndex)
  | create {key : ActualLRPKey} {instanceKey : ActualLRPInstanceKey} {netInfo : ActualLRPNetInfo}
      {e : EtcdError} {guid : String} {now : Int64}
      (started : request = .start ⟨some key, some instanceKey, some netInfo⟩)
      (missing : e.code = etcdErrKeyNotFound)
      (seen : ⟨.get (actualLRPSchemaPath key.processGuid key.index), .error e⟩ ∈ past)
      (drawn : ⟨.newV4, .ok guid⟩ ∈ past) (read : ⟨.now, now⟩ ∈ past) :
      Change request past ⟨.set (actualLRPSchemaPath key.processGuid key.index)
        (runningActualLRP key instanceKey netInfo now guid).marshal, .ok ()⟩
  | remove {path : String} {node : Node Json} {lrp : ActualLRP}
      (named : request.path = some path) (seen : got path node ∈ past)
      (decoded : ActualLRP.unmarshal node.value = some lrp) :
      Change request past
        (removed (actualLRPSchemaPath lrp.key.processGuid lrp.key.index) node.modifiedIndex)
  | cleanup {crash : CrashActualLRPRequest} {key : ActualLRPKey} {new : ActualLRP} {version : Nat}
      {e : EtcdError} {earlier : List (Exchange (Call D) Answer)}
      (crashed : request = .crash crash) (keyed : crash.actualLrpKey = some key)
      (quiet : Quiet earlier) (unclaimed : new.state = .unclaimed)
      (missing : e.code = etcdErrKeyNotFound)
      (wrote : past = earlier ++
        [swapped (actualLRPSchemaPath key.processGuid key.index) new version,
          ⟨.get (desiredLRPSchemaPathByProcessGuid key.processGuid), .error e⟩]) :
      Change request past ⟨.delete (actualLRPSchemaPath key.processGuid key.index), .ok ()⟩

namespace Change

variable {past : List (Exchange (Call D) Answer)} {x : Exchange (Call D) Answer}

/-- Exchanges that changed nothing may have come before. -/
theorem prepend {before : List (Exchange (Call D) Answer)} (h : Change request past x)
    (quiet : Quiet before) : Change request (before ++ past) x := by
  cases h with
  | swap named seen decoded update read =>
      exact .swap named (by simp [seen]) decoded update fun now hnow => by simp [read now hnow]
  | create started missing seen drawn read =>
      exact .create started missing (by simp [seen]) (by simp [drawn]) (by simp [read])
  | remove named seen decoded => exact .remove named (by simp [seen]) decoded
  | @cleanup _ _ _ _ _ earlier crashed keyed still unclaimed missing wrote =>
      subst wrote
      exact .cleanup crashed keyed (quiet_append.mpr ⟨quiet, still⟩) unclaimed missing
        (List.append_assoc _ _ _).symm

/-- A conditional delete names the record that was read. -/
theorem removed {path : String} {prevIndex : Nat}
    (h : Change request past (removed path prevIndex)) :
    ∃ read node lrp, request.path = some read ∧ got read node ∈ past ∧
      ActualLRP.unmarshal node.value = some lrp ∧
        path = actualLRPSchemaPath lrp.key.processGuid lrp.key.index ∧
          prevIndex = node.modifiedIndex := by
  generalize hx : Etcd.removed path prevIndex = x at h
  cases h with
  | remove named seen decoded =>
      simp only [Exchange.mk.injEq, Call.compareAndDelete.injEq] at hx
      exact ⟨_, _, _, named, seen, decoded, hx.1.1, hx.1.2⟩
  | swap | create | cleanup => simp at hx

end Change

/-! ### Locating a change -/

section Locate

variable {l a b rest : List (Exchange (Call D) Answer)} {x : Exchange (Call D) Answer}
  {made : Effect}

/-- A change does not happen among quiet exchanges. -/
theorem change_after (quiet : Quiet l) (same : l ++ rest = a ++ x :: b)
    (changes : effect x = some made) : ∃ a', a = l ++ a' ∧ rest = a' ++ x :: b := by
  rcases List.append_eq_append_iff.mp same with ⟨a', rfl, hrest⟩ | ⟨c, rfl, hx⟩
  · exact ⟨a', rfl, hrest⟩
  · cases c with
    | nil => exact ⟨[], by simp, by simpa using hx.symm⟩
    | cons y c =>
        obtain ⟨rfl, -⟩ := List.cons.inj hx
        rw [quiet x (by simp)] at changes
        cases changes

theorem quiet_readings (clocks : List Int64) :
    Quiet (clocks.map fun now => (⟨.now, now⟩ : Exchange (Call D) Answer)) := by
  intro y hy
  obtain ⟨now, -, rfl⟩ := List.mem_map.mp hy
  rfl

theorem Removal.quiet {lrp : ActualLRP} (h : Removal request lrp l) : Quiet l := by
  cases h <;> simp [effect]

/-- What follows a conditional write changes nothing, unless it is the clean-up of a
crash that put the record back to unclaimed and found no desired LRP. -/
theorem Closing.quiet_or_deletes {new : ActualLRP} (closing : Closing fromJSON request new l) :
    Quiet l ∨ ∃ crash key e last, request = .crash crash ∧ crash.actualLrpKey = some key ∧
      new.state = .unclaimed ∧ e.code = etcdErrKeyNotFound ∧ effect last = none ∧
        l = [⟨.get (desiredLRPSchemaPathByProcessGuid key.processGuid), .error e⟩,
          ⟨.delete (actualLRPSchemaPath key.processGuid key.index), .ok ()⟩, last] := by
  cases request with
  | crash r =>
      simp only [Closing] at closing
      split at closing
      · rename_i unclaimed
        obtain ⟨key, hkey, auction⟩ := closing
        cases auction with
        | unread => exact .inl (by simp [effect])
        | requested => exact .inl (by simp [effect])
        | undeleted => exact .inl (by simp [effect])
        | deleted missing => exact .inr ⟨r, key, _, _, rfl, hkey, unclaimed, missing, rfl, rfl⟩
      · subst closing
        exact .inl quiet_nil
  | claim | start | fail | remove | retire =>
      simp only [Closing] at closing
      subst closing
      exact .inl quiet_nil

/-- Every change of a request that succeeds is entitled to by what precedes it. -/
theorem Success.change {value : Option ActualLRP} (success : Success fromJSON request l value)
    (same : l = a ++ x :: b) (changes : effect x = some made) : Change request a x := by
  cases success with
  | @swap _ path node lrp new clocks tail named decoded update closing =>
      have quiet : Quiet (got path node :: clocks.map fun now => (⟨.now, now⟩ : Exchange (Call D) _)) :=
        quiet_cons.mpr ⟨rfl, quiet_readings clocks⟩
      obtain ⟨a', rfl, h⟩ := change_after quiet same changes
      cases a' with
      | nil =>
          obtain ⟨rfl, -⟩ := List.cons.inj h
          exact .swap named (by simp) decoded update fun now hnow => by simp [hnow]
      | cons y a' =>
          obtain ⟨rfl, rest⟩ := List.cons.inj h
          rcases closing.quiet_or_deletes with
            still | ⟨crash, key, e, last, rfl, keyed, unclaimed, absent, inert, rfl⟩
          · have hx : x ∈ tail := rest ▸ List.mem_append_right a' List.mem_cons_self
            rw [still x hx] at changes
            cases changes
          · obtain rfl : actualLRPSchemaPath key.processGuid key.index = path := by
              simpa [Request.path, Request.slot, keyed] using named
            obtain ⟨a'', rfl, tail⟩ := change_after (by simp [effect]) (l := [_]) rest changes
            cases a'' with
            | nil =>
                obtain ⟨rfl, -⟩ := List.cons.inj tail
                exact .cleanup rfl keyed quiet unclaimed absent rfl
            | cons y a'' =>
                obtain ⟨-, one⟩ := List.cons.inj tail
                have hx : x ∈ [last] := one ▸ List.mem_append_right a'' List.mem_cons_self
                rw [List.mem_singleton.mp hx, inert] at changes
                cases changes
  | @create key instanceKey netInfo e guid now missing =>
      have quiet : Quiet [⟨.get (actualLRPSchemaPath key.processGuid key.index), .error e⟩,
          ⟨.newV4, .ok guid⟩, (⟨.now, now⟩ : Exchange (Call D) _)] := by simp [effect]
      obtain ⟨a', rfl, h⟩ := change_after quiet same changes
      cases a' with
      | nil =>
          obtain ⟨rfl, -⟩ := List.cons.inj h
          exact .create rfl missing (by simp) (by simp) (by simp)
      | cons y a' => simp at h
  | keep | stop =>
      have hx : x ∈ a ++ x :: b := by simp
      rw [← same] at hx
      simp only [List.mem_cons, List.not_mem_nil, or_false] at hx
      rcases hx with rfl | rfl | rfl <;> cases changes
  | @remove _ path node lrp asked named decoded removal =>
      have quiet : Quiet (got path node :: asked) := quiet_cons.mpr ⟨rfl, removal.quiet⟩
      obtain ⟨a', rfl, h⟩ := change_after quiet same changes
      cases a' with
      | nil =>
          obtain ⟨rfl, -⟩ := List.cons.inj h
          exact .remove named (by simp) decoded
      | cons y a' => simp at h

end Locate

/-- **Every change is entitled to.** Whatever an operation has just changed, its
own past exchanges show why. -/
theorem Request.change {l : List (Exchange (Call D) Answer)} {x : Exchange (Call D) Answer}
    {q : Operation D (Except Failure (Option ActualLRP))} {made : Effect}
    (play : Plays (request.program fromJSON) (l ++ [x]) q) (changes : effect x = some made) :
    Change request l x := by
  -- continue the operation somehow: having changed something it can only succeed
  obtain ⟨rest, res, returns⟩ := play.extends
  cases res with
  | error failure =>
      have quiet := Request.returns_error returns
      rw [quiet x (by simp)] at changes
      cases changes
  | ok value =>
      obtain ⟨before, last, whole, quiet, -, success⟩ := Request.returns_ok returns
      rw [List.append_assoc] at whole
      obtain ⟨a, rfl, rfl⟩ := change_after quiet whole.symm changes
      exact (success.change rfl changes).prepend quiet

/-! ### Updates -/

theorem Update.key {lrp new : ActualLRP} {clocks : List Int64}
    (h : Update request lrp clocks new) : new.key = lrp.key := by
  cases h <;> rfl

theorem Request.start_valid {key : ActualLRPKey} {instanceKey : ActualLRPInstanceKey}
    {netInfo : ActualLRPNetInfo}
    (accepted : (Request.start ⟨some key, some instanceKey, some netInfo⟩).validate = none) :
    key.Valid ∧ instanceKey.Valid ∧ netInfo.address ≠ "" := by
  obtain ⟨key', instanceKey', netInfo', same, hk, hi, hn⟩ :=
    StartActualLRPRequest.validate_eq_none_iff.mp accepted
  cases same
  exact ⟨hk, hi, hn⟩

/-- An accepted request makes a valid record of a valid record. -/
theorem Update.valid {lrp new : ActualLRP} {clocks : List Int64}
    (h : Update request lrp clocks new) (accepted : request.validate = none) (valid : lrp.Valid)
    (clock : ∀ now ∈ clocks, now ≠ 0) : new.Valid := by
  cases h with
  | claim carried allowed checked => exact ActualLRP.validate_eq_none_iff.mp checked
  | start different allowed =>
      obtain ⟨-, hi, hn⟩ := Request.start_valid accepted
      exact ActualLRP.startedBy_valid valid hi hn (clock _ (by simp))
  | crash allowed crashes =>
      exact ActualLRP.crashOutcome_valid valid crashes (clock _ (by simp))
  | fail unclaimed => exact ActualLRP.failedWith_valid valid unclaimed (clock _ (by simp))

end Bbs.Etcd
