import Bbs.Etcd.RawStart
import Bbs.Lifecycle.Runs

/-!
Starts racing for an empty slot.

A start that finds no record writes one unconditionally. Two such starts can both
succeed, and then the second has overwritten the first (`bothStart_succeed`). Had
every such write been conditional on the slot still being empty, there would be
one winner, and it would keep the slot (`single_winner_of_guarded_creation`): by
rely and guarantee, where each start relies on the others not to take the slot
in its name nor from whoever holds it.

That needs instance keys of valid UTF-8. Others are not stored as they are, and a
start may then find its own name on the record of another (`garbledStarts_succeed`).
-/

namespace Bbs.Lifecycle

open Bbs.Interaction Bbs.Versioned Bbs.Models Bbs.Etcd

variable {D ι : Type}

/-! ### Who holds the slot -/

/-- The store has, at `path`, a running record of the instance `instanceKey`. -/
def RunsAt (path : String) (instanceKey : RawInstanceKey) (σ : Records) : Prop :=
  ∃ node lrp, σ.nodes path = some node ∧ ActualLRP.unmarshal node.value = some lrp ∧
    lrp.state = .running ∧ RawInstanceKey.ofText lrp.instanceKey = instanceKey

theorem RunsAt.unique {path : String} {a b : RawInstanceKey} {σ : Records}
    (ha : RunsAt path a σ) (hb : RunsAt path b σ) : a = b := by
  obtain ⟨node, lrp, found, decoded, -, rfl⟩ := ha
  obtain ⟨node', lrp', found', decoded', -, rfl⟩ := hb
  rw [found] at found'
  cases found'
  rw [decoded] at decoded'
  cases decoded'
  rfl

theorem RunsAt.write (path : String) {lrp : ActualLRP} {instanceKey : RawInstanceKey}
    (running : lrp.state = .running) (own : RawInstanceKey.ofText lrp.instanceKey = instanceKey)
    (σ : Records) : RunsAt path instanceKey (σ.write path lrp.marshal) :=
  ⟨_, lrp, Store.write_nodes_self _ _ _, ActualLRP.unmarshal_marshal lrp, running, own⟩

section Race

variable (path : String) (K : ι → RawInstanceKey)

/-- The slot is empty or held by one of the racing instances. -/
def Raced (σ : Records) : Prop :=
  σ.nodes path = none ∨ ∃ t, RunsAt path (K t) σ

/-- What start `t` needs of the others: the slot stays raced for, its holder stays,
and nobody takes it in the name of `t`. -/
def relyOn (t : ι) (σ τ : Records) : Prop :=
  Raced path K σ → Raced path K τ ∧ (∀ u, RunsAt path (K u) σ → RunsAt path (K u) τ) ∧
    (RunsAt path (K t) τ → RunsAt path (K t) σ)

/-- What start `t` does for the others. -/
def guaranteeOf (t : ι) : Environment Records (Call D) Answer :=
  fun σ _ _ τ =>
    Raced path K σ → Raced path K τ ∧ (∀ u, RunsAt path (K u) σ → RunsAt path (K u) τ) ∧
      ∀ u, u ≠ t → RunsAt path (K u) τ → RunsAt path (K u) σ

/-- A successful start holds the slot. -/
def wins (t : ι) (reply : Except Failure RawActualLRP) (σ : Records) : Prop :=
  Raced path K σ ∧ ∀ value, reply = .ok value → RunsAt path (K t) σ

/-- The environment in which unconditional writes find nothing to overwrite. -/
def Guarded : Environment Records (Call D) Answer :=
  fun σ c answer _ => ∀ value, (⟨c, answer⟩ : Exchange (Call D) Answer) =
    ⟨.set path value, .ok ()⟩ → σ.nodes path = none

/-- As start `t` among the others, the program does for them what they need and holds the
slot when it succeeds. -/
abbrev Holds (t : ι) (p : Operation D (Except Failure RawActualLRP)) (σ : Records) : Prop :=
  Ensures (fun σ c a σ' => etcd σ c a σ' ∧ Guarded path σ c a σ') (relyOn path K t)
    (guaranteeOf path K t) (wins path K t) p σ

theorem relyOn_refl (t : ι) (σ : Records) : relyOn path K t σ σ :=
  fun raced => ⟨raced, fun _ h => h, fun h => h⟩

theorem relyOn_trans (t : ι) (σ τ υ : Records) (first : relyOn path K t σ τ)
    (second : relyOn path K t τ υ) : relyOn path K t σ υ := by
  intro raced
  obtain ⟨raced, kept, own⟩ := first raced
  obtain ⟨raced, kept', own'⟩ := second raced
  exact ⟨raced, fun u h => kept' u (kept u h), fun h => own (own' h)⟩

variable {path K}

/-- A start that has just been refused ends as it should. -/
theorem holds_error {t : ι} {σ : Records} (raced : Raced path K σ) (failure : Failure) :
    Holds path K t (.ret (.error failure) : Operation D _) σ :=
  fun _ rely => ⟨(rely raced).1, fun _ h => (nomatch h)⟩

/-- A call without effect leaves a start where the others have brought it. -/
theorem holds_call {t : ι} {c : Call D}
    {k : Answer c → Operation D (Except Failure RawActualLRP)} {σ : Records}
    (quiet : ∀ answer, effect ⟨c, answer⟩ = none)
    (next : ∀ answer τ, relyOn path K t σ τ → Allowed τ c answer → Holds path K t (k answer) τ) :
    Holds path K t (.call c k) σ := by
  intro τ rely answer υ step
  obtain rfl := etcd_of_effect_none step.1 (quiet answer)
  exact ⟨fun raced => ⟨raced, fun _ h => h, fun _ _ h => h⟩, next answer υ rely step.1.1⟩

/-- Writing to the empty slot hands it to the writer. -/
theorem guarantee_create (injective : Function.Injective K) {t : ι} {σ : Records}
    (vacant : σ.nodes path = none) (lrp : ActualLRP) (running : lrp.state = .running)
    (own : RawInstanceKey.ofText lrp.instanceKey = K t) :
    Raced path K (σ.write path lrp.marshal) ∧
      (∀ u, RunsAt path (K u) σ → RunsAt path (K u) (σ.write path lrp.marshal)) ∧
      ∀ u, u ≠ t → RunsAt path (K u) (σ.write path lrp.marshal) → RunsAt path (K u) σ := by
  have holds := RunsAt.write path running own σ
  refine ⟨.inr ⟨t, holds⟩, fun u h => ?_, fun u other h => ?_⟩
  · obtain ⟨node, lrp, found, -⟩ := h
    rw [vacant] at found
    cases found
  · exact absurd (injective (h.unique holds)) other

variable {key : ActualLRPKey} {netInfo : ι → ActualLRPNetInfo}

theorem holds_create (injective : Function.Injective K) {t : ι} (valid : (K t).ValidUtf8)
    {σ : Records} (raced : Raced (actualLRPSchemaPath key.processGuid key.index) K σ) :
    Holds (actualLRPSchemaPath key.processGuid key.index) K t
      (rawCreateRunningActualLRP key (K t) (netInfo t) : Operation D _) σ := by
  have own : RawInstanceKey.ofText (K t).written = K t := valid.ofText_written
  refine holds_call (fun _ => rfl) fun answer σ₁ rely₁ _ => ?_
  have raced₁ := (rely₁ raced).1
  rcases answer with _ | guid
  · exact holds_error raced₁ _
  refine holds_call (fun _ => rfl) fun now σ₂ rely₂ _ => ?_
  have raced₂ := (rely₂ raced₁).1
  -- the write: the guard says that the slot is still empty
  intro σ₃ rely₃ answer σ₄ step
  have raced₃ := (rely₃ raced₂).1
  rcases answer with e | ⟨⟩
  · obtain rfl := etcd_of_effect_none step.1 rfl
    exact ⟨fun raced => ⟨raced, fun _ h => h, fun _ _ h => h⟩, holds_error raced₃ _⟩
  · obtain rfl := etcd_of_effect_some step.1 rfl
    have vacant : σ₃.nodes (actualLRPSchemaPath key.processGuid key.index) = none :=
      step.2 _ rfl
    have created := guarantee_create injective (t := t) vacant
      (runningActualLRP key (K t).written (netInfo t) now guid) rfl own
    refine ⟨fun _ => created, fun σ₅ rely₅ => ?_⟩
    obtain ⟨raced₅, kept, -⟩ := rely₅ created.1
    exact ⟨raced₅, fun _ _ => kept t (RunsAt.write _ rfl own σ₃)⟩

/-- A start that begins while nobody runs in its name ends by holding the slot or by
being refused. -/
theorem holds_start (injective : Function.Injective K) {t : ι} (valid : (K t).ValidUtf8)
    {σ : Records} (raced : Raced (actualLRPSchemaPath key.processGuid key.index) K σ)
    (absent : ¬ RunsAt (actualLRPSchemaPath key.processGuid key.index) (K t) σ) :
    Holds (actualLRPSchemaPath key.processGuid key.index) K t
      (rawStartActualLRP key (K t) (netInfo t) : Operation D _) σ := by
  simp only [rawStartActualLRP, rawActualLRP_eq, Program.call_bind, Program.ret_bind]
  refine holds_call (fun _ => rfl) fun answer σ₁ rely₁ allowed => ?_
  obtain ⟨raced₁, -, own⟩ := rely₁ raced
  cases read : readAnswer ActualLRP.unmarshal answer with
  | error e =>
      by_cases missing : e = ErrResourceNotFound
      · simp only [missing, if_true]
        exact holds_create injective valid raced₁
      · simp only [missing, if_false]
        exact holds_error raced₁ _
  | ok found =>
      obtain ⟨lrp, version⟩ := found
      obtain ⟨node, rfl, decoded, -⟩ := readAnswer_ok read
      have found : σ₁.nodes (actualLRPSchemaPath key.processGuid key.index) = some node := allowed
      -- the record that was found runs in somebody else's name
      obtain ⟨running, other⟩ :
          lrp.state = .running ∧ RawInstanceKey.ofText lrp.instanceKey ≠ K t := by
        rcases raced₁ with vacant | ⟨u, node', lrp', found', decoded', running, -⟩
        · rw [vacant] at found
          cases found
        · rw [found] at found'
          cases found'
          rw [decoded] at decoded'
          cases decoded'
          exact ⟨running, fun same => absent (own ⟨node, lrp, found, decoded, running, same⟩)⟩
      have different : rawIsStarted lrp key (K t) (netInfo t) = false := by
        simp [rawIsStarted, other]
      have refused : ¬ rawAllowsRunning lrp key (K t) = true := by
        simp [rawAllowsRunning, running, other]
      simp only [different, refused, Bool.false_eq_true, if_false, not_false_eq_true, if_true]
      exact holds_error raced₁ _

variable [DecidableEq ι] {σ σ' : Records} {events : List (StoreEvent D ι)}
  {pool : ι → Operation D (Except Failure RawActualLRP)}

/-- **A single winner, if creation were guarded.** Let starts with different instance
keys of valid UTF-8 race for an empty slot, and suppose that whenever a start's
unconditional write is applied the slot is still empty. Then at every point of the run
at most one start has succeeded, and the slot is running for the one that has. -/
theorem single_winner_of_guarded_creation (injective : Function.Injective K)
    (valid : ∀ t, (K t).ValidUtf8)
    (run : Run etcd σ (fun t => rawStartActualLRP key (K t) (netInfo t)) events σ' pool)
    (vacant : σ.nodes (actualLRPSchemaPath key.processGuid key.index) = none)
    (guarded : ∀ e ∈ events, ∀ value,
      e.exchange = ⟨.set (actualLRPSchemaPath key.processGuid key.index) value, .ok ()⟩ →
        e.before.nodes (actualLRPSchemaPath key.processGuid key.index) = none) :
    (∀ t u value value', pool t = .ret (.ok value) → pool u = .ret (.ok value') → t = u) ∧
      ∀ t value, pool t = .ret (.ok value) →
        RunsAt (actualLRPSchemaPath key.processGuid key.index) (K t) σ' := by
  have restricted := run.restrict (Guarded (actualLRPSchemaPath key.processGuid key.index)) guarded
  have absent (t : ι) :
      ¬ RunsAt (actualLRPSchemaPath key.processGuid key.index) (K t) σ := by
    rintro ⟨node, lrp, found, -⟩
    rw [vacant] at found
    cases found
  obtain ⟨-, final⟩ := restricted.ensures (relyOn_trans _ K) (relyOn_refl _ K)
    (fun t u different s _ _ s' guarantee raced =>
      let ⟨raced', kept, others⟩ := guarantee raced
      ⟨raced', kept, others u different.symm⟩)
    (fun t => holds_start injective (valid t) (.inl vacant) (absent t))
  have winner (t : ι) (value : RawActualLRP) (returned : pool t = .ret (.ok value)) :
      RunsAt (actualLRPSchemaPath key.processGuid key.index) (K t) σ' := by
    have done := final t
    rw [returned] at done
    exact (done σ' (relyOn_refl _ K t σ')).2 value rfl
  refine ⟨fun t u value value' ht hu => injective ?_, winner⟩
  exact (winner t value ht).unique (winner u value' hu)

end Race

/-- Two starts find the slot empty before either of them writes, and the second write is
refused. -/
def secondRefused : List (StoreEvent Unit Bool) :=
  let σ := sampleStore (sampleRunning 0)
  [⟨false, .empty, .get samplePath, .error ⟨100⟩, .empty⟩,
    ⟨true, .empty, .get samplePath, .error ⟨100⟩, .empty⟩,
    ⟨true, .empty, .newV4, .ok (sampleEpoch 1), .empty⟩,
    ⟨false, .empty, .newV4, .ok (sampleEpoch 0), .empty⟩,
    ⟨false, .empty, .now, (1 : Int64), .empty⟩,
    ⟨true, .empty, .now, (1 : Int64), .empty⟩,
    ⟨false, .empty, .set samplePath (sampleRunning 0).marshal, .ok (), σ⟩,
    ⟨true, σ, .set samplePath (sampleRunning 1).marshal, .error ⟨105⟩, σ⟩]

/-- The racing instances. -/
def sampleRacer (t : Bool) : RawInstanceKey :=
  .ofText (sampleInstance (if t then 1 else 0))

theorem single_winner_of_guarded_creation_race :
    ∃ pool, Run etcd .empty (fun t => rawStartActualLRP sampleKey (sampleRacer t) sampleNetInfo)
        secondRefused (sampleStore (sampleRunning 0)) pool ∧
      (∃ value, pool false = .ret (.ok value)) ∧ (∃ e, pool true = .ret (.error e)) ∧
      RunsAt samplePath (sampleRacer false) (sampleStore (sampleRunning 0)) := by
  have injective : Function.Injective sampleRacer := by
    intro t u same
    revert same
    cases t <;> cases u <;> decide +kernel
  have valid (t : Bool) : (sampleRacer t).ValidUtf8 := ⟨_, rfl⟩
  have run : ∃ pool, Run etcd .empty
      (fun t => rawStartActualLRP sampleKey (sampleRacer t) sampleNetInfo) secondRefused
      (sampleStore (sampleRunning 0)) pool ∧ (∃ value, pool false = .ret (.ok value)) ∧
        ∃ e, pool true = .ret (.error e) :=
    ⟨_, .cons rfl ⟨fun _ => rfl, rfl⟩ <| .cons rfl ⟨fun _ => rfl, rfl⟩ <|
      .cons rfl ⟨trivial, rfl⟩ <| .cons rfl ⟨trivial, rfl⟩ <| .cons rfl ⟨trivial, rfl⟩ <|
      .cons rfl ⟨trivial, rfl⟩ <| .cons rfl ⟨trivial, rfl⟩ <| .cons rfl ⟨trivial, rfl⟩ <|
      .nil _ _, ⟨_, rfl⟩, ⟨_, rfl⟩⟩
  have guarded : ∀ e ∈ secondRefused, ∀ value,
      e.exchange = ⟨.set (actualLRPSchemaPath sampleKey.processGuid sampleKey.index) value, .ok ()⟩ →
        e.before.nodes (actualLRPSchemaPath sampleKey.processGuid sampleKey.index) = none := by
    intro e he value applied
    simp only [secondRefused, List.mem_cons, List.not_mem_nil, or_false] at he
    rcases he with rfl | rfl | rfl | rfl | rfl | rfl | rfl | rfl
    · rfl
    · rfl
    · rfl
    · rfl
    · rfl
    · rfl
    · rfl
    · cases congrArg effect applied
  obtain ⟨pool, run, ⟨value, won⟩, lost⟩ := run
  have winner := (single_winner_of_guarded_creation injective valid run rfl guarded).2
  exact ⟨pool, run, ⟨value, won⟩, lost, winner false value won⟩

/-! ### Bytes that are no UTF-8 -/

/-- A byte that is no UTF-8, and the bytes of the character that it is stored as. -/
def garbledRacer (t : Bool) : RawInstanceKey :=
  ⟨if t then [0xEF, 0xBF, 0xBD] else [0xFF], Utf8.utf8 "cell"⟩

def garbledRecord : ActualLRP :=
  runningActualLRP sampleKey (garbledRacer false).written sampleNetInfo 1 (sampleEpoch 0)

/-- The second start reads what the first has written. -/
def garbledStarts : List (StoreEvent Unit Bool) :=
  let σ := sampleStore garbledRecord
  [⟨false, .empty, .get samplePath, .error ⟨100⟩, .empty⟩,
    ⟨false, .empty, .newV4, .ok (sampleEpoch 0), .empty⟩,
    ⟨false, .empty, .now, (1 : Int64), .empty⟩,
    ⟨false, .empty, .set samplePath garbledRecord.marshal, .ok (), σ⟩,
    ⟨true, σ, .get samplePath, .ok (.leaf ⟨garbledRecord.marshal, 1⟩), σ⟩]

/-- Two starts with different instance keys succeed, though the only write found the slot
empty. -/
theorem garbledStarts_succeed :
    garbledRacer false ≠ garbledRacer true ∧ ∃ pool, Run etcd .empty
        (fun t => rawStartActualLRP sampleKey (garbledRacer t) sampleNetInfo) garbledStarts
        (sampleStore garbledRecord) pool ∧
      ∀ t, ∃ value, pool t = .ret (.ok value) := by
  have second : Returns (rawStartActualLRP sampleKey (garbledRacer true) sampleNetInfo :
      Operation Unit _) [got samplePath ⟨garbledRecord.marshal, 1⟩]
      (.ok (.ofText garbledRecord)) := by
    have read : readAnswer ActualLRP.unmarshal (.ok (.leaf ⟨garbledRecord.marshal, 1⟩)) =
        .ok (garbledRecord, 1) := readAnswer_leaf (ActualLRP.unmarshal_marshal _)
    rw [rawStartActualLRP, rawActualLRP_eq]
    refine .cons ?_
    simp only [read]
    -- the name that it finds is its own
    exact .nil _
  refine ⟨by decide +kernel, fun t => .ret (.ok (if t then .ofText garbledRecord else
    ⟨garbledRecord, garbledRacer false⟩)), Run.of_plays ⟨rfl, rfl, rfl, rfl, rfl, rfl⟩ ?_ ?_,
    fun t => ⟨_, rfl⟩⟩
  · intro e he
    simp only [garbledStarts, List.mem_cons, List.not_mem_nil, or_false] at he
    rcases he with rfl | rfl | rfl | rfl | rfl
    · exact ⟨fun _ => rfl, rfl⟩
    · exact ⟨trivial, rfl⟩
    · exact ⟨trivial, rfl⟩
    · exact ⟨trivial, rfl⟩
    · exact ⟨sampleStore_nodes garbledRecord, rfl⟩
  · rintro (_ | _)
    · exact .cons (.cons (.cons (.cons (.nil _))))
    · exact second

/-! ### Two winners -/

/-- Two starts find the slot empty before either of them writes. -/
def bothStart : List (StoreEvent Unit Bool) :=
  let σ₁ := sampleStore (sampleRunning 0)
  let σ₂ := σ₁.write samplePath (sampleRunning 1).marshal
  [⟨false, .empty, .get samplePath, .error ⟨100⟩, .empty⟩,
    ⟨true, .empty, .get samplePath, .error ⟨100⟩, .empty⟩,
    ⟨false, .empty, .newV4, .ok (sampleEpoch 0), .empty⟩,
    ⟨false, .empty, .now, (1 : Int64), .empty⟩,
    ⟨false, .empty, .set samplePath (sampleRunning 0).marshal, .ok (), σ₁⟩,
    ⟨true, σ₁, .newV4, .ok (sampleEpoch 1), σ₁⟩,
    ⟨true, σ₁, .now, (1 : Int64), σ₁⟩,
    ⟨true, σ₁, .set samplePath (sampleRunning 1).marshal, .ok (), σ₂⟩]

/-- Both starts succeed, though their instance keys differ, and the record of the
first is gone. -/
theorem bothStart_succeed :
    let σ := (sampleStore (sampleRunning 0)).write samplePath (sampleRunning 1).marshal
    (∃ pool, Served (fun _ => none) (fun t => sampleStart (if t then 1 else 0)) .empty bothStart
      σ pool ∧ pool false = .ret (.ok (some (sampleRunning 0))) ∧
        pool true = .ret (.ok (some (sampleRunning 1)))) ∧
      sampleInstance 0 ≠ sampleInstance 1 ∧ ¬ RunsAt samplePath (.ofText (sampleInstance 0)) σ := by
  have different : sampleInstance 0 ≠ sampleInstance 1 := by decide
  refine ⟨?_, different, fun first => ?_⟩
  · refine ⟨fun t => .ret (.ok (some (sampleRunning (if t then 1 else 0)))),
      Run.of_plays ⟨rfl, rfl, rfl, rfl, rfl, rfl, rfl, rfl, rfl⟩ ?_ ?_, rfl, rfl⟩
    · intro e he
      simp only [bothStart, List.mem_cons, List.not_mem_nil, or_false] at he
      rcases he with rfl | rfl | rfl | rfl | rfl | rfl | rfl | rfl
      · exact ⟨fun _ => rfl, rfl⟩
      · exact ⟨fun _ => rfl, rfl⟩
      all_goals exact ⟨trivial, rfl⟩
    · rintro (_ | _)
      · exact (Success.create rfl).returns
      · exact (Success.create rfl).returns
  · exact different <| RawInstanceKey.ofText_injective <|
      first.unique (RunsAt.write samplePath rfl rfl _)

end Bbs.Lifecycle
