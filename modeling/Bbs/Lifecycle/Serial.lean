import Bbs.Lifecycle.Runs

/-!
Requests served one at a time.

A `Turn` is one request executed without interruption, and `Serial` chains turns.
This is the abstract view of the store that clients have in mind; the interleaved
runs of `Bbs.Lifecycle.Runs` are compared with it.
-/

namespace Bbs.Lifecycle

open Bbs.Interaction Bbs.Versioned Bbs.Models Bbs.Etcd

variable {D : Type}

/-- One request served without interruption. -/
structure Turn (D : Type) where
  request : Request
  before : Records
  exchanges : List (Exchange (Call D) Answer)
  reply : Reply
  after : Records

/-- The turn is an execution of its request's operation. -/
def Turn.Executed (fromJSON : Json → Option D) (u : Turn D) : Prop :=
  Executes etcd u.before (u.request.program fromJSON) u.exchanges u.after u.reply

/-- `Serial fromJSON σ turns σ'`: the turns follow each other from `σ` to `σ'`. -/
inductive Serial (fromJSON : Json → Option D) : Records → List (Turn D) → Records → Prop where
  | nil (σ : Records) : Serial fromJSON σ [] σ
  | cons {u : Turn D} {turns : List (Turn D)} {σ' : Records} :
      u.Executed fromJSON → Serial fromJSON u.after turns σ' →
      Serial fromJSON u.before (u :: turns) σ'

theorem Serial.executed {fromJSON : Json → Option D} {σ σ' : Records} {turns : List (Turn D)}
    (serial : Serial fromJSON σ turns σ') : ∀ u ∈ turns, u.Executed fromJSON := by
  induction serial with
  | nil => exact fun _ hu => nomatch hu
  | cons executed _ ih => exact List.forall_mem_cons.mpr ⟨executed, ih⟩

theorem Serial.append_iff {fromJSON : Json → Option D} {σ σ' : Records} {l m : List (Turn D)} :
    Serial fromJSON σ (l ++ m) σ' ↔
      ∃ middle, Serial fromJSON σ l middle ∧ Serial fromJSON middle m σ' := by
  induction l generalizing σ with
  | nil =>
      constructor
      · intro h
        exact ⟨σ, .nil σ, h⟩
      · rintro ⟨middle, first, second⟩
        cases first
        exact second
  | cons u l ih =>
      constructor
      · intro h
        cases h with
        | cons executed rest =>
            obtain ⟨middle, first, second⟩ := ih.mp rest
            exact ⟨middle, .cons executed first, second⟩
      · rintro ⟨middle, first, second⟩
        cases first with
        | cons executed rest => exact .cons executed (ih.mpr ⟨middle, rest, second⟩)

/-! ### What a turn does to the store -/

/-- The clock readings among some exchanges. -/
def readings (l : List (Exchange (Call D) Answer)) : List Int64 :=
  l.filterMap fun
    | ⟨.now, now⟩ => some now
    | _ => none

/-- The identifiers drawn among some exchanges. -/
def draws (l : List (Exchange (Call D) Answer)) : List String :=
  l.filterMap fun
    | ⟨.newV4, .ok guid⟩ => some guid
    | _ => none

/-- What was written among some exchanges, and where. -/
def puts (l : List (Exchange (Call D) Answer)) : List (String × Json) :=
  l.filterMap fun x =>
    match effect x with
    | some (.put path value) => some (path, value)
    | _ => none

/-- `Moves request clocks drawn σ wrote σ'`: a request that succeeds takes the store from
`σ` to `σ'`, having read the clock, drawn identifiers and written as given. -/
inductive Moves (request : Request) (clocks : List Int64) (drawn : List String) (σ : Records) :
    List (String × Json) → Records → Prop where
  | kept (idle : (∃ start, request = .start start) ∨ ∃ retire, request = .retire retire) :
      Moves request clocks drawn σ [] σ
  | swapped {path : String} {node : Node Json} {lrp new : ActualLRP}
      (named : request.path = some path) (found : σ.nodes path = some node)
      (decoded : ActualLRP.unmarshal node.value = some lrp)
      (update : Update request lrp clocks new) :
      Moves request clocks drawn σ [(path, new.marshal)] (σ.write path new.marshal)
  | cleaned {crash : CrashActualLRPRequest} {path : String} {node : Node Json} {lrp new : ActualLRP}
      (crashed : request = .crash crash) (named : request.path = some path)
      (found : σ.nodes path = some node) (decoded : ActualLRP.unmarshal node.value = some lrp)
      (update : Update request lrp clocks new) (unclaimed : new.state = .unclaimed) :
      Moves request clocks drawn σ [(path, new.marshal)] ((σ.write path new.marshal).erase path)
  | created {key : ActualLRPKey} {instanceKey : ActualLRPInstanceKey} {netInfo : ActualLRPNetInfo}
      {now : Int64} {guid : String}
      (started : request = .start ⟨some key, some instanceKey, some netInfo⟩)
      (vacant : σ.nodes (actualLRPSchemaPath key.processGuid key.index) = none)
      (fresh : drawn = [guid]) :
      Moves request clocks drawn σ
        [(actualLRPSchemaPath key.processGuid key.index,
          (runningActualLRP key instanceKey netInfo now guid).marshal)]
        (σ.write (actualLRPSchemaPath key.processGuid key.index)
          (runningActualLRP key instanceKey netInfo now guid).marshal)
  | removed {path : String} {node : Node Json} {lrp : ActualLRP}
      (named : request.path = some path) (found : σ.nodes path = some node)
      (decoded : ActualLRP.unmarshal node.value = some lrp)
      (removal : (∃ guid index, request = .remove guid index) ∨ ∃ retire, request = .retire retire) :
      Moves request clocks drawn σ [] (σ.erase path)

section Moves

variable {fromJSON : Json → Option D} {request : Request} {σ σ' : Records}
  {l : List (Exchange (Call D) Answer)} {value : Option ActualLRP}

theorem traverses_quiet (h : Traverses etcd σ l σ') (quiet : Quiet l) : σ' = σ :=
  h.eq_of_inert fun x hx _ _ step => etcd_of_effect_none step (quiet x hx)

/-- Exchanges that change nothing can all be had in a store that allows each of
them. -/
theorem traverses_of_quiet (quiet : Quiet l)
    (allowed : ∀ x ∈ l, Allowed σ x.call x.answer) : Traverses etcd σ l σ := by
  induction l with
  | nil => exact .nil σ
  | cons x l ih =>
      obtain ⟨hx, hl⟩ := quiet_cons.mp quiet
      refine .cons ⟨allowed x List.mem_cons_self, ?_⟩
        (ih hl fun y hy => allowed y (List.mem_cons_of_mem _ hy))
      rw [show effect ⟨x.call, x.answer⟩ = none from hx]
      rfl

@[simp] theorem readings_append (l m : List (Exchange (Call D) Answer)) :
    readings (l ++ m) = readings l ++ readings m :=
  List.filterMap_append

@[simp] theorem puts_append (l m : List (Exchange (Call D) Answer)) :
    puts (l ++ m) = puts l ++ puts m :=
  List.filterMap_append

theorem puts_of_quiet (quiet : Quiet l) : puts l = [] := by
  rw [puts, List.filterMap_eq_nil_iff]
  intro x hx
  rw [quiet x hx]

theorem readings_clocks (clocks : List Int64) :
    readings (clocks.map fun now => (⟨.now, now⟩ : Exchange (Call D) Answer)) = clocks := by
  induction clocks with
  | nil => rfl
  | cons now clocks ih => exact congrArg (now :: ·) ih

theorem Closing.readings {new : ActualLRP} (closing : Closing fromJSON request new l) :
    readings l = [] := by
  cases request with
  | crash r =>
      simp only [Closing] at closing
      split at closing
      · obtain ⟨key, -, auction⟩ := closing
        cases auction <;> rfl
      · rw [closing]
        rfl
  | claim | start | fail | remove | retire =>
      simp only [Closing] at closing
      rw [closing]
      rfl

/-- A request that succeeds without interruption moves the store. -/
theorem Success.moves (success : Success fromJSON request l value)
    (traverses : Traverses etcd σ l σ') :
    Moves request (readings l) (draws l) σ (puts l) σ' := by
  cases success with
  | @swap _ path node lrp new clocks tail named decoded update closing =>
      simp only [Traverses.cons_iff, Traverses.append_iff] at traverses
      obtain ⟨σ₁, read, σ₂, clock, σ₃, write, rest⟩ := traverses
      obtain rfl : σ₁ = σ := etcd_of_effect_none read rfl
      obtain rfl := traverses_quiet clock (quiet_readings clocks)
      obtain rfl := etcd_of_effect_some write rfl
      have clocks_eq : readings (got path node :: ((clocks.map fun now => ⟨.now, now⟩) ++
          Etcd.swapped path new node.modifiedIndex :: tail)) = clocks := by
        change readings ((clocks.map fun now => ⟨.now, now⟩) ++
          ([Etcd.swapped path new node.modifiedIndex] ++ tail)) = clocks
        rw [readings_append, readings_append, Closing.readings closing]
        exact (congrArg (· ++ []) (readings_clocks clocks)).trans (List.append_nil clocks)
      have puts_eq (rest : puts tail = []) : puts (got path node ::
          ((clocks.map fun now => ⟨.now, now⟩) ++
            Etcd.swapped path new node.modifiedIndex :: tail)) = [(path, new.marshal)] := by
        change puts ((clocks.map fun now => ⟨.now, now⟩) ++
          ([Etcd.swapped path new node.modifiedIndex] ++ tail)) = [(path, new.marshal)]
        rw [puts_append, puts_append, puts_of_quiet (quiet_readings clocks), rest]
        rfl
      rw [clocks_eq]
      rcases closing.quiet_or_deletes with
        quiet | ⟨crash, key, e, last, rfl, keyed, unclaimed, -, inert, rfl⟩
      · obtain rfl := traverses_quiet rest quiet
        rw [puts_eq (puts_of_quiet quiet)]
        exact .swapped named read.1 decoded update
      · simp only [Traverses.cons_iff, Traverses.nil_iff] at rest
        obtain ⟨σ₄, lookup, σ₅, delete, σ₆, auction, rfl⟩ := rest
        obtain rfl := etcd_of_effect_none lookup rfl
        obtain rfl := etcd_of_effect_some delete rfl
        obtain rfl := etcd_of_effect_none auction inert
        obtain rfl : actualLRPSchemaPath key.processGuid key.index = path := by
          simpa [Request.path, Request.slot, keyed] using named
        have nothing : puts [last] = [] := puts_of_quiet (by simp [inert])
        rw [puts_eq nothing]
        exact .cleaned rfl named read.1 decoded update unclaimed
  | create missing =>
      simp only [Traverses.cons_iff, Traverses.nil_iff] at traverses
      obtain ⟨σ₁, read, σ₂, draw, σ₃, clock, σ₄, write, rfl⟩ := traverses
      obtain rfl : σ₁ = σ := etcd_of_effect_none read rfl
      obtain rfl := etcd_of_effect_none draw rfl
      obtain rfl := etcd_of_effect_none clock rfl
      obtain rfl := etcd_of_effect_some write rfl
      exact .created rfl (read.1 missing) rfl
  | keep =>
      obtain rfl := traverses_quiet traverses (by simp [effect])
      exact .kept (.inl ⟨_, rfl⟩)
  | stop =>
      obtain rfl := traverses_quiet traverses (by simp [effect])
      exact .kept (.inr ⟨_, rfl⟩)
  | @remove _ path node lrp asked named decoded removal =>
      simp only [Traverses.cons_iff, Traverses.append_iff, Traverses.nil_iff] at traverses
      obtain ⟨σ₁, read, σ₂, ask, σ₃, delete, rfl⟩ := traverses
      obtain rfl : σ₁ = σ := etcd_of_effect_none read rfl
      obtain rfl := traverses_quiet ask removal.quiet
      -- the path comes from the record, but its version is the one just read
      have here : σ₂.nodes path = some node := read.1
      obtain ⟨node', found, version⟩ : HoldsVersion σ₂ _ node.modifiedIndex := delete.1
      obtain ⟨same, -⟩ := Store.eq_of_version (le_refl σ₂) here found version
      obtain rfl := etcd_of_effect_some delete rfl
      have nothing : puts (got path node :: (asked ++
          [Etcd.removed (actualLRPSchemaPath lrp.key.processGuid lrp.key.index)
            node.modifiedIndex])) = [] := by
        change puts (asked ++ _) = []
        rw [puts_append, puts_of_quiet removal.quiet]
        rfl
      rw [nothing, same]
      refine .removed named here decoded ?_
      cases removal with
      | asked => exact .inl ⟨_, _, rfl⟩
      | unheld => exact .inr ⟨_, rfl⟩
      | lost => exact .inr ⟨_, rfl⟩

theorem Moves.of_retire {retire : RetireActualLRPRequest} {clocks clocks' : List Int64}
    {drawn drawn' : List String} {wrote : List (String × Json)}
    (h : Moves (.retire retire) clocks drawn σ wrote σ') :
    Moves (.retire retire) clocks' drawn' σ wrote σ' := by
  cases h with
  | kept idle => exact .kept idle
  | removed named found decoded removal => exact .removed named found decoded removal
  | swapped _ _ _ update => cases update
  | cleaned crashed => cases crashed
  | created started => cases started

variable {u : Turn D}

/-- A request that fails leaves the store as it was. -/
theorem Turn.Executed.unchanged (executed : u.Executed fromJSON) {failure : Failure}
    (failed : u.reply = .error failure) : u.after = u.before := by
  obtain ⟨returns, traverses⟩ := executed
  rw [failed] at returns
  exact traverses_quiet traverses (Request.returns_error returns)

theorem Turn.Executed.moves (executed : u.Executed fromJSON) (ok : u.reply = .ok value) :
    Moves u.request (readings u.exchanges) (draws u.exchanges) u.before (puts u.exchanges)
      u.after := by
  obtain ⟨returns, traverses⟩ := executed
  rw [ok] at returns
  obtain ⟨before, last, whole, quiet, alone, success⟩ := Request.returns_ok returns
  rw [whole, Traverses.append_iff] at traverses
  obtain ⟨middle, first, second⟩ := traverses
  obtain rfl := traverses_quiet first quiet
  have moves := Success.moves success second
  rcases alone with rfl | ⟨retire, hretire⟩
  · rwa [whole]
  · rw [whole, puts_append, puts_of_quiet quiet, List.nil_append, hretire]
    rw [hretire] at moves
    exact moves.of_retire

/-! ### The record of a slot -/

/-- The record at a path, if there is one that decodes. -/
def recordAt (path : String) (σ : Records) : Option ActualLRP :=
  (σ.nodes path).bind fun node => ActualLRP.unmarshal node.value

theorem recordAt_of_nodes {path : String} {node : Node Json} {lrp : ActualLRP}
    (found : σ.nodes path = some node) (decoded : ActualLRP.unmarshal node.value = some lrp) :
    recordAt path σ = some lrp := by
  simp [recordAt, found, decoded]

theorem recordAt_of_vacant {path : String} (vacant : σ.nodes path = none) :
    recordAt path σ = none := by
  simp [recordAt, vacant]

theorem nodes_ne_none_of_recordAt {path : String} {lrp : ActualLRP}
    (found : recordAt path σ = some lrp) : σ.nodes path ≠ none := by
  intro vacant
  rw [recordAt_of_vacant vacant] at found
  cases found

@[simp] theorem recordAt_write (path : String) (σ : Records) (lrp : ActualLRP) :
    recordAt path (σ.write path lrp.marshal) = some lrp := by
  simp [recordAt]

/-- A request moves nothing but the node of its own slot. -/
theorem Moves.elsewhere {clocks : List Int64} {drawn : List String}
    {wrote : List (String × Json)} {path : String}
    (h : Moves request clocks drawn σ wrote σ') (other : request.path ≠ some path) :
    σ'.nodes path = σ.nodes path := by
  have ne {path' : String} (named : request.path = some path') : path ≠ path' :=
    fun same => other (same ▸ named)
  cases h with
  | kept => rfl
  | swapped named => exact Store.write_nodes_of_ne _ (ne named) _
  | cleaned _ named =>
      rw [Store.erase_nodes_of_ne _ (ne named), Store.write_nodes_of_ne _ (ne named)]
  | created started =>
      subst started
      exact Store.write_nodes_of_ne _ (ne rfl) _
  | removed named => exact Store.erase_nodes_of_ne _ (ne named)

/-- The turn served a request on the slot at `path`, successfully. -/
def Succeeded (path : String) (u : Turn D) : Prop :=
  u.request.path = some path ∧ ∃ value, u.reply = .ok value

/-- The records written at `path` among some exchanges. -/
def written (path : String) (l : List (Exchange (Call D) Answer)) : List ActualLRP :=
  (puts l).filterMap fun put => if put.1 = path then ActualLRP.unmarshal put.2 else none

/-- What a turn did to the slot at `path`. -/
inductive Touch (path : String) (u : Turn D) : Prop where
  | kept (same : u.after.nodes path = u.before.nodes path)
      (idle : Succeeded path u →
        (∃ start, u.request = .start start) ∨ ∃ retire, u.request = .retire retire)
      (writes : written path u.exchanges = [])
  | updated {lrp new : ActualLRP} (ok : Succeeded path u)
      (found : recordAt path u.before = some lrp)
      (update : Update u.request lrp (readings u.exchanges) new)
      (wrote : recordAt path u.after = some new) (writes : written path u.exchanges = [new])
  | cleaned {crash : CrashActualLRPRequest} {lrp new : ActualLRP} (ok : Succeeded path u)
      (crashed : u.request = .crash crash) (found : recordAt path u.before = some lrp)
      (update : Update u.request lrp (readings u.exchanges) new) (unclaimed : new.state = .unclaimed)
      (gone : u.after.nodes path = none) (writes : written path u.exchanges = [new])
  | created {key : ActualLRPKey} {instanceKey : ActualLRPInstanceKey} {netInfo : ActualLRPNetInfo}
      {now : Int64} {guid : String} (ok : Succeeded path u)
      (started : u.request = .start ⟨some key, some instanceKey, some netInfo⟩)
      (vacant : u.before.nodes path = none) (fresh : draws u.exchanges = [guid])
      (wrote : recordAt path u.after = some (runningActualLRP key instanceKey netInfo now guid))
      (writes : written path u.exchanges = [runningActualLRP key instanceKey netInfo now guid])
  | removed {lrp : ActualLRP} (ok : Succeeded path u)
      (removal : (∃ guid index, u.request = .remove guid index) ∨
        ∃ retire, u.request = .retire retire)
      (found : recordAt path u.before = some lrp) (gone : u.after.nodes path = none)
      (writes : written path u.exchanges = [])

/-- A request writes nothing but the node of its own slot. -/
theorem Moves.writes_own {clocks : List Int64} {drawn : List String}
    {wrote : List (String × Json)} (h : Moves request clocks drawn σ wrote σ') :
    ∀ put ∈ wrote, request.path = some put.1 := by
  cases h with
  | kept => simp
  | swapped named => simpa using named
  | cleaned _ named => simpa using named
  | created started =>
      subst started
      simp [Request.path, Request.slot]
  | removed => simp

/-- **What turns do to slots.** -/
theorem Turn.Executed.touch (executed : u.Executed fromJSON) (path : String) : Touch path u := by
  cases replied : u.reply with
  | error failure =>
      have quiet : Quiet u.exchanges := by
        have returns := executed.1
        rw [replied] at returns
        exact Request.returns_error returns
      refine .kept (by rw [executed.unchanged replied]) ?_ (by rw [written, puts_of_quiet quiet]; rfl)
      rintro ⟨-, value, ok⟩
      rw [replied] at ok
      cases ok
  | ok value =>
      have moves := executed.moves replied
      by_cases own : u.request.path = some path
      · have ok : Succeeded path u := ⟨own, value, replied⟩
        have at_own {path' : String} (named : u.request.path = some path') : path' = path :=
          Option.some.inj (named.symm.trans own)
        have one {lrp : ActualLRP} (h : puts u.exchanges = [(path, lrp.marshal)]) :
            written path u.exchanges = [lrp] := by
          simp [written, h]
        generalize hafter : u.after = after at moves
        generalize hputs : puts u.exchanges = wrote at moves
        cases moves with
        | kept idle => exact .kept (by rw [hafter]) (fun _ => idle) (by rw [written, hputs]; rfl)
        | swapped named found decoded update =>
            obtain rfl := at_own named
            exact .updated ok (recordAt_of_nodes found decoded) update
              (by rw [hafter, recordAt_write]) (one hputs)
        | cleaned crashed named found decoded update unclaimed =>
            obtain rfl := at_own named
            exact .cleaned ok crashed (recordAt_of_nodes found decoded) update unclaimed
              (by simp [hafter]) (one hputs)
        | created started vacant fresh =>
            obtain rfl := at_own (by rw [started]; rfl)
            exact .created ok started vacant fresh (by rw [hafter, recordAt_write]) (one hputs)
        | removed named found decoded removal =>
            obtain rfl := at_own named
            exact .removed ok removal (recordAt_of_nodes found decoded) (by simp [hafter])
              (by rw [written, hputs]; rfl)
      · refine .kept (moves.elsewhere own) (fun ok => absurd ok.1 own) ?_
        rw [written, List.filterMap_eq_nil_iff]
        intro put hput
        rw [if_neg]
        rintro rfl
        exact own (moves.writes_own put hput)

/-- The turn of a request that rewrites the record it reads. -/
def swapTurn (request : Request) (σ : Records) (path : String) (node : Node Json)
    (clocks : List Int64) (new : ActualLRP) (tail : List (Exchange (Call D) Answer)) : Turn D where
  request := request
  before := σ
  exchanges := got path node :: ((clocks.map fun now => ⟨.now, now⟩) ++
    swapped path new node.modifiedIndex :: tail)
  reply := .ok (request.reply new)
  after := σ.write path new.marshal

/-- When the guards of an update are met and etcd takes the write, the request
succeeds. -/
theorem swapTurn_executed {path : String} {node : Node Json} {clocks : List Int64}
    {lrp new : ActualLRP} (named : request.path = some path) (found : σ.nodes path = some node)
    (decoded : ActualLRP.unmarshal node.value = some lrp)
    (update : Update request lrp clocks new) (closing : Closing fromJSON request new l)
    (last : Traverses etcd (σ.write path new.marshal) l (σ.write path new.marshal)) :
    (swapTurn request σ path node clocks new l).Executed fromJSON := by
  have clock : Traverses etcd σ
      (clocks.map fun now => (⟨.now, now⟩ : Exchange (Call D) Answer)) σ := by
    refine traverses_of_quiet (quiet_readings clocks) fun x hx => ?_
    obtain ⟨now, -, rfl⟩ := List.mem_map.mp hx
    trivial
  refine ⟨(Success.swap named decoded update closing).returns, .cons ⟨found, rfl⟩ ?_⟩
  exact Traverses.append_iff.mpr ⟨σ, clock, .cons ⟨⟨node, found, rfl⟩, rfl⟩ last⟩

end Moves

/-- The instance that runs goes back to a mere claim. -/
def sampleRevert : Turn Unit :=
  swapTurn (sampleClaim 0) (sampleStore (sampleRunning 0)) samplePath
    ⟨(sampleRunning 0).marshal, 1⟩ [] ((sampleRunning 0).claimedBy (sampleInstance 0)) []

theorem sampleRevert_executed : sampleRevert.Executed fun _ => none :=
  swapTurn_executed rfl (sampleStore_nodes _) (ActualLRP.unmarshal_marshal _)
    (.claim rfl (by decide) (by decide)) rfl (.nil _)

end Bbs.Lifecycle
