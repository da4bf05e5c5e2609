import Bbs.Lifecycle.Serial
import Bbs.Stamps

/-!
Modification tags order the versions of a record.

Every version that a run writes on a slot is stamped: an update continues the tag of
the record it read, and a creation opens an epoch with the identifier it drew
(`Ledger.step`, `Ledger.run`). What holds of well-kept stamps (`Bbs.Stamps`) then
holds of tags, up to the wrap-around of the 32-bit index.
-/

namespace Bbs.Lifecycle

open Bbs.Interaction Bbs.Versioned Bbs.Models Bbs.Etcd Bbs.Stamps

variable {D : Type} {fromJSON : Json → Option D} {path : String} {u : Turn D}
  {turns : List (Turn D)} {σ σ' : Records}

def epochOf (lrp : ActualLRP) : String :=
  lrp.modificationTag.epoch

def indexOf (lrp : ActualLRP) : UInt32 :=
  lrp.modificationTag.index

def stampOf (lrp : ActualLRP) : String × UInt32 :=
  (epochOf lrp, indexOf lrp)

/-- The records written at `path` in the course of some turns. -/
def writtenIn (path : String) (turns : List (Turn D)) : List ActualLRP :=
  turns.flatMap fun u => written path u.exchanges

/-- The versions that the slot at `path` held in the course of a run, in the order of
their writing: the record at the start, if any, and every record written. -/
def versions (path : String) (σ : Records) (turns : List (Turn D)) : List ActualLRP :=
  (recordAt path σ).toList ++ writtenIn path turns

/-- The identifiers drawn in the course of some turns. -/
def drawnIn (turns : List (Turn D)) : List String :=
  turns.flatMap fun u => draws u.exchanges

/-! ### One turn -/

/-- An update continues the tag. -/
theorem Update.tag {request : Request} {lrp new : ActualLRP} {clocks : List Int64}
    (update : Update request lrp clocks new) :
    new.modificationTag = lrp.modificationTag.increment := by
  cases update <;> rfl

theorem Update.stamp {request : Request} {lrp new : ActualLRP} {clocks : List Int64}
    (update : Update request lrp clocks new) :
    stampOf new = ((stampOf lrp).1, (stampOf lrp).2 + 1) := by
  rw [stampOf, epochOf, indexOf, Update.tag update]
  rfl

/-- The versions so far and the identifiers used so far: the versions are stamped, the
last one is the record on the slot if there is one, and their epochs are used. -/
structure Ledger (path : String) (σ : Records) (past : List ActualLRP) (used : List String) :
    Prop where
  stamped : Stamped 0 (· + 1) (past.map stampOf)
  current : ∀ lrp, recordAt path σ = some lrp → ∃ earlier, past = earlier ++ [lrp]
  epochs : ∀ lrp ∈ past, epochOf lrp ∈ used

theorem Ledger.start (path : String) (σ : Records) :
    Ledger path σ (recordAt path σ).toList ((recordAt path σ).toList.map epochOf) := by
  cases found : recordAt path σ with
  | none => exact ⟨.nil, fun lrp h => (nomatch found.symm.trans h), by simp⟩
  | some lrp =>
      refine ⟨.start _, fun last h => ⟨[], ?_⟩, by simp⟩
      rw [Option.some.inj (found.symm.trans h)]
      rfl

/-- The ledger is kept by an update, whatever becomes of the record afterwards. -/
theorem Ledger.update {past : List ActualLRP} {used : List String} (ledger : Ledger path σ past used)
    {request : Request} {lrp new : ActualLRP} {clocks : List Int64}
    (found : recordAt path σ = some lrp) (update : Update request lrp clocks new)
    (after : ∀ lrp, recordAt path σ' = some lrp → lrp = new) (drawn : List String) :
    Ledger path σ' (past ++ [new]) (used ++ drawn) := by
  obtain ⟨earlier, rfl⟩ := ledger.current lrp found
  refine ⟨?_, fun last h => ⟨earlier ++ [lrp], by rw [after last h]⟩, ?_⟩
  · have stamped := ledger.stamped
    rw [List.map_append, List.map_singleton] at stamped
    rw [List.map_append, List.map_append, List.map_singleton, List.map_singleton,
      Update.stamp update]
    exact .onward stamped
  · intro version h
    rcases List.mem_append.mp h with h | h
    · exact List.mem_append_left _ (ledger.epochs version h)
    · have same : epochOf version = epochOf lrp := by
        rw [List.mem_singleton.mp h, epochOf, Update.tag update]
        rfl
      rw [same]
      exact List.mem_append_left _ (ledger.epochs lrp (by simp))

/-- **A turn keeps the ledger**, if what it draws was not used before. -/
theorem Ledger.step {past : List ActualLRP} {used : List String}
    (ledger : Ledger path u.before past used) (executed : u.Executed fromJSON)
    (unused : ∀ guid ∈ draws u.exchanges, guid ∉ used) :
    Ledger path u.after (past ++ written path u.exchanges) (used ++ draws u.exchanges) := by
  have more : ∀ lrp ∈ past, epochOf lrp ∈ used ++ draws u.exchanges :=
    fun lrp h => List.mem_append_left _ (ledger.epochs lrp h)
  have gone_current {past : List ActualLRP} (gone : u.after.nodes path = none) (lrp : ActualLRP)
      (found : recordAt path u.after = some lrp) : ∃ earlier, past = earlier ++ [lrp] :=
    absurd gone (nodes_ne_none_of_recordAt found)
  cases executed.touch path with
  | kept same _ writes =>
      rw [writes, List.append_nil]
      refine ⟨ledger.stamped, fun lrp found => ledger.current lrp ?_, more⟩
      rwa [recordAt, same] at found
  | updated _ found update wrote writes =>
      rw [writes]
      exact ledger.update found update (fun lrp h => Option.some.inj (h.symm.trans wrote)) _
  | cleaned _ _ found update _ gone writes =>
      rw [writes]
      exact ledger.update found update
        (fun lrp h => absurd gone (nodes_ne_none_of_recordAt h)) _
  | @created key instanceKey netInfo now guid _ _ vacant fresh wrote writes =>
      have unseen : ∀ lrp ∈ past, epochOf lrp ≠ guid := fun lrp h same =>
        unused guid (by simp [fresh]) (same ▸ ledger.epochs lrp h)
      have last : ∀ lrp, recordAt path u.after = some lrp →
          ∃ earlier, past ++ written path u.exchanges = earlier ++ [lrp] := by
        intro lrp h
        exact ⟨past, by rw [writes, Option.some.inj (h.symm.trans wrote)]⟩
      refine ⟨?_, last, ?_⟩
      · rw [writes, List.map_append, List.map_singleton]
        refine .fresh ledger.stamped fun stamp h => ?_
        obtain ⟨lrp, hlrp, rfl⟩ := List.mem_map.mp h
        exact unseen lrp hlrp
      · intro lrp h
        rw [writes] at h
        rcases List.mem_append.mp h with h | h
        · exact more lrp h
        · rw [List.mem_singleton.mp h, fresh]
          exact List.mem_append_right _ List.mem_cons_self
  | removed _ _ _ gone writes =>
      rw [writes, List.append_nil]
      exact ⟨ledger.stamped, gone_current gone, more⟩

/-- **A run keeps the ledger.** -/
theorem Ledger.run {past : List ActualLRP} {used : List String} (ledger : Ledger path σ past used)
    (serial : Serial fromJSON σ turns σ') (nodup : (used ++ drawnIn turns).Nodup) :
    Ledger path σ' (past ++ writtenIn path turns) (used ++ drawnIn turns) := by
  induction serial generalizing past used with
  | nil σ => simpa [writtenIn, drawnIn] using ledger
  | @cons u turns σ' executed _ ih =>
      have now : drawnIn (u :: turns) = draws u.exchanges ++ drawnIn turns := List.flatMap_cons
      have all : writtenIn path (u :: turns) = written path u.exchanges ++ writtenIn path turns :=
        List.flatMap_cons
      rw [now, ← List.append_assoc] at nodup
      have unused : ∀ guid ∈ draws u.exchanges, guid ∉ used := by
        intro guid h old
        exact List.disjoint_of_nodup_append (List.Nodup.of_append_left nodup) old h
      rw [all, now, ← List.append_assoc, ← List.append_assoc]
      exact ih (ledger.step executed unused) nodup

/-! ### The 32-bit index -/

theorem toNat_iterate_succ (x : UInt32) (k : Nat) :
    ((· + 1)^[k] x).toNat = (x.toNat + k) % 2 ^ 32 := by
  induction k with
  | zero => simp [Nat.mod_eq_of_lt x.toNat_lt]
  | succ k ih =>
      rw [Function.iterate_succ_apply', UInt32.toNat_add, ih, UInt32.toNat_one]
      omega

/-- Counting on returns to the same index exactly after multiples of `2 ^ 32`. -/
theorem iterate_succ_eq_iff (x : UInt32) (k : Nat) : x = (· + 1)^[k] x ↔ 2 ^ 32 ∣ k := by
  rw [← UInt32.toNat_inj, toNat_iterate_succ]
  have bound : x.toNat < 2 ^ 32 := x.toNat_lt
  omega

/-- Counting on without passing `2 ^ 32` goes up strictly. -/
theorem pairwise_iterate_succ (x : UInt32) (n : Nat) (short : x.toNat + n ≤ 2 ^ 32) :
    ((List.range n).map fun k => (· + 1)^[k] x).Pairwise (· < ·) := by
  rw [List.pairwise_map]
  refine List.Pairwise.imp_of_mem ?_ List.pairwise_lt_range
  intro a b ha hb lt
  rw [List.mem_range] at ha hb
  rw [UInt32.lt_iff_toNat_lt, toNat_iterate_succ, toNat_iterate_succ]
  omega

/-! ### Versions -/

variable {past : List ActualLRP} {used : List String}

theorem stampOf_eq_iff {v w : ActualLRP} :
    stampOf v = stampOf w ↔ v.modificationTag = w.modificationTag := by
  rcases v with ⟨_, _, _, _, _, _, _, _, ⟨e, i⟩⟩
  rcases w with ⟨_, _, _, _, _, _, _, _, ⟨e', i'⟩⟩
  simp [stampOf, epochOf, indexOf]

/-- Two versions have one tag exactly if they are of one epoch and a multiple of `2 ^ 32`
writes apart. -/
theorem Ledger.tag_eq_iff (ledger : Ledger path σ past used) {i j : Nat} (lt : i < j)
    {v w : ActualLRP} (hv : past[i]? = some v) (hw : past[j]? = some w) :
    v.modificationTag = w.modificationTag ↔ epochOf v = epochOf w ∧ 2 ^ 32 ∣ j - i := by
  have hv' : (past.map stampOf)[i]? = some (stampOf v) := by simp [hv]
  have hw' : (past.map stampOf)[j]? = some (stampOf w) := by simp [hw]
  have apart (same : epochOf v = epochOf w) : indexOf w = (· + 1)^[j - i] (indexOf v) :=
    ledger.stamped.iterate lt hv' hw' same
  rw [← stampOf_eq_iff, stampOf, stampOf, Prod.mk.injEq]
  refine and_congr_right fun same => ?_
  rw [apart same]
  exact iterate_succ_eq_iff _ _

/-- In an epoch that does not come to `2 ^ 32` writes, indices go up strictly. -/
theorem Ledger.increasing (ledger : Ledger path σ past used) (epoch : String)
    (short : ∀ first, (past.filter fun v => epochOf v = epoch).head? = some first →
      (indexOf first).toNat + (past.filter fun v => epochOf v = epoch).length ≤ 2 ^ 32) :
    (past.filter fun v => epochOf v = epoch).Pairwise fun v w => indexOf v < indexOf w := by
  obtain ⟨first, counters⟩ := ledger.stamped.counters epoch
  have filtered : (past.map stampOf).filter (fun s => s.1 = epoch) =
      (past.filter fun v => epochOf v = epoch).map stampOf := by
    rw [List.filter_map]
    rfl
  rw [filtered, List.map_map, List.length_map] at counters
  generalize (past.filter fun v => epochOf v = epoch) = own at counters short
  have pairwise : (own.map indexOf).Pairwise (· < ·) := by
    change own.map indexOf = _ at counters
    rw [counters]
    refine pairwise_iterate_succ first own.length ?_
    cases own with
    | nil => exact Nat.le_of_lt first.toNat_lt
    | cons v own =>
        have head : indexOf v = first := by
          simpa [List.range_succ_eq_map] using congrArg List.head? counters
        rw [← head]
        exact short v rfl
  exact List.pairwise_map.mp pairwise

/-- A turn writes at most one version. On an existing record it continues the tag, and on
an empty slot it starts a tag with the identifier it drew. -/
theorem Turn.Executed.tag (executed : u.Executed fromJSON) (path : String) :
    (written path u.exchanges).length ≤ 1 ∧ ∀ new ∈ written path u.exchanges,
      (∀ lrp, recordAt path u.before = some lrp →
        new.modificationTag = lrp.modificationTag.increment) ∧
      (recordAt path u.before = none → ∃ guid, draws u.exchanges = [guid] ∧
        new.modificationTag = ⟨guid, 0⟩) := by
  cases executed.touch path with
  | kept _ _ writes | removed _ _ _ _ writes => simp [writes]
  | updated _ found update _ writes | cleaned _ _ found update _ _ writes =>
      rw [writes]
      refine ⟨le_rfl, fun new h => ?_⟩
      obtain rfl := List.mem_singleton.mp h
      refine ⟨fun lrp here => ?_, fun missing => ?_⟩
      · obtain rfl := Option.some.inj (found.symm.trans here)
        exact Update.tag update
      · cases found.symm.trans missing
  | created _ _ vacant fresh _ writes =>
      rw [writes]
      refine ⟨le_rfl, fun new h => ?_⟩
      obtain rfl := List.mem_singleton.mp h
      exact ⟨fun lrp here => absurd vacant (nodes_ne_none_of_recordAt here),
        fun _ => ⟨_, fresh, rfl⟩⟩

/-- A start that finds the record already running just as it asks changes nothing. -/
theorem Turn.Executed.unchanged_of_isStarted (executed : u.Executed fromJSON)
    {start : StartActualLRPRequest} {lrp : ActualLRP} (started : u.request = .start start)
    (found : recordAt path u.before = some lrp) (same : lrp.isStarted start = true) :
    u.after.nodes path = u.before.nodes path ∧ written path u.exchanges = [] := by
  cases executed.touch path with
  | kept unchanged _ writes => exact ⟨unchanged, writes⟩
  | updated _ found' update =>
      obtain rfl := Option.some.inj (found'.symm.trans found)
      rw [started] at update
      generalize readings u.exchanges = clocks at update
      cases update with
      | start different => exact absurd same different
  | cleaned _ crashed => cases started.symm.trans crashed
  | created _ _ vacant => exact absurd vacant (nodes_ne_none_of_recordAt found)
  | removed _ removal => rcases removal with ⟨_, _, h⟩ | ⟨_, h⟩ <;> cases started.symm.trans h

/-- **Modification tags order the versions of a record.** Take a run in which no
identifier is drawn twice or is the epoch of the record at the start.

* A write on an existing record keeps the epoch and adds one to the index; a write on an
  empty slot has index zero and an epoch that no version before it had. No turn writes
  more than one version.
* A start that finds the record running just as it asks changes nothing.
* Two versions have the same tag exactly if they are of one epoch and a multiple of
  `2 ^ 32` writes apart.
* Within an epoch of less than `2 ^ 32` writes, counting those before the run by the
  index that the first version in the run has, indices go up strictly. -/
theorem tags_order_versions (path : String) (serial : Serial fromJSON σ turns σ')
    (fresh : ((recordAt path σ).toList.map epochOf ++ drawnIn turns).Nodup) :
    (∀ before u after, turns = before ++ u :: after →
      (written path u.exchanges).length ≤ 1 ∧ ∀ new ∈ written path u.exchanges,
        (∀ lrp, recordAt path u.before = some lrp →
          epochOf new = epochOf lrp ∧ indexOf new = indexOf lrp + 1) ∧
        (recordAt path u.before = none →
          indexOf new = 0 ∧ ∀ v ∈ versions path σ before, epochOf v ≠ epochOf new)) ∧
    (∀ u ∈ turns, ∀ start lrp, u.request = .start start →
      recordAt path u.before = some lrp → lrp.isStarted start = true →
      u.after.nodes path = u.before.nodes path ∧ written path u.exchanges = []) ∧
    (∀ i j v w, i < j → (versions path σ turns)[i]? = some v →
      (versions path σ turns)[j]? = some w →
      (v.modificationTag = w.modificationTag ↔ epochOf v = epochOf w ∧ 2 ^ 32 ∣ j - i)) ∧
    ∀ epoch,
      (∀ first, ((versions path σ turns).filter fun v => epochOf v = epoch).head? = some first →
        (indexOf first).toNat +
          ((versions path σ turns).filter fun v => epochOf v = epoch).length ≤ 2 ^ 32) →
      ((versions path σ turns).filter fun v => epochOf v = epoch).Pairwise
        fun v w => indexOf v < indexOf w := by
  have ledger := (Ledger.start path σ).run serial fresh
  refine ⟨?_, ?_, fun i j v w lt hv hw => ledger.tag_eq_iff lt hv hw,
    fun epoch short => ledger.increasing epoch short⟩
  · rintro before u after rfl
    obtain ⟨middle, first, rest⟩ := Serial.append_iff.mp serial
    have executed := serial.executed u (by simp)
    obtain ⟨one, tags⟩ := executed.tag path
    refine ⟨one, fun new h => ⟨fun lrp found => ?_, fun missing => ?_⟩⟩
    · rw [epochOf, indexOf, (tags new h).1 lrp found]
      exact ⟨rfl, rfl⟩
    · obtain ⟨guid, drew, tag⟩ := (tags new h).2 missing
      refine ⟨by rw [indexOf, tag], fun v hv => ?_⟩
      have split : drawnIn (before ++ u :: after) = drawnIn before ++ (guid :: drawnIn after) := by
        simp [drawnIn, drew]
      rw [split, ← List.append_assoc] at fresh
      have earlier := (Ledger.start _ σ).run first (List.Nodup.of_append_left fresh)
      rw [epochOf.eq_def new, tag]
      intro same
      exact List.disjoint_of_nodup_append fresh (earlier.epochs v hv) (by simp [same])
  · intro u hu start lrp started found same
    exact (serial.executed u hu).unchanged_of_isStarted started found same

def sampleCreation : Turn Unit where
  request := sampleStart 0
  before := .empty
  exchanges := [⟨.get samplePath, .error ⟨100⟩⟩, ⟨.newV4, .ok (sampleEpoch 0)⟩, ⟨.now, (1 : Int64)⟩,
    ⟨.set samplePath (sampleRunning 0).marshal, .ok ()⟩]
  reply := .ok (some (sampleRunning 0))
  after := sampleStore (sampleRunning 0)

theorem sampleCreation_executed : sampleCreation.Executed fun _ => none :=
  ⟨(Success.create rfl).returns, .cons ⟨fun _ => rfl, rfl⟩ <| .cons ⟨trivial, rfl⟩ <|
    .cons ⟨trivial, rfl⟩ <| .cons ⟨trivial, rfl⟩ <| .nil _⟩

theorem tags_order_versions_creation :
    versions samplePath .empty [sampleCreation, sampleRevert] =
        [sampleRunning 0, (sampleRunning 0).claimedBy (sampleInstance 0)] ∧
      (sampleRunning 0).modificationTag ≠
        ((sampleRunning 0).claimedBy (sampleInstance 0)).modificationTag := by
  have held : versions samplePath .empty [sampleCreation, sampleRevert] =
      [sampleRunning 0, (sampleRunning 0).claimedBy (sampleInstance 0)] := by
    simp [versions, writtenIn, sampleCreation, sampleRevert, swapTurn, written, puts, effect,
      recordAt]
  have serial : Serial (fun _ => none) .empty [sampleCreation, sampleRevert] sampleRevert.after :=
    .cons sampleCreation_executed (.cons sampleRevert_executed (.nil _))
  obtain ⟨-, -, tags, -⟩ := tags_order_versions samplePath serial (by decide)
  refine ⟨held, fun same => ?_⟩
  have wraps := ((tags 0 1 _ _ Nat.one_pos (by rw [held]; rfl) (by rw [held]; rfl)).mp same).2
  exact absurd wraps (by decide)

end Bbs.Lifecycle
