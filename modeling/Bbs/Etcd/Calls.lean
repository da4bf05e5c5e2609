import Bbs.Etcd.Histories

/-!
Which calls each lifecycle operation makes, whatever it is answered.
-/

namespace Bbs.Etcd

open Bbs.Interaction Bbs.Versioned Bbs.Models

variable {D : Type}

/-- The calls that serving a request may take. A conditional delete takes its path from
the record, all other calls to etcd take theirs from the request. -/
def Request.MayCall (request : Request) : Call D → Prop
  | .get path => request.path = some path ∨
      ∃ crash key, request = .crash crash ∧ crash.actualLrpKey = some key ∧
        path = desiredLRPSchemaPathByProcessGuid key.processGuid
  | .compareAndSwap path _ _ => request.path = some path
  | .set path _ => request.path = some path ∧ ∃ start, request = .start start
  | .compareAndDelete _ _ => (∃ guid index, request = .remove guid index) ∨
      ∃ retire, request = .retire retire
  | .delete path => request.path = some path ∧ ∃ crash, request = .crash crash
  | .now => True
  | .newV4 => ∃ start, request = .start start
  | .cellById _ => ∃ retire, request = .retire retire
  | .stopLRPInstance _ _ _ => ∃ retire, request = .retire retire
  | .requestLRPAuctions _ => ∃ crash, request = .crash crash

variable {P : Call D → Prop} {α : Type}

theorem calls_raw {processGuid : String} {index : Int32}
    {f : Except Error (ActualLRP × Nat) → Operation D α}
    (read : P (.get (actualLRPSchemaPath processGuid index))) (rest : ∀ found, (f found).Calls P) :
    (rawActuaLLRPByProcessGuidAndIndex processGuid index >>= f).Calls P := by
  rw [rawActualLRP_eq]
  exact ⟨read, fun _ => rest _⟩

theorem calls_desired {fromJSON : Json → Option D} {processGuid : String}
    {f : Except Error D → Operation D α}
    (read : P (.get (desiredLRPSchemaPathByProcessGuid processGuid)))
    (rest : ∀ found, (f found).Calls P) :
    (desiredLRPByProcessGuid fromJSON processGuid >>= f).Calls P := by
  rw [desiredLRP_eq]
  exact ⟨read, fun _ => rest _⟩

theorem claim_calls (request : ClaimActualLRPRequest) :
    (claimActualLRP request : Operation D _).Calls (Request.claim request).MayCall := by
  refine calls_raw (.inl rfl) fun found => ?_
  rcases found with e | ⟨lrp, version⟩
  · trivial
  · dsimp only
    split
    · trivial
    · split
      · trivial
      · split
        · trivial
        · refine ⟨rfl, fun answer => ?_⟩
          rcases answer with e | ⟨⟩ <;> trivial

theorem start_calls (request : StartActualLRPRequest) :
    (startActualLRP request : Operation D _).Calls (Request.start request).MayCall := by
  rw [startActualLRP]
  split
  · trivial
  · rename_i key named
    have own : (Request.start request).path = some (actualLRPSchemaPath key.processGuid key.index) := by
      simp [Request.path, Request.slot, named]
    refine calls_raw (.inl own) fun found => ?_
    rcases found with e | ⟨lrp, version⟩
    · dsimp only
      split
      · -- the slot is empty
        refine ⟨⟨request, rfl⟩, fun drawn => ?_⟩
        rcases drawn with e | guid
        · trivial
        · dsimp only [Program.bind]
          split
          · refine ⟨trivial, fun now => ⟨⟨own, request, rfl⟩, fun answer => ?_⟩⟩
            rcases answer with e | ⟨⟩ <;> trivial
          · trivial
      · trivial
    · dsimp only
      split
      · trivial
      · split
        · trivial
        · refine ⟨trivial, fun now => ?_⟩
          dsimp only [Program.bind]
          split
          · refine ⟨own, fun answer => ?_⟩
            rcases answer with e | ⟨⟩ <;> trivial
          · trivial

theorem requestAuction_calls (request : CrashActualLRPRequest) (key : ActualLRPKey)
    (desired : Option D) :
    (requestLRPAuctionForLRPKey.requestAuction key desired).Calls
      (Request.crash request).MayCall := by
  refine ⟨⟨request, rfl⟩, fun answer => ?_⟩
  rcases answer with e | ⟨⟩ <;> trivial

theorem crash_calls (fromJSON : Json → Option D) (request : CrashActualLRPRequest) :
    (crashActualLRP fromJSON request).Calls (Request.crash request).MayCall := by
  rw [crashActualLRP]
  split
  · trivial
  · rename_i key named
    have own : (Request.crash request).path = some (actualLRPSchemaPath key.processGuid key.index) := by
      simp [Request.path, Request.slot, named]
    have auction : (requestLRPAuctionForLRPKey fromJSON key).Calls (Request.crash request).MayCall := by
      refine calls_desired (.inr ⟨request, key, rfl, named, rfl⟩) fun found => ?_
      rcases found with e | desired
      · dsimp only
        split
        · refine ⟨⟨own, request, rfl⟩, fun answer => ?_⟩
          rcases answer with e | ⟨⟩
          · trivial
          · exact requestAuction_calls request key none
        · trivial
      · exact requestAuction_calls request key desired
    refine calls_raw (.inl own) fun found => ?_
    rcases found with e | ⟨lrp, version⟩
    · trivial
    · refine ⟨trivial, fun readAt => ?_⟩
      dsimp only [Program.bind]
      split
      · trivial
      · split
        · trivial
        · refine ⟨trivial, fun now => ?_⟩
          dsimp only [Program.bind]
          split
          · trivial
          · refine ⟨own, fun answer => ?_⟩
            rcases answer with e | ⟨⟩
            · trivial
            · dsimp only [Program.bind]
              split
              · exact auction.bind fun _ => trivial
              · trivial

theorem fail_calls (request : FailActualLRPRequest) :
    (failActualLRP request : Operation D _).Calls (Request.fail request).MayCall := by
  rw [failActualLRP]
  split
  · trivial
  · rename_i key named
    have own : (Request.fail request).path = some (actualLRPSchemaPath key.processGuid key.index) := by
      simp [Request.path, Request.slot, named]
    refine calls_raw (.inl own) fun found => ?_
    rcases found with e | ⟨lrp, version⟩
    · trivial
    · dsimp only
      split
      · trivial
      · refine ⟨trivial, fun now => ⟨own, fun answer => ?_⟩⟩
        rcases answer with e | ⟨⟩ <;> trivial

theorem removeActualLRP_calls {request : Request}
    (removes : (∃ guid index, request = .remove guid index) ∨ ∃ retire, request = .retire retire)
    (lrp : ActualLRP) (version : Nat) :
    (removeActualLRP lrp version : Operation D _).Calls request.MayCall := by
  refine ⟨removes, fun answer => ?_⟩
  rcases answer with e | ⟨⟩ <;> trivial

theorem remove_calls (processGuid : String) (index : Int32) :
    (removeActualLRPByIndex processGuid index : Operation D _).Calls
      (Request.remove processGuid index).MayCall := by
  refine calls_raw (.inl rfl) fun found => ?_
  rcases found with e | ⟨lrp, version⟩
  · trivial
  · exact removeActualLRP_calls (.inl ⟨_, _, rfl⟩) lrp version

theorem retireOnce_calls (request : RetireActualLRPRequest) (lrp : ActualLRP) (version : Nat) :
    (retireOnce lrp version : Operation D _).Calls (Request.retire request).MayCall := by
  have removes := removeActualLRP_calls (D := D) (.inr ⟨request, rfl⟩) lrp version
  rw [retireOnce]
  split
  · exact removes
  · refine ⟨⟨request, rfl⟩, fun present => ?_⟩
    rcases present with e | cell
    · dsimp only [Program.bind]
      split
      · exact removes
      · trivial
    · refine ⟨⟨request, rfl⟩, fun answer => ?_⟩
      rcases answer with e | ⟨⟩ <;> trivial

theorem retireLoop_calls {request : RetireActualLRPRequest} {processGuid : String} {index : Int32}
    (own : (Request.retire request).path = some (actualLRPSchemaPath processGuid index))
    (attempts : Nat) (err : Except Error Unit) :
    (retireLoop processGuid index attempts err : Operation D _).Calls
      (Request.retire request).MayCall := by
  induction attempts generalizing err with
  | zero => trivial
  | succ attempts ih =>
      refine calls_raw (.inl own) fun found => ?_
      rcases found with e | ⟨lrp, version⟩
      · trivial
      · refine (retireOnce_calls request lrp version).bind fun retired => ?_
        rcases retired with e | ⟨⟩
        · exact ih _
        · trivial

theorem retire_calls (request : RetireActualLRPRequest) :
    (retireActualLRP request : Operation D _).Calls (Request.retire request).MayCall := by
  rw [retireActualLRP]
  split
  · trivial
  · rename_i key named
    have own : (Request.retire request).path = some (actualLRPSchemaPath key.processGuid key.index) := by
      simp [Request.path, Request.slot, named]
    exact (retireLoop_calls own _ _).bind fun _ => trivial

/-- **A request makes no call but those it may make**, whatever it is answered. -/
theorem Request.calls (fromJSON : Json → Option D) (request : Request) :
    (request.program fromJSON).Calls request.MayCall := by
  cases request with
  | claim request => exact (claim_calls request).bind fun _ => trivial
  | start request => exact (start_calls request).bind fun _ => trivial
  | crash request => exact (crash_calls fromJSON request).bind fun _ => trivial
  | fail request => exact (fail_calls request).bind fun _ => trivial
  | remove processGuid index => exact (remove_calls processGuid index).bind fun _ => trivial
  | retire request => exact (retire_calls request).bind fun _ => trivial

end Bbs.Etcd
