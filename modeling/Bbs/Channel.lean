import Mathlib.Data.List.Basic

/-!
Buffered channels, as in Go.

A channel holds at most `capacity` values, oldest first. Sending to a closed channel
and closing a closed channel panic; receiving from a closed channel first empties the
buffer and then reports that there is no more.
-/

namespace Bbs

structure Channel (α : Type) (capacity : Nat) where
  buffer : List α
  closed : Bool
  bounded : buffer.length ≤ capacity

namespace Channel

variable {α : Type} {capacity : Nat}

def make : Channel α capacity :=
  ⟨[], false, Nat.zero_le capacity⟩

/-- What comes of a send in a `select` with a default branch. -/
inductive Sending (α : Type) (capacity : Nat) where
  | sent (channel : Channel α capacity)
  | full
  | panic

def trySend (channel : Channel α capacity) (a : α) : Sending α capacity :=
  if channel.closed then .panic
  else if room : channel.buffer.length < capacity then
    .sent ⟨channel.buffer ++ [a], false, by rw [List.length_append]; exact room⟩
  else .full

/-- `none` is a panic. -/
def close (channel : Channel α capacity) : Option (Channel α capacity) :=
  if channel.closed then none else some { channel with closed := true }

/-- What comes of a receive. -/
inductive Receiving (α : Type) (capacity : Nat) where
  | received (a : α) (channel : Channel α capacity)
  | drained
  | blocked

def receive (channel : Channel α capacity) : Receiving α capacity :=
  match channel.buffer with
  | a :: _ =>
      .received a { channel with
        buffer := channel.buffer.tail
        bounded := by rw [List.length_tail]; exact Nat.le_trans (Nat.sub_le _ _) channel.bounded }
  | [] => if channel.closed then .drained else .blocked

theorem trySend_sent {channel channel' : Channel α capacity} {a : α}
    (h : channel.trySend a = .sent channel') :
    channel.closed = false ∧ channel'.closed = false ∧ channel'.buffer = channel.buffer ++ [a] := by
  unfold trySend at h
  split at h
  · cases h
  · rename_i isOpen
    split at h
    · cases h
      exact ⟨by simpa using isOpen, rfl, rfl⟩
    · cases h

theorem trySend_full {channel : Channel α capacity} {a : α} (h : channel.trySend a = .full) :
    channel.closed = false ∧ channel.buffer.length = capacity := by
  unfold trySend at h
  split at h
  · cases h
  · rename_i isOpen
    split at h
    · cases h
    · rename_i room
      exact ⟨by simpa using isOpen, Nat.le_antisymm channel.bounded (Nat.not_lt.mp room)⟩

theorem trySend_panic {channel : Channel α capacity} {a : α} (h : channel.trySend a = .panic) :
    channel.closed = true := by
  unfold trySend at h
  split at h
  · assumption
  · split at h <;> cases h

theorem close_some {channel channel' : Channel α capacity} (h : channel.close = some channel') :
    channel.closed = false ∧ channel'.closed = true ∧ channel'.buffer = channel.buffer := by
  unfold close at h
  split at h
  · cases h
  · rename_i isOpen
    cases h
    exact ⟨by simpa using isOpen, rfl, rfl⟩

theorem close_none {channel : Channel α capacity} (h : channel.close = none) :
    channel.closed = true := by
  unfold close at h
  split at h
  · assumption
  · cases h

theorem receive_received {channel channel' : Channel α capacity} {a : α}
    (h : channel.receive = .received a channel') :
    channel'.closed = channel.closed ∧ channel.buffer = a :: channel'.buffer := by
  unfold receive at h
  split at h
  · rename_i holds
    cases h
    exact ⟨rfl, by simp [holds]⟩
  · split at h <;> cases h

theorem receive_isReceived {channel : Channel α capacity} (holds : channel.buffer ≠ []) :
    ∃ a channel', channel.receive = .received a channel' := by
  unfold receive
  split
  · exact ⟨_, _, rfl⟩
  · rename_i empty
    exact absurd empty holds

theorem receive_drained {channel : Channel α capacity} (h : channel.receive = .drained) :
    channel.closed = true ∧ channel.buffer = [] := by
  unfold receive at h
  split at h
  · cases h
  · rename_i empty
    split at h
    · rename_i closed
      exact ⟨closed, empty⟩
    · cases h

theorem receive_blocked {channel : Channel α capacity} (h : channel.receive = .blocked) :
    channel.closed = false := by
  unfold receive at h
  split at h
  · cases h
  · split at h
    · cases h
    · rename_i isOpen
      simpa using isOpen

end Channel

end Bbs
