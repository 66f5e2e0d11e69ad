import MotionControl.SegmentQueue

/-! Histories of a segment queue. A queue gives back the segments it has accepted, each of them once and in
order, and refuses a segment only while it is marked as not ready or full. -/
namespace MotionControl
variable {α : Type}

/-- A call of a segment queue. -/
inductive QueueCall (α : Type) where
  | enqueue (segment : PlannerSegment α)
  | pop
  | drain
  | setNotReady (reason : String)
  | setReady

inductive QueueReply (α : Type) where
  | offered (verdict : Except PlannerError Unit)
  | popped (segment : Option (PlannerSegment α))
  | drained (segments : List (PlannerSegment α))
  /-- The readiness has been set. -/
  | marked

structure QueueEvent (α : Type) where
  call : QueueCall α
  reply : QueueReply α

namespace QueueEvent

/-- The segments that the event puts into the queue. -/
def accepted : QueueEvent α → List (PlannerSegment α)
  | ⟨.enqueue segment, .offered (.ok ())⟩ => [segment]
  | _ => []

/-- The segments that the event takes out of the queue. -/
def removed : QueueEvent α → List (PlannerSegment α)
  | ⟨.pop, .popped segment⟩ => segment.toList
  | ⟨.drain, .drained segments⟩ => segments
  | _ => []

/-- What the event says of the readiness: why the queue is not ready, or that it is. -/
def mark : QueueEvent α → Option (Option String)
  | ⟨.setNotReady reason, _⟩ => some (some reason)
  | ⟨.setReady, _⟩ => some none
  | _ => none

/-- The reason of the last mark, if it is one of a queue that is not ready. -/
def lastMark (events : List (QueueEvent α)) : Option String := (events.filterMap mark).getLast?.join

end QueueEvent

namespace SegmentQueue
open QueueEvent
variable {q q' q'' : SegmentQueue α} {events more : List (QueueEvent α)}

/-- The reply to a call and the queue after it. -/
def perform (q : SegmentQueue α) : QueueCall α → QueueReply α × SegmentQueue α
  | .enqueue segment => (.offered (planner q segment).verdict, (planner q segment).state)
  | .pop => (.popped q.pop.1, q.pop.2)
  | .drain => (.drained q.drain.1, q.drain.2)
  | .setNotReady reason => (.marked, q.setNotReady reason)
  | .setReady => (.marked, q.setReady)

/-- The events of some calls and the queue after them. -/
def replay (q : SegmentQueue α) : List (QueueCall α) → List (QueueEvent α) × SegmentQueue α
  | [] => ([], q)
  | call :: calls =>
    let (reply, q) := q.perform call
    let (events, q) := q.replay calls
    (⟨call, reply⟩ :: events, q)

theorem planner_cases (q : SegmentQueue α) (segment : PlannerSegment α) :
    (∃ reason, q.notReady = some reason ∧
      planner q segment = { verdict := .error (.notReady reason), state := q }) ∨
    (q.notReady = none ∧ q.capacity ≤ q.segments.size ∧
      planner q segment = { verdict := .error .queueFull, state := q }) ∨
    (q.notReady = none ∧ q.segments.size < q.capacity ∧
      planner q segment = { verdict := .ok (), state := { q with segments := q.segments.push segment } }) := by
  rw [planner, enqueue]
  cases hr : q.notReady with
  | some reason => exact .inl ⟨reason, rfl, rfl⟩
  | none =>
    by_cases hf : q.capacity ≤ q.segments.size
    · exact .inr (.inl ⟨rfl, hf, by simp [hf]⟩)
    · exact .inr (.inr ⟨rfl, Nat.lt_of_not_le hf, by simp [hf]⟩)

/-- What holds between a queue and the one that some events lead to. -/
structure Accounts (q : SegmentQueue α) (events : List (QueueEvent α)) (q' : SegmentQueue α) : Prop where
  capacity_eq : q'.capacity = q.capacity
  conserved : q.segments.toList ++ events.flatMap accepted = events.flatMap removed ++ q'.segments.toList
  size_le : q.segments.size ≤ q.capacity → q'.segments.size ≤ q'.capacity
  readiness : q'.notReady = (events.filterMap mark).getLast?.getD q.notReady

namespace Accounts

theorem refl (q : SegmentQueue α) : Accounts q [] q := ⟨rfl, by simp, id, rfl⟩

theorem trans (h : Accounts q events q') (h' : Accounts q' more q'') : Accounts q (events ++ more) q'' where
  capacity_eq := h'.capacity_eq.trans h.capacity_eq
  conserved := by
    rw [List.flatMap_append, List.flatMap_append, ← List.append_assoc, h.conserved, List.append_assoc,
      h'.conserved, List.append_assoc]
  size_le := h'.size_le ∘ h.size_le
  readiness := by
    rw [h'.readiness, h.readiness, List.filterMap_append, List.getLast?_append]
    cases (more.filterMap mark).getLast? <;> rfl

end Accounts

/-- Every call accounts for the segments that it puts in and takes out. -/
theorem perform_accounts (q : SegmentQueue α) (call : QueueCall α) :
    Accounts q [⟨call, (q.perform call).1⟩] (q.perform call).2 := by
  cases call with
  | enqueue segment =>
    rw [perform]
    obtain ⟨reason, -, hp⟩ | ⟨-, -, hp⟩ | ⟨-, hs, hp⟩ := planner_cases q segment
    · rw [hp]
      exact ⟨rfl, by simp [accepted, removed], id, rfl⟩
    · rw [hp]
      exact ⟨rfl, by simp [accepted, removed], id, rfl⟩
    · rw [hp]
      exact ⟨rfl, by simp [accepted, removed], fun _ => by simpa using Nat.succ_le_of_lt hs, rfl⟩
  | pop =>
    refine ⟨rfl, ?_, fun h => ?_, rfl⟩
    · obtain ⟨capacity, ⟨segments⟩, notReady⟩ := q
      cases segments <;> simp [perform, pop, accepted, removed]
    · refine Nat.le_trans ?_ h
      simp [perform, pop]
  | drain => exact ⟨rfl, by simp [perform, drain, accepted, removed], fun _ => Nat.zero_le _, rfl⟩
  | setNotReady reason => exact ⟨rfl, by simp [perform, setNotReady, accepted, removed], id, rfl⟩
  | setReady => exact ⟨rfl, by simp [perform, setReady, accepted, removed], id, rfl⟩

theorem replay_accounts (q : SegmentQueue α) (calls : List (QueueCall α)) :
    Accounts q (q.replay calls).1 (q.replay calls).2 := by
  induction calls generalizing q with
  | nil => exact .refl q
  | cons call calls ih => exact (q.perform_accounts call).trans (ih (q.perform call).2)

theorem map_call_replay (q : SegmentQueue α) (calls : List (QueueCall α)) :
    (q.replay calls).1.map call = calls := by
  induction calls generalizing q with
  | nil => rfl
  | cons call calls ih => exact congrArg (call :: ·) (ih (q.perform call).2)

/-- Whatever calls are made of a new queue, the segments taken out of it and then those still in it are the
segments that it has accepted, in order, and there is never more in it than it has room for. A segment that it
refuses changes nothing. It is refused because of the last mark if that says that the queue is not ready, and
otherwise exactly when the queue is full. -/
theorem replay_conserves (capacity : Nat) (calls : List (QueueCall α)) :
    let run := ({ capacity } : SegmentQueue α).replay calls
    run.1.map call = calls ∧
    run.1.flatMap removed ++ run.2.segments.toList = run.1.flatMap accepted ∧
    run.2.segments.size ≤ capacity ∧
    ∀ segment,
      (∀ e, (planner run.2 segment).verdict = .error e → (planner run.2 segment).state = run.2) ∧
      (∀ reason, (planner run.2 segment).verdict = .error (.notReady reason) ↔ lastMark run.1 = some reason) ∧
      ((planner run.2 segment).verdict = .error .queueFull ↔
        lastMark run.1 = none ∧ run.2.segments.size = capacity) := by
  obtain ⟨hcapacity, hconserved, hsize, hready⟩ := replay_accounts ({ capacity } : SegmentQueue α) calls
  have hcalls := map_call_replay ({ capacity } : SegmentQueue α) calls
  generalize ({ capacity } : SegmentQueue α).replay calls = run at *
  have hle : run.2.segments.size ≤ capacity := Nat.le_trans (hsize (Nat.zero_le _)) (Nat.le_of_eq hcapacity)
  have hmark : run.2.notReady = lastMark run.1 := by
    rw [hready, lastMark]
    cases (run.1.filterMap mark).getLast? <;> rfl
  refine ⟨hcalls, hconserved.symm, hle, fun segment => ?_⟩
  rw [← hmark]
  obtain ⟨reason, hr, hp⟩ | ⟨hr, hs, hp⟩ | ⟨hr, hs, hp⟩ := planner_cases run.2 segment
  · simp [hp, hr]
  · rw [hcapacity] at hs
    simp [hp, hr, Nat.le_antisymm hle hs]
  · rw [hcapacity] at hs
    simp [hp, hr, Nat.ne_of_lt hs]

/-- A queue for one segment is full with it. Once it has been taken out, the queue refuses the next one because
it is not ready. -/
theorem emptied_queue_not_ready :
    let segment (x : Nat) : PlannerSegment Nat := ⟨⟨[x]⟩, ⟨[x]⟩, 100, .linear, false, none⟩
    let run := ({ capacity := 1 } : SegmentQueue Nat).replay
      [.enqueue (segment 1), .enqueue (segment 2), .pop, .setNotReady "alarm"]
    run.1.flatMap removed = [segment 1] ∧ run.2.segments = #[] ∧
      (planner run.2 (segment 3)).verdict = .error (.notReady "alarm") ∧
      (planner run.2 (segment 3)).state = run.2 := by
  intro segment run
  obtain ⟨-, -, -, hrefused⟩ := replay_conserves 1
    [.enqueue (segment 1), .enqueue (segment 2), .pop, .setNotReady "alarm"]
  exact ⟨rfl, rfl, rfl, (hrefused (segment 3)).1 _ rfl⟩

end SegmentQueue

end MotionControl
