import MotionControl.Proofs.Controller.HomingSteps
import MotionControl.Simulation

/-! What waits in the queue of a simulated machine. A move that fails leaves behind the segments that were
accepted of it, until the next move that succeeds has all of the queue executed. -/
namespace MotionControl
variable {α : Type}

/-- The segments of a record that were accepted. -/
def OfferRecord.accepted (record : OfferRecord α) : List (PlannerSegment α) :=
  (record.filter fun offer => offer.2.isOk).map Prod.fst

namespace SegmentQueue
variable {q : SegmentQueue α}

/-- How many more segments the queue takes. -/
def room (q : SegmentQueue α) : Nat := q.capacity - q.segments.size

/-- The queue with more segments at its end. -/
def extend (q : SegmentQueue α) (segments : List (PlannerSegment α)) : SegmentQueue α :=
  { q with segments := (q.segments.toList ++ segments).toArray }

/-- What comes of a move whose segments are offered to a queue with some room. -/
def answer (room : Nat) (prepared : Outcome MotionError (List (PlannerSegment α))) :
    Outcome MotionError Nat := do
  let segments ← prepared
  if segments.length ≤ room then return segments.length
  else refuse (.plannerRejected room .queueFull)

@[simp] theorem extend_nil (q : SegmentQueue α) : q.extend [] = q := by simp [extend]

theorem extend_extend (q : SegmentQueue α) (first second : List (PlannerSegment α)) :
    (q.extend first).extend second = q.extend (first ++ second) := by simp [extend]

@[simp] theorem notReady_extend (segments : List (PlannerSegment α)) :
    (q.extend segments).notReady = q.notReady := rfl

theorem room_extend (segments : List (PlannerSegment α)) :
    (q.extend segments).room = q.room - segments.length := by
  simp [room, extend]
  omega

theorem enqueue_eq (hq : q.notReady = none) (segment : PlannerSegment α) :
    q.enqueue segment = if q.room = 0 then .error .queueFull else .ok (q.extend [segment]) := by
  rw [enqueue, hq]
  by_cases hr : q.room = 0
  · have hs : q.capacity ≤ q.segments.size := Nat.le_of_sub_eq_zero hr
    simp [hr, hs]
  · have hs : ¬ q.capacity ≤ q.segments.size := fun h => hr (Nat.sub_eq_zero_of_le h)
    have he : q.segments.push segment = (q.segments.toList ++ [segment]).toArray := Array.ext' (by simp)
    rw [if_neg hr]
    dsimp only
    rw [if_neg hs, ← hq, he, extend]

end SegmentQueue

/-- What a queue makes of segments that are offered to it after `count` others: it takes those it has
room for. -/
structure Queued [Scalar α] (q : SegmentQueue α) (record : OfferRecord α) (count : Nat)
    (segments : List (PlannerSegment α)) (report : MoveReport α (SegmentQueue α × OfferRecord α)) : Prop where
  result : report.result = if segments.length ≤ q.room then .ok (count + segments.length)
    else refuse (.plannerRejected (count + q.room) .queueFull)
  queue : report.planner.1 = q.extend (segments.take q.room)
  accepted : report.planner.2.accepted = record.accepted ++ segments.take q.room

namespace Controller
variable [Scalar α] {q : SegmentQueue α}

/-- A queue takes segments as long as it has room, and never supersedes a jog. -/
theorem offer_queued (move : Move α) (ticket : Option JogTicket) (count : Nat)
    (segments : List (MotorSegment α)) (c : Controller α) (record : OfferRecord α) (hq : q.notReady = none)
    (ht : ticket.any (fun ticket => !c.jog.isCurrent ticket) = false) :
    Queued q record count (segments.map (plannerSegment move))
      (offer SegmentQueue.planner.recorded move ticket count segments c (q, record)) := by
  induction segments generalizing count c q record with
  | nil => exact ⟨by simp [offer], by simp [offer], by simp [offer]⟩
  | cons segment rest ih =>
    rw [offer, if_neg (Bool.eq_false_iff.mp ht), List.map_cons]
    simp only [Planner.recorded, SegmentQueue.planner, SegmentQueue.enqueue_eq hq]
    by_cases hr : q.room = 0
    · rw [if_pos hr]
      exact ⟨by simp [hr], by simp [hr], by simp [hr, OfferRecord.accepted, Except.isOk, Except.toBool]⟩
    · rw [if_neg hr]
      obtain ⟨room, hroom⟩ := Nat.exists_eq_succ_of_ne_zero hr
      have hnext : (q.extend [plannerSegment move segment]).room = room := by
        simp [SegmentQueue.room_extend, hroom]
      have hi := @ih (q.extend [plannerSegment move segment]) (count + 1)
        { c with motors := segment.motors }
        (record ++ [(plannerSegment move segment, .ok ())]) hq ht
      refine ⟨?_, ?_, ?_⟩
      · refine hi.result.trans ?_
        rw [hnext, hroom]
        simp only [List.length_cons, Nat.succ_eq_add_one, Nat.add_le_add_iff_right]
        split
        · congr 1
          omega
        · congr 2
          omega
      · refine hi.queue.trans ?_
        rw [hnext, hroom, SegmentQueue.extend_extend]
        rfl
      · refine hi.accepted.trans ?_
        rw [hnext, hroom]
        simp [OfferRecord.accepted, Except.isOk, Except.toBool]

theorem perform_queued (c : Controller α) (command : MotionCommand α) (hq : q.notReady = none) :
    let report := c.perform SegmentQueue.planner.recorded (q, []) command
    report.result = SegmentQueue.answer q.room (c.prepare command) ∧
      report.planner.1 = q.extend ((c.planned command).take q.room) ∧
      report.planner.2.accepted = (c.planned command).take q.room := by
  have ht := c.commandTicket_isCurrent command
  rw [planned, prepare_eq, perform_eq]
  cases c.motorSegments command with
  | error e =>
    have hn : (([] : List (PlannerSegment α)).take q.room) = [] := List.take_nil
    refine ⟨rfl, ?_, hn.symm⟩
    change q = q.extend (([] : List (PlannerSegment α)).take q.room)
    rw [hn, SegmentQueue.extend_nil]
  | ok line =>
    have ho := offer_queued line.1 (c.commandTicket command) 0 line.2 (c.begun command) [] hq ht
    have hr := ho.result
    rw [Nat.zero_add, Nat.zero_add] at hr
    exact ⟨hr, ho.queue, ho.accepted⟩

end Controller

/-- What a call of `execute` came to. -/
structure ExecuteCall (α : Type) where
  accepted : List (PlannerSegment α)
  succeeded : Bool

namespace ExecuteCall

/-- The number of segments accepted in some calls. -/
def total (calls : List (ExecuteCall α)) : Nat := (calls.map fun call => call.accepted.length).sum

/-- The segments that were accepted after the last call that succeeded. -/
def backlog (calls : List (ExecuteCall α)) : List (PlannerSegment α) :=
  calls.foldl (fun waiting call => if call.succeeded then [] else waiting ++ call.accepted) []

theorem total_concat (calls : List (ExecuteCall α)) (call : ExecuteCall α) :
    total (calls ++ [call]) = total calls + call.accepted.length := by simp [total]

theorem backlog_concat (calls : List (ExecuteCall α)) (call : ExecuteCall α) : backlog (calls ++ [call]) =
    if call.succeeded then [] else backlog calls ++ call.accepted := by simp [backlog]

end ExecuteCall

namespace SimulatedMachine
open ExecuteCall
variable [Scalar α] {m : SimulatedMachine α} {size : Nat} {calls : List (ExecuteCall α)}

/-- The call of `execute` for a move. -/
def call (m : SimulatedMachine α) (move : Move α) : ExecuteCall α where
  accepted := (m.controller.moveTo SegmentQueue.planner.recorded (m.queue, []) move).planner.2.accepted
  succeeded := (m.execute move).1.isOk

/-- Runs moves in order, whatever comes of each, and keeps a list of the calls. -/
def executeAll (m : SimulatedMachine α) (moves : List (Move α)) : List (ExecuteCall α) × SimulatedMachine α :=
  moves.foldl (fun (calls, m) move => (calls ++ [m.call move], (m.execute move).2)) ([], m)

/-- The queue holds the backlog of the calls, and the other segments accepted in them have been executed. -/
structure Accounted (size : Nat) (calls : List (ExecuteCall α)) (m : SimulatedMachine α) : Prop where
  capacity : m.queue.capacity = size
  ready : m.queue.notReady = none
  queued : m.queue.segments.toList = backlog calls
  executed : m.executed + (backlog calls).length = total calls

/-- A call that fails leaves in the queue what was accepted in it; one that succeeds leaves nothing. -/
theorem execute_eq (hq : m.queue.notReady = none) (move : Move α) :
    ∃ controller, (m.call move).accepted = (m.controller.planned (.line move)).take m.queue.room ∧
      m.execute move = match SegmentQueue.answer m.queue.room (m.controller.prepare (.line move)) with
        | .error e => (.error e, { m with controller, queue := m.queue.extend (m.call move).accepted })
        | .ok n => (.ok n, { m with
          controller
          queue := (m.queue.extend (m.call move).accepted).drain.2
          executed := m.executed + (m.queue.extend (m.call move).accepted).drain.1.length }) := by
  have hu := m.controller.unrecorded_perform SegmentQueue.planner m.queue (.line move)
  obtain ⟨hresult, hqueue, haccepted⟩ := m.controller.perform_queued (.line move) hq
  have hc : (m.call move).accepted = (m.controller.planned (.line move)).take m.queue.room := haccepted
  generalize m.controller.perform SegmentQueue.planner.recorded (m.queue, []) (.line move) = run at hu hresult hqueue
  rw [Controller.perform] at hu
  refine ⟨run.controller, hc, ?_⟩
  rewrite [execute, ← hu, ← hresult, hc, ← hqueue]
  obtain ⟨result, controller, planner⟩ := run
  cases result with
  | error e => rfl
  | ok n => rfl

theorem result_execute (hq : m.queue.notReady = none) (move : Move α) : (m.execute move).1 =
    SegmentQueue.answer m.queue.room (m.controller.prepare (.line move)) := by
  obtain ⟨after, -, he⟩ := execute_eq hq move
  rw [he]
  cases SegmentQueue.answer m.queue.room (m.controller.prepare (.line move)) with
  | error e => rfl
  | ok n => rfl

theorem execute_of_full (hq : m.queue.notReady = none) (hroom : m.queue.room = 0) {move : Move α}
    (hp : m.controller.planned (.line move) ≠ []) :
    (m.execute move).1 = refuse (.plannerRejected 0 .queueFull) := by
  rw [result_execute hq, hroom]
  rw [Controller.planned] at hp
  cases hs : m.controller.prepare (.line move) with
  | error e =>
    rw [hs] at hp
    exact absurd rfl hp
  | ok segments =>
    rw [hs] at hp
    exact if_neg fun hl => hp (List.length_eq_zero_iff.mp (Nat.le_zero.mp hl))

theorem accounted_execute (h : Accounted size calls m) (move : Move α) :
    Accounted size (calls ++ [m.call move]) (m.execute move).2 := by
  obtain ⟨controller, -, he⟩ := execute_eq h.ready move
  have hs : (m.call move).succeeded = (m.execute move).1.isOk := rfl
  rw [he] at hs ⊢
  cases ha : SegmentQueue.answer m.queue.room (m.controller.prepare (.line move)) with
  | error e =>
    rw [ha] at hs
    have hb : backlog (calls ++ [m.call move]) = backlog calls ++ (m.call move).accepted := by
      rw [backlog_concat, hs]
      rfl
    refine ⟨h.capacity, h.ready, ?_, ?_⟩
    · rw [hb, ← h.queued]
      rfl
    · rw [hb, total_concat, ← h.executed, List.length_append, Nat.add_assoc]
  | ok n =>
    rw [ha] at hs
    have hb : backlog (calls ++ [m.call move]) = [] := by
      rw [backlog_concat, hs]
      rfl
    refine ⟨h.capacity, h.ready, ?_, ?_⟩
    · rw [hb]
      rfl
    · rw [hb, total_concat, ← h.executed]
      simp [SegmentQueue.drain, SegmentQueue.extend, ← h.queued, Nat.add_assoc]

theorem accounted_executeAll (controller : Controller α) (settings : SimulationSettings α)
    (moves : List (Move α)) : Accounted settings.queueSize ((new controller settings).executeAll moves).1
      ((new controller settings).executeAll moves).2 := by
  rw [executeAll]
  induction moves using List.reverseRecOn with
  | nil => exact ⟨rfl, rfl, rfl, rfl⟩
  | append_singleton moves move ih =>
    rw [List.foldl_concat]
    exact accounted_execute ih move

/-- After any moves, the queue is empty and whatever was accepted has been executed exactly when there is no
backlog. The next move is accepted when it fits into the queue beside the backlog. -/
theorem executeAll_drained_iff (controller : Controller α) (settings : SimulationSettings α)
    (moves : List (Move α)) :
    let run := (new controller settings).executeAll moves
    (run.2.queue.segments = #[] ∧ run.2.executed = total run.1 ↔ backlog run.1 = []) ∧
    ∀ move, (run.2.execute move).1 = SegmentQueue.answer (settings.queueSize - (backlog run.1).length)
      (run.2.controller.prepare (.line move)) := by
  obtain ⟨hcapacity, hready, hqueued, hexecuted⟩ := accounted_executeAll controller settings moves
  refine ⟨⟨?_, ?_⟩, ?_⟩
  · rintro ⟨hempty, -⟩
    rw [← hqueued, hempty]
  · intro hb
    rw [hb] at hqueued hexecuted
    exact ⟨Array.toList_inj.mp hqueued, hexecuted⟩
  · intro move
    have hroom : SegmentQueue.room ((new controller settings).executeAll moves).2.queue =
        settings.queueSize - (backlog ((new controller settings).executeAll moves).1).length := by
      rw [SegmentQueue.room, hcapacity, ← hqueued, Array.length_toList]
    rw [result_execute hready, hroom]

/-- A bent line has more segments than a queue for one. The one that was accepted stays in the queue, and
because of it a move of a single segment is refused. -/
theorem segment_left_in_queue : ∃ controller : Controller Float,
    Controller.ofMachine (KinematicsCatalog.builtin.register "bent" (Plugins.constructor "bent"))
      Controller.bentMachine = .ok controller ∧
    let run := (new controller { tripAt := [], queueSize := 1 }).executeAll [.linear ⟨[0.0, 2.5]⟩ 1000.0]
    ¬ (run.2.queue.segments = #[] ∧ run.2.executed = total run.1) ∧
    (run.2.controller.planned (.line (.linear ⟨[1.0, 1.25]⟩ 1000.0))).length = 1 ∧
    (run.2.execute (.linear ⟨[1.0, 1.25]⟩ 1000.0)).1 = refuse (.plannerRejected 0 .queueFull) := by
  obtain ⟨controller, hc⟩ : ∃ controller, Controller.ofMachine
    (KinematicsCatalog.builtin.register "bent" (Plugins.constructor "bent")) Controller.bentMachine =
      .ok controller := ⟨_, rfl⟩
  refine ⟨controller, hc, ?_⟩
  have ha := accounted_executeAll controller { tripAt := [], queueSize := 1 } [.linear ⟨[0.0, 2.5]⟩ 1000.0]
  generalize hrun : (new controller { tripAt := [], queueSize := 1 }).executeAll
    [.linear ⟨[0.0, 2.5]⟩ 1000.0] = run at ha ⊢
  have hfacts : run.2.queue.segments.size = 1 ∧
      (run.2.controller.planned (.line (.linear ⟨[1.0, 1.25]⟩ 1000.0))).length = 1 := by
    rw [← hrun]
    cases hc
    decide +kernel
  obtain ⟨hsize, hplanned⟩ := hfacts
  have hroom : run.2.queue.room = 0 := by
    rw [SegmentQueue.room, ha.capacity, hsize]
    rfl
  refine ⟨?_, hplanned, execute_of_full ha.ready hroom (List.ne_nil_of_length_eq_add_one hplanned)⟩
  rintro ⟨hempty, -⟩
  rw [hempty] at hsize
  cases hsize

end SimulatedMachine

end MotionControl
