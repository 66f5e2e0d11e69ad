import Mathlib
import MotionControl.Proofs.Arcs.Points
import MotionControl.Proofs.Controller.Creation
import MotionControl.Proofs.Controller.HomingSteps
import MotionControl.Proofs.Controller.Offers
import MotionControl.Proofs.Subdivision.LineFollowing

/-! Jogs that are cancelled while their segments are offered to the planner. The line of a jog has a ticket,
which is looked at before each segment is offered, and so stops; the arc of a jog has none. -/
namespace MotionControl
variable {α σ : Type}

/-- A segment that a planner was offered, its verdict, and how often the jog was cancelled or superseded
meanwhile. -/
structure LoggedOffer (α : Type) where
  segment : PlannerSegment α
  verdict : Except PlannerError Unit
  cancels : Nat

namespace LoggedOffer

/-- The segments that were accepted. -/
def accepted (log : List (LoggedOffer α)) : List (PlannerSegment α) :=
  (log.filter fun offer => offer.verdict.isOk).map segment

/-- The offers up to the first during which the jog was cancelled. -/
def upToCancel : List (LoggedOffer α) → List (LoggedOffer α)
  | [] => []
  | offer :: rest => if offer.cancels = 0 then offer :: upToCancel rest else [offer]

/-- Nothing is offered once the jog has been cancelled. -/
def StopsAtCancel (log : List (LoggedOffer α)) : Prop :=
  ∀ before offer after, log = before ++ offer :: after → offer.cancels ≠ 0 → after = []

theorem accepted_concat_ok (log : List (LoggedOffer α)) (segment : PlannerSegment α) (cancels : Nat) :
    accepted (log ++ [⟨segment, .ok (), cancels⟩]) = accepted log ++ [segment] := by
  simp [accepted, Except.isOk, Except.toBool]

theorem accepted_concat_error (log : List (LoggedOffer α)) (segment : PlannerSegment α) (e : PlannerError)
    (cancels : Nat) : accepted (log ++ [⟨segment, .error e, cancels⟩]) = accepted log := by
  simp [accepted, Except.isOk, Except.toBool]

theorem stopsAtCancel_nil : StopsAtCancel ([] : List (LoggedOffer α)) := by
  rintro before offer after he
  simp at he

theorem stopsAtCancel_cons {offer : LoggedOffer α} {rest : List (LoggedOffer α)} :
    StopsAtCancel (offer :: rest) ↔ (offer.cancels ≠ 0 → rest = []) ∧ StopsAtCancel rest := by
  constructor
  · intro h
    refine ⟨h [] offer rest rfl, ?_⟩
    rintro before later after rfl
    exact h (offer :: before) later after rfl
  · rintro ⟨hfirst, hrest⟩ before later after he hc
    cases before with
    | nil =>
      cases he
      exact hfirst hc
    | cons first before =>
      cases he
      exact hrest before later after rfl hc

theorem stopsAtCancel_upToCancel (log : List (LoggedOffer α)) : StopsAtCancel (upToCancel log) := by
  induction log with
  | nil => exact stopsAtCancel_nil
  | cons offer rest ih =>
    rw [upToCancel]
    split
    · rename_i hc
      exact stopsAtCancel_cons.mpr ⟨fun hn => absurd hc hn, ih⟩
    · exact stopsAtCancel_cons.mpr ⟨fun _ => rfl, stopsAtCancel_nil⟩

/-- The offers that a ticket lets a call make, if it has one. -/
def heeded (ticket : Option JogTicket) (log : List (LoggedOffer α)) : List (LoggedOffer α) :=
  if ticket.isSome then upToCancel log else log

theorem heeded_nil {ticket : Option JogTicket} : heeded ticket ([] : List (LoggedOffer α)) = [] := by
  cases ticket <;> rfl

theorem heeded_cons (ticket : Option JogTicket) (offer : LoggedOffer α) (rest : List (LoggedOffer α)) :
    heeded ticket (offer :: rest) =
      if ticket.isSome && decide (offer.cancels ≠ 0) then [offer] else offer :: heeded ticket rest := by
  cases ticket with
  | none => rfl
  | some ticket =>
    rw [heeded, heeded, upToCancel]
    by_cases hc : offer.cancels = 0 <;> simp [hc]

end LoggedOffer

namespace Planner

/-- A planner beside the log of what it was offered. -/
def logged (planner : Planner α σ) : Planner α (σ × List (LoggedOffer α)) :=
  fun (state, log) segment =>
    let reply := planner state segment
    ⟨reply.verdict, (reply.state, log ++ [⟨segment, reply.verdict, reply.jogCancels⟩]), reply.jogCancels⟩

/-- The log of a planner that is offered segments in order until it rejects one. -/
def replies (planner : Planner α σ) : σ → List (PlannerSegment α) → List (LoggedOffer α)
  | _, [] => []
  | state, segment :: rest =>
    let reply := planner state segment
    match reply.verdict with
    | .error e => [⟨segment, .error e, reply.jogCancels⟩]
    | .ok () => ⟨segment, .ok (), reply.jogCancels⟩ :: replies planner reply.state rest

end Planner

/-- The move of a command. -/
def MotionCommand.move : MotionCommand α → Move α
  | .line move => move
  | .arc move _ => move

theorem JogCounter.superseded_cancelTimes {jog : JogCounter} {ticket : Option JogTicket}
    (ht : ticket.any (fun ticket => !jog.isCurrent ticket) = false) (times : Nat) :
    ticket.any (fun ticket => !(jog.cancelTimes times).isCurrent ticket) =
      (ticket.isSome && decide (times ≠ 0)) := by
  cases ticket with
  | none => rfl
  | some ticket =>
    have hg : ticket.generation = jog.generation := by simpa [isCurrent] using ht
    have he : (jog.generation == jog.generation + times) = decide (times = 0) := by
      rw [Bool.beq_eq_decide_eq, decide_eq_decide]
      omega
    simp [isCurrent, cancelTimes, hg, he]

namespace Controller
open LoggedOffer
variable [Scalar α] {move : Move α} {motors : MotorPosition α}

/-- The motors are tracked to the last segment that was accepted, and a call that succeeds counts them. -/
structure Logged (motors : MotorPosition α) (log : List (LoggedOffer α)) (result : Outcome MotionError Nat)
    (after : Controller α) : Prop where
  motors : after.motors = motorsAfter motors (accepted log)
  ok : ∀ n, result = .ok n → n = (accepted log).length

theorem offer_of_superseded (planner : Planner α σ) {ticket : Option JogTicket} (count : Nat)
    (segments : List (MotorSegment α)) {c : Controller α} (state : σ)
    (ht : ticket.any (fun ticket => !c.jog.isCurrent ticket) = true) :
    offer planner move ticket count segments c state = ⟨.ok count, c, state⟩ := by
  cases segments with
  | nil => rfl
  | cons segment rest => rw [offer, if_pos ht]

theorem offer_logged (planner : Planner α σ) (move : Move α) (ticket : Option JogTicket)
    (before : List (LoggedOffer α)) (rest : List (MotorSegment α)) (c : Controller α) (state : σ)
    (ht : ticket.any (fun ticket => !c.jog.isCurrent ticket) = false)
    (hm : c.motors = motorsAfter motors (accepted before)) :
    ∃ result after last log,
      offer planner.logged move ticket (accepted before).length rest c (state, before) =
        ⟨result, after, (last, log)⟩ ∧
      offer planner move ticket (accepted before).length rest c state = ⟨result, after, last⟩ ∧
      log = before ++ heeded ticket (planner.replies state (rest.map (plannerSegment move))) ∧
      Logged motors log result after := by
  -- on the segments still to be offered; the offers in `before` have been made
  induction rest generalizing before c state with
  | nil =>
    refine ⟨_, _, _, _, rfl, rfl, ?_, hm, ?_⟩
    · rw [List.map_nil, Planner.replies, heeded_nil, List.append_nil]
    · rintro _ ⟨⟩
      rfl
  | cons segment rest ih =>
    rw [offer, offer, if_neg (Bool.eq_false_iff.mp ht), if_neg (Bool.eq_false_iff.mp ht), List.map_cons,
      Planner.replies]
    simp only [Planner.logged]
    obtain ⟨verdict, next, cancels⟩ := planner state (plannerSegment move segment)
    cases verdict with
    | error e =>
      refine ⟨_, _, _, _, rfl, rfl, ?_, ?_, ?_⟩
      · rw [heeded_cons, heeded_nil, ite_self]
      · rw [accepted_concat_error]
        exact hm
      · rintro _ ⟨⟩
    | ok =>
      have ha := accepted_concat_ok before (plannerSegment move segment) cancels
      have hlen : (accepted (before ++ [⟨plannerSegment move segment, .ok (), cancels⟩])).length =
          (accepted before).length + 1 := by
        rw [ha, List.length_append, List.length_singleton]
      have hmotors : segment.motors = motorsAfter motors
          (accepted (before ++ [⟨plannerSegment move segment, .ok (), cancels⟩])) := by
        rw [ha, motorsAfter_append]
        rfl
      have hs := JogCounter.superseded_cancelTimes ht cancels
      rw [heeded_cons, ← hlen]
      dsimp only
      -- a ticket superseded by this very segment stops the rest; without a ticket nothing does
      cases hn : (ticket.isSome && decide (cancels ≠ 0)) with
      | true =>
        rw [hn] at hs
        rw [if_pos rfl, offer_of_superseded planner _ _ _ hs, offer_of_superseded planner.logged _ _ _ hs]
        refine ⟨_, _, _, _, rfl, rfl, rfl, hmotors, ?_⟩
        rintro _ ⟨⟩
        rfl
      | false =>
        rw [hn] at hs
        rw [if_neg Bool.false_ne_true]
        obtain ⟨result, after, last, log, hl, hp, he, hlog⟩ :=
          ih (before ++ [⟨plannerSegment move segment, .ok (), cancels⟩])
            { c with jog := c.jog.cancelTimes cancels, motors := segment.motors } next hs hmotors
        rw [List.append_assoc] at he
        exact ⟨result, after, last, log, hl, hp, he, hlog⟩

theorem isSome_commandTicket (c : Controller α) (move : Move α) :
    (c.commandTicket (.line move)).isSome = move.isJog := by
  rw [commandTicket, ticket]
  split
  · rename_i hj
    exact hj.symm
  · rename_i hj
    exact (Bool.eq_false_iff.mpr hj).symm

/-- A planner is offered the segments of a command as far as its replies let it, and with a ticket no further
than the first cancel. -/
theorem perform_logged (c : Controller α) (planner : Planner α σ) (state : σ) (command : MotionCommand α) :
    ∃ result after last log,
      c.perform planner.logged (state, []) command = ⟨result, after, (last, log)⟩ ∧
      c.perform planner state command = ⟨result, after, last⟩ ∧
      log = heeded (c.commandTicket command) (planner.replies state (c.planned command)) ∧
      Logged c.motors log result after := by
  have hm := c.motors_begun command
  rw [planned, prepare_eq, perform_eq, perform_eq]
  cases c.motorSegments command with
  | error e =>
    refine ⟨_, _, _, _, rfl, rfl, ?_, hm, ?_⟩
    · exact heeded_nil.symm
    · rintro _ ⟨⟩
  | ok line =>
    exact offer_logged planner line.1 (c.commandTicket command) [] line.2 _ state (c.commandTicket_isCurrent command) hm

/-- A jog heeds every cancel, unless it is an arc and the planner goes on to accept what is offered. The call
is the same without a log. Segments accepted before stay with the planner, are counted and have moved the
tracked motors. -/
theorem jog_stopsAtCancel_iff (c : Controller α) (planner : Planner α σ) (state : σ) {command : MotionCommand α}
    (hj : command.move.isJog = true) :
    let run := c.perform planner.logged (state, []) command
    (StopsAtCancel run.planner.2 ↔ ∀ move arc, command = .arc move arc →
      StopsAtCancel (planner.replies state (c.planned command))) ∧
    c.perform planner state command = ⟨run.result, run.controller, run.planner.1⟩ ∧
    Logged c.motors run.planner.2 run.result run.controller := by
  obtain ⟨result, after, last, log, hl, hp, he, hlog⟩ := c.perform_logged planner state command
  rw [hl]
  refine ⟨?_, hp, hlog⟩
  rw [he]
  cases command with
  | line move =>
    have ht : (c.commandTicket (.line move)).isSome = true := (c.isSome_commandTicket move).trans hj
    rw [heeded, if_pos ht]
    refine iff_of_true (stopsAtCancel_upToCancel _) ?_
    rintro _ _ ⟨⟩
  | arc move arc =>
    constructor
    · rintro h _ _ ⟨⟩
      exact h
    · intro h
      exact h move arc rfl

/-- The line of a jog has two segments, and is cancelled as soon as the first of them is queued. -/
theorem cancelled_line_stops : ∃ c : Controller Float,
    ofMachine (KinematicsCatalog.builtin.register "bent" (Plugins.constructor "bent")) bentMachine = .ok c ∧
    (MotionCommand.line (.jog ⟨[0.0, 2.5]⟩ 1000.0)).move.isJog = true ∧
    (c.planned (.line (.jog ⟨[0.0, 2.5]⟩ 1000.0))).length = 2 ∧
    let run := c.perform (SegmentQueue.plannerCancellingAt 1).logged ({ capacity := 4 }, [])
      (.line (.jog ⟨[0.0, 2.5]⟩ 1000.0))
    run.planner.2.map cancels = [1] ∧ StopsAtCancel run.planner.2 := by
  obtain ⟨c, hc⟩ : ∃ c, ofMachine (KinematicsCatalog.builtin.register "bent" (Plugins.constructor "bent"))
    bentMachine = .ok c := ⟨_, rfl⟩
  have hj : (MotionCommand.line (.jog (⟨[0.0, 2.5]⟩ : AxisPosition Float) 1000.0)).move.isJog = true := rfl
  have hfacts : (c.planned (.line (.jog ⟨[0.0, 2.5]⟩ 1000.0))).length = 2 ∧
      (c.perform (SegmentQueue.plannerCancellingAt 1).logged ({ capacity := 4 }, [])
        (.line (.jog ⟨[0.0, 2.5]⟩ 1000.0))).planner.2.map cancels = [1] := by
    cases hc
    decide +kernel
  have hstops := (c.jog_stopsAtCancel_iff (SegmentQueue.plannerCancellingAt 1) { capacity := 4 } hj).1.mpr
    (fun _ _ => nofun)
  exact ⟨c, hc, hj, hfacts.1, hfacts.2, hstops⟩

/-- X bent by the square of Y, with arcs as coarse as a millimetre. -/
noncomputable def exactBentMachine : MachineDescription ℝ where
  name := MachineDescription.defaultName
  kinematics := .custom "bent" (((∅ : NameTable ℝ).insert "k" 1).insert "limit" 10.0)
  axes := [.homedIn "X" 200.0 1, .homedIn "Y" 200.0 2]
  motion := ⟨0.1, 1, 1⟩

theorem create_exactBentMachine :
    (KinematicsCatalog.builtin.register "bent" (Plugins.constructor "bent")).create exactBentMachine =
      .ok Subdivision.bentModel := by
  have hlimit : (10.0 : ℝ) = 10 := by norm_num
  rw [Subdivision.bentModel, ← hlimit]
  rfl

/-- Half a turn from the origin up to the first millimetre of Y. -/
noncomputable def halfTurn : Arc ℝ where
  center := (0, 0.5)
  radius := 0.5

theorem half_real : (0.5 : ℝ) = 1 / 2 := by norm_num

theorem onCircle_halfTurn {y tolerance : ℝ} (hy : |y - 1 / 2| = 1 / 2) (ht : 0 ≤ tolerance) :
    halfTurn.onCircle ⟨[0, y]⟩ tolerance = true := by
  have ho : halfTurn.offset ⟨[0, y]⟩ = (0, y - 1 / 2) := by
    change ((0 : ℝ) - 0, y - 0.5) = _
    rw [sub_zero, half_real]
  have hh : Scalar.hypot 0 (y - 1 / 2) = 1 / 2 := by
    change √(0 * 0 + (y - 1 / 2) * (y - 1 / 2)) = _
    rw [mul_zero, zero_add, Real.sqrt_mul_self_eq_abs, hy]
  rw [Arc.onCircle, ho, decide_eq_true_eq, hh, Scalar.abs_real]
  change |(1 : ℝ) / 2 - 0.5| ≤ tolerance
  rw [half_real, sub_self, abs_zero]
  exact ht

theorem collectChords_halfTurn (start target : AxisPosition ℝ) :
    halfTurn.collectChords start target 1 = .ok [target] := by
  have hc (sweep : ℝ) : halfTurn.chordCount sweep 1 = 1 := by
    rw [Arc.chordCount]
    norm_num [halfTurn]
  rw [Arc.collectChords_of_room (Arc.hasRoom_of_single (hc _)), Arc.chords_of_single (hc _)]

open Subdivision in
/-- The half turn is a single chord, which the bend of X cuts in two. -/
theorem arcSegments_halfTurn {c : Controller ℝ} (hmodel : c.model = bentModel)
    (hs : c.subdivision = ⟨1 / 10, 1⟩) (ht : c.arcTolerance = 1) (hm : c.motors = ⟨[0, 0]⟩) (feed : ℝ) :
    c.arcSegments (.jog ⟨[0, 1]⟩ feed) halfTurn =
      .ok (withFeed feed (bentAt 0) [bentAt (1 / 2), bentAt 1]) := by
  have hp : c.position = .ok ⟨[0, 0]⟩ := by
    rw [position, positionOf, hmodel, hm]
    change AxisPosition.new [(0 : ℝ) - 1 * 0 * 0, 0] = .ok ⟨[0, 0]⟩
    rw [AxisPosition.new_real]
    norm_num
  have htolerance : 0 ≤ circleTolerance halfTurn.radius := by
    norm_num [circleTolerance, halfTurn]
  have hstart : halfTurn.onCircle ⟨[0, 0]⟩ (circleTolerance halfTurn.radius) = true :=
    onCircle_halfTurn (by norm_num [abs_of_neg]) htolerance
  have htarget : halfTurn.onCircle ⟨[0, 1]⟩ (circleTolerance halfTurn.radius) = true :=
    onCircle_halfTurn (by norm_num) htolerance
  have hd : minMoveLength ≤ (bentAt 0).target.distance (bentAt 1).target := by
    norm_num [bentAt, minMoveLength, AxisPosition.distance, Coordinates.distance, Scalar.sum]
  have hg : segment ⟨1 / 10, 1⟩ bentModel (bentAt 0).target (.jog (bentAt 1).target feed) =
      .ok (withFeed feed (bentAt 0) [bentAt (1 / 2), bentAt 1]) :=
    segment_eq_ok.mpr ⟨(bentAt 0).motors, (bentAt 1).motors, bentAt_solved (by norm_num),
      bentAt_solved (by norm_num), .inr ⟨not_lt.mpr hd, _, split_bentAt, rfl⟩⟩
  have hr : Scalar.isPositive halfTurn.radius = true := by
    norm_num [halfTurn, Scalar.isPositive]
  rw [arcSegments, hp]
  refine Outcome.bind_eq_ok.mpr ⟨_, rfl, Outcome.guard_eq_ok.mpr ⟨by rw [hr]; decide, ?_⟩⟩
  refine Outcome.guard_eq_ok.mpr ⟨by rw [hstart]; exact fun h => by simp [Move.jog, htarget] at h, ?_⟩
  refine Outcome.bind_eq_ok.mpr ⟨false, by rw [hmodel]; rfl, Outcome.guard_eq_ok.mpr ⟨by decide, ?_⟩⟩
  refine Outcome.bind_eq_ok.mpr ⟨_, Outcome.lift_eq_ok.mpr (ht ▸ collectChords_halfTurn _ _), ?_⟩
  rw [chordSegments, hmodel, hs]
  exact Outcome.guard_eq_ok.mpr ⟨Bool.false_ne_true, Outcome.bind_eq_ok.mpr
    ⟨_, Outcome.mapReason_eq_ok.mpr hg, rfl⟩⟩

/-- The arc of a jog goes on. Its second segment is offered although the jog has been cancelled by then, and
is accepted. -/
theorem cancelled_arc_goes_on : ∃ c : Controller ℝ,
    ofMachine (KinematicsCatalog.builtin.register "bent" (Plugins.constructor "bent")) exactBentMachine = .ok c ∧
    (MotionCommand.arc (.jog ⟨[0, 1]⟩ 60) halfTurn).move.isJog = true ∧
    let run := c.perform (SegmentQueue.plannerCancellingAt 1).logged ({ capacity := 4 }, [])
      (.arc (.jog ⟨[0, 1]⟩ 60) halfTurn)
    run.result = .ok 2 ∧ run.planner.2.map cancels = [1, 0] ∧ ¬ StopsAtCancel run.planner.2 := by
  have hv : exactBentMachine.motion.validate = .ok () := by
    refine MotionSettings.validate_eq_ok.mpr ⟨?_, ?_, by decide⟩
    · norm_num [exactBentMachine, Scalar.isPositive]
    · norm_num [exactBentMachine, Scalar.isPositive]
  have hp : Subdivision.bentModel.forward Subdivision.bentModel.initPosition Subdivision.bentModel.axisCount =
      .ok ⟨[0.0 - 1 * 0.0 * 0.0, 0.0]⟩ := by
    change AxisPosition.new [(0.0 : ℝ) - 1 * 0.0 * 0.0, 0.0] = _
    rw [AxisPosition.new_real]
  obtain ⟨c, hc, hmodel, hs, ht, hm⟩ : ∃ c, ofMachine (KinematicsCatalog.builtin.register "bent"
      (Plugins.constructor "bent")) exactBentMachine = .ok c ∧ c.model = Subdivision.bentModel ∧
      c.subdivision = ⟨1 / 10, 1⟩ ∧ c.arcTolerance = 1 ∧ c.motors = ⟨[0, 0]⟩ := by
    refine ⟨_, ofMachine_real create_exactBentMachine hv ⟨_, hp⟩, rfl, ?_, rfl, ?_⟩
    · change (⟨0.1, 1⟩ : Subdivision ℝ) = ⟨1 / 10, 1⟩
      norm_num
    · change (⟨[0.0, 0.0]⟩ : MotorPosition ℝ) = ⟨[0, 0]⟩
      rw [Scalar.zero_real]
  refine ⟨c, hc, rfl, ?_⟩
  have hseg := arcSegments_halfTurn hmodel hs ht hm 60
  rw [perform, arcTo, hseg]
  have hcancels : (offer (SegmentQueue.plannerCancellingAt 1).logged (.jog ⟨[0, 1]⟩ 60) none 0
      (Subdivision.withFeed 60 (Subdivision.bentAt 0) [Subdivision.bentAt (1 / 2), Subdivision.bentAt 1]) c
      ({ capacity := 4 }, [])).planner.2.map cancels = [1, 0] := rfl
  refine ⟨rfl, hcancels, ?_⟩
  intro h
  obtain ⟨first, rest, hlog, hfirst, hrest⟩ := List.map_eq_cons_iff.mp hcancels
  rw [hlog] at h
  have he := (stopsAtCancel_cons.mp h).1 (by rw [hfirst]; decide)
  rw [he] at hrest
  cases hrest

end Controller

end MotionControl
