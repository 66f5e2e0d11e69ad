import MotionControl.Arc
import MotionControl.Axes.AxisMask
import MotionControl.Axes.Layout
import MotionControl.Axes.MotorMask
import MotionControl.Controller
import MotionControl.Decimal.Binary
import MotionControl.Decimal.Rounding
import MotionControl.Decimal.Shortest
import MotionControl.Document
import MotionControl.Error
import MotionControl.Homing.Command
import MotionControl.Homing.Cycle
import MotionControl.Homing.Groups
import MotionControl.Homing.Safety
import MotionControl.Homing.Sequence
import MotionControl.Homing.Status
import MotionControl.JogTicket
import MotionControl.Json.Number
import MotionControl.Json.Parser
import MotionControl.Json.Printer
import MotionControl.Kinematics.Cartesian
import MotionControl.Kinematics.Catalog
import MotionControl.Kinematics.CoreXY
import MotionControl.Kinematics.LimitOutcome
import MotionControl.Kinematics.Model
import MotionControl.Kinematics.Plugins
import MotionControl.Kinematics.RotaryDelta
import MotionControl.Kinematics.SoftLimits
import MotionControl.Machine.Decoding
import MotionControl.Machine.Description
import MotionControl.Machine.Encoding
import MotionControl.Machine.File
import MotionControl.Machine.Format
import MotionControl.Machine.Path
import MotionControl.Machine.StandardCodecs
import MotionControl.Machine.TextCodec
import MotionControl.Machine.Validation
import MotionControl.Move
import MotionControl.NameTable
import MotionControl.Position
import MotionControl.Quoted
import MotionControl.Scalar
import MotionControl.Scalar.Binary64
import MotionControl.SegmentQueue
import MotionControl.Simulation
import MotionControl.Subdivision
import MotionControl.Toml.Literal
import MotionControl.Toml.Parser
import MotionControl.Toml.Printer
import MotionControl.Toml.Table
import MotionControl.Visible
import MotionControl.Whitespace
import MotionControl.Proofs.Arcs.Chords
import MotionControl.Proofs.Arcs.Points
import MotionControl.Proofs.Arcs.Turning
import MotionControl.Proofs.Axes.Masks
import MotionControl.Proofs.Controller.ArcAnswers
import MotionControl.Proofs.Controller.ChannelCounts
import MotionControl.Proofs.Controller.Creation
import MotionControl.Proofs.Controller.Feasible
import MotionControl.Proofs.Controller.HomedPoses
import MotionControl.Proofs.Controller.HomingSteps
import MotionControl.Proofs.Controller.JogCancels
import MotionControl.Proofs.Controller.Offers
import MotionControl.Proofs.Controller.Reachable
import MotionControl.Proofs.Controller.RestPositions
import MotionControl.Proofs.Controller.SurplusAxes
import MotionControl.Proofs.Controller.TrackedMotors
import MotionControl.Proofs.Decimal.Doubles
import MotionControl.Proofs.Decimal.NearestDouble
import MotionControl.Proofs.Decimal.ShortestInterval
import MotionControl.Proofs.Decimal.Spelling
import MotionControl.Proofs.Guards
import MotionControl.Proofs.Homing.Calls
import MotionControl.Proofs.Homing.CommandGroups
import MotionControl.Proofs.Homing.CommandTexts
import MotionControl.Proofs.Homing.ConfirmedAxes
import MotionControl.Proofs.Homing.Consistency
import MotionControl.Proofs.Homing.FullRuns
import MotionControl.Proofs.Homing.Polls
import MotionControl.Proofs.Homing.SeekChannels
import MotionControl.Proofs.Homing.StartConditions
import MotionControl.Proofs.Homing.SwitchCycles
import MotionControl.Proofs.Json.Layouts
import MotionControl.Proofs.Json.Numbers
import MotionControl.Proofs.Json.Strings
import MotionControl.Proofs.Kinematics.DeltaElbows
import MotionControl.Proofs.Kinematics.DeltaJogs
import MotionControl.Proofs.Kinematics.DeltaLevelPose
import MotionControl.Proofs.Kinematics.DeltaReach
import MotionControl.Proofs.Kinematics.DeltaRoundTrip
import MotionControl.Proofs.Kinematics.DeltaSpheres
import MotionControl.Proofs.Kinematics.DeltaTips
import MotionControl.Proofs.Kinematics.DeltaUncrossedTips
import MotionControl.Proofs.Kinematics.JogClips
import MotionControl.Proofs.Kinematics.JogCuts
import MotionControl.Proofs.Kinematics.LimitReports
import MotionControl.Proofs.Kinematics.LinearTransforms
import MotionControl.Proofs.Kinematics.ReportBatches
import MotionControl.Proofs.Kinematics.ValueCounts
import MotionControl.Proofs.Kinematics.Workspaces
import MotionControl.Proofs.Machine.Codecs
import MotionControl.Proofs.Machine.Documents
import MotionControl.Proofs.Machine.Files
import MotionControl.Proofs.Machine.Models
import MotionControl.Proofs.Outcomes
import MotionControl.Proofs.Planner.QueueHistories
import MotionControl.Proofs.Position.Distances
import MotionControl.Proofs.Position.Lines
import MotionControl.Proofs.Position.NearestPoints
import MotionControl.Proofs.Scalar.Doubles
import MotionControl.Proofs.Scalar.Ordered
import MotionControl.Proofs.Scalar.Real
import MotionControl.Proofs.Scalar.Zeros
import MotionControl.Proofs.Simulation.Backlog
import MotionControl.Proofs.Simulation.CycleEnds
import MotionControl.Proofs.Simulation.ReportedAxes
import MotionControl.Proofs.Simulation.SwitchTrips
import MotionControl.Proofs.Subdivision.ComparedPoses
import MotionControl.Proofs.Subdivision.FeedRates
import MotionControl.Proofs.Subdivision.LineFollowing
import MotionControl.Proofs.Subdivision.LinearLines
import MotionControl.Proofs.Subdivision.Waypoints
import MotionControl.Proofs.Toml.Lines
import MotionControl.Proofs.Toml.Numbers
import MotionControl.Proofs.Toml.Strings
import MotionControl.Proofs.Toml.Tables
