import RobotConsole.Main
import RobotConsole.Measure.Coverage
import RobotConsole.Measure.Round
import RobotConsole.Measure.TimeShare
import RobotConsole.Measure.Workload
import RobotConsole.Proofs.Effects
import RobotConsole.Proofs.Command.Kinds
import RobotConsole.Proofs.Command.Grammar
import RobotConsole.Proofs.Command.Rendering
import RobotConsole.Proofs.Robot.Limits
import RobotConsole.Proofs.Robot.Walk
import RobotConsole.Proofs.Robot.Growth
import RobotConsole.Proofs.Robot.Quiet
import RobotConsole.Proofs.Robot.Motors
import RobotConsole.Proofs.Robot.Reliable
import RobotConsole.Proofs.Robot.Governing
import RobotConsole.Proofs.Robot.Interleaving
import RobotConsole.Proofs.Console.Reading
import RobotConsole.Proofs.Console.Release
import RobotConsole.Proofs.Console.Values
import RobotConsole.Proofs.Console.Acceptance
import RobotConsole.Proofs.Console.Disconnected
import RobotConsole.Proofs.Console.Custody
import RobotConsole.Proofs.Console.Leaks
import RobotConsole.Proofs.Console.Agreement
import RobotConsole.Proofs.Console.Tasks
import RobotConsole.Proofs.Console.Envelope
import RobotConsole.Proofs.Script.Overlong
import RobotConsole.Proofs.Script.Scope
import RobotConsole.Proofs.Script.Written
import RobotConsole.Proofs.Script.BlockTree
import RobotConsole.Proofs.Script.Refinement
import RobotConsole.Proofs.Script.Course
import RobotConsole.Proofs.Script.Parallel
import RobotConsole.Proofs.Script.Likeness
import RobotConsole.Proofs.Script.Splice
import RobotConsole.Proofs.Script.Inclusion
import RobotConsole.Proofs.Script.Provenance
import RobotConsole.Proofs.Script.Conditions
import RobotConsole.Proofs.Script.Trouble
import RobotConsole.Proofs.Script.Stopping
import RobotConsole.Proofs.Console.Success
import RobotConsole.Proofs.Robot.Library
import RobotConsole.Proofs.Console.Listings
import RobotConsole.Proofs.Robot.Durations
import RobotConsole.Proofs.Robot.Calls
import RobotConsole.Proofs.Console.CliffFlag
import RobotConsole.Proofs.Measure.Separation
import RobotConsole.Proofs.Console.Retries
import RobotConsole.Proofs.Script.Arguments
import RobotConsole.Proofs.Script.Adjacency
import RobotConsole.Proofs.Arithmetic.Scanning
import RobotConsole.Proofs.Arithmetic.Formula
import RobotConsole.Proofs.Script.Assignment
import RobotConsole.Proofs.Script.Substitution
import RobotConsole.Proofs.Script.Quotation
import RobotConsole.Proofs.Script.TextOrder
import RobotConsole.Proofs.Script.Relocation
import RobotConsole.Proofs.Console.Wording
import RobotConsole.Proofs.Storage.Tree
import RobotConsole.Proofs.Robot.SoundSource
import RobotConsole.Proofs.Measure.Rearrangement
import RobotConsole.Proofs.Script.Loading
import RobotConsole.Proofs.Script.Output
import RobotConsole.Proofs.Script.Nesting
import RobotConsole.Proofs.Command.Signed
import RobotConsole.Proofs.Script.Comment
import RobotConsole.Proofs.Script.Probe
import RobotConsole.Proofs.Script.TrailingComment
import RobotConsole.Proofs.Script.Wordwise
import RobotConsole.Proofs.Measure.Convergence
