import PodBudget.Monitor.Loop
import PodBudget.Node.Scripted
import PodBudget.Node.ControlFiles
import PodBudget.Activity
import PodBudget.Discovery.Message
import PodBudget.Discovery.Scanner
import PodBudget.Discovery.Rounds
import PodBudget.Api.Ledger
import PodBudget.Api.Server
import PodBudget.Main
import PodBudget.Proofs.Dealing
import PodBudget.Proofs.Roster
import PodBudget.Proofs.PodRecord
import PodBudget.Proofs.PodAccount
import PodBudget.Proofs.Monitor.Stages
import PodBudget.Proofs.Monitor.Moves
import PodBudget.Proofs.Monitor.Admission
import PodBudget.Proofs.Monitor.Run
import PodBudget.Proofs.Monitor.Charge
import PodBudget.Proofs.Monitor.Ledger
import PodBudget.Proofs.Monitor.History
import PodBudget.Proofs.Monitor.Billing
import PodBudget.Proofs.Linear.Solutions
import PodBudget.Proofs.Joint.Rows
import PodBudget.Proofs.Joint.Objective
import PodBudget.Proofs.Joint.Kkt
import PodBudget.Proofs.Joint.Pass
import PodBudget.Proofs.Joint.Drift
import PodBudget.Proofs.Joint.Optimum
import PodBudget.Proofs.Joint.Independence
import PodBudget.Proofs.Joint.Symmetry
import PodBudget.Proofs.Plan.Optimum
import PodBudget.Proofs.Plan.Floor
import PodBudget.Proofs.Joint.Agreement
import PodBudget.Proofs.Plan.Conservation
import PodBudget.Proofs.PodActs
import PodBudget.Proofs.Monitor.Reports
import PodBudget.Proofs.Monitor.Deeds
import PodBudget.Proofs.Monitor.Acts
import PodBudget.Proofs.Monitor.Starts
import PodBudget.Proofs.Monitor.Order
import PodBudget.Proofs.Monitor.Kept
import PodBudget.Proofs.Monitor.Discipline
import PodBudget.Proofs.Monitor.Sweep
import PodBudget.Proofs.Monitor.Chronicle
import PodBudget.Proofs.Monitor.Ceilings
import PodBudget.Proofs.Monitor.InForce
import PodBudget.Proofs.Lockstep
import PodBudget.Proofs.PodBare
import PodBudget.Proofs.Monitor.Shadow
import PodBudget.Proofs.Monitor.Watching
import PodBudget.Proofs.Joint.Passes
import PodBudget.Proofs.Monitor.Inheritance
import PodBudget.Proofs.Discovery.Presence
import PodBudget.Proofs.Discovery.Readmission
import PodBudget.Proofs.Discovery.RoundTrip
import PodBudget.Proofs.Json.Records
import PodBudget.Proofs.Monitor.Judgement
import PodBudget.Proofs.Monitor.Verdict
import PodBudget.Proofs.Loop.Courses
import PodBudget.Proofs.Loop.Refinement
import PodBudget.Proofs.Monitor.Visits
import PodBudget.Proofs.Monitor.Isolation
import PodBudget.Proofs.Monitor.Recurrence
import PodBudget.Proofs.LimitCalls
import PodBudget.Proofs.PodReadings
import PodBudget.Proofs.Discovery.Namesakes
import PodBudget.Proofs.Json.Overrides
import PodBudget.Proofs.Tokens
import PodBudget.Proofs.Measurement
import PodBudget.Proofs.Plan.Monotone
import PodBudget.Proofs.Guarded
import PodBudget.Proofs.Plan.Weights
import PodBudget.Proofs.Health
import PodBudget.Proofs.Gauges
import PodBudget.Proofs.Monitor.Totals
import PodBudget.Proofs.Node.ControlFiles
import PodBudget.Proofs.Decimal.Integer
import PodBudget.Proofs.Text.Blank
import PodBudget.Proofs.Node.ControlText
import PodBudget.Proofs.Node.Template
import PodBudget.Proofs.Joint.Assembly
