import Rerun.Main
import Rerun.Proofs.Program.Closure
import Rerun.Proofs.Program.Leads
import Rerun.Proofs.Program.ReplayPrefix
import Rerun.Proofs.Sandbox.Safe
import Rerun.Proofs.Session.Routes
import Rerun.Proofs.Sandbox.Changes
import Rerun.Proofs.Sandbox.Passes
import Rerun.Proofs.Sandbox.Requests
import Rerun.Proofs.Sandbox.Processes
import Rerun.Proofs.Sandbox.Sessions
import Rerun.Proofs.Sandbox.Teardown
import Rerun.Proofs.Sandbox.Executions
import Rerun.Proofs.Sandbox.Runs
import Rerun.Proofs.Sandbox.Clients
import Rerun.Proofs.Sandbox.Reach
import Rerun.Proofs.Session.Containment
import Rerun.Proofs.Session.Successor
import Rerun.Proofs.Sandbox.Startup
import Rerun.Proofs.Sandbox.Sweeps
import Rerun.Proofs.Sandbox.Acquire
import Rerun.Proofs.Sandbox.Exchange
import Rerun.Proofs.Sandbox.Answers
import Rerun.Proofs.Session.Submission
import Rerun.Proofs.Sandbox.Attempts
import Rerun.Proofs.Sandbox.Drifts
import Rerun.Proofs.Sandbox.Launches
import Rerun.Proofs.Sandbox.Scenes
import Rerun.Proofs.Sandbox.Steps
import Rerun.Proofs.Session.Ownership
import Rerun.Proofs.Session.Occupancy
import Rerun.Proofs.Session.Seeding
import Rerun.Proofs.Sandbox.Conduct
import Rerun.Proofs.Sandbox.Frames
import Rerun.Proofs.Sandbox.Flights
import Rerun.Proofs.Session.Retry
import Rerun.Proofs.Remote.Input
import Rerun.Proofs.Remote.Polling
import Rerun.Proofs.Remote.Reports
import Rerun.Proofs.Challenge.Course
import Rerun.Proofs.Grading.Batch
import Rerun.Proofs.Session.Recovery
import Rerun.Proofs.Grading.Resumed
import Rerun.Proofs.Session.Terminal
import Rerun.Proofs.Sandbox.Turns
import Rerun.Proofs.Session.Handouts
import Rerun.Proofs.Remote.Escapes
import Rerun.Proofs.Session.Forgetting
import Rerun.Proofs.Sandbox.Guards
import Rerun.Proofs.Sandbox.Logs
import Rerun.Proofs.Session.Chronicle
import Rerun.Proofs.Session.Journals
import Rerun.Proofs.Program.Scaffold
import Rerun.Proofs.Sandbox.Mirrors
import Rerun.Proofs.Session.Transparency
import Rerun.Proofs.Challenge.Transparency
import Rerun.Proofs.Remote.Displaced
import Rerun.Proofs.Feed.Calls
import Rerun.Proofs.Feed.Stream
import Rerun.Proofs.Feed.Extension
import Rerun.Proofs.Feed.Queue
import Rerun.Proofs.Program.Fate
import Rerun.Proofs.Sandbox.Outcomes
import Rerun.Proofs.Challenge.Returns
import Rerun.Proofs.Session.Obtaining
import Rerun.Proofs.Session.Forgone
import Rerun.Proofs.Sandbox.Withdrawals
import Rerun.Proofs.Sandbox.Cancelled
import Rerun.Proofs.Session.Overtaken
import Rerun.Proofs.Session.Vacancy
import Rerun.Proofs.Session.Bystanders
import Rerun.Proofs.Session.Abandonment
import Rerun.Proofs.Program.Echo
import Rerun.Proofs.Value.Normal
import Rerun.Proofs.Remote.Reduction
import Rerun.Proofs.Sandbox.Hearings
import Rerun.Proofs.Session.Wordings
import Rerun.Proofs.Challenge.Complaints
import Rerun.Proofs.Grading.Checkers
import Rerun.Proofs.Grading.Inputs
import Rerun.Proofs.Settings.Blank
