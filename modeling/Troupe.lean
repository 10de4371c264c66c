import Troupe.Actor
import Troupe.ActorSystem
import Troupe.Channel
import Troupe.Duration
import Troupe.Error
import Troupe.Json.Basic
import Troupe.Json.Decoder
import Troupe.Json.Printer
import Troupe.Json.Range
import Troupe.Json.Scanner
import Troupe.Json.Skip
import Troupe.Mailbox
import Troupe.Notice
import Troupe.Operation
import Troupe.Pool.Basic
import Troupe.Pool.OwnerIndex
import Troupe.Proofs.Channel.Tales
import Troupe.Proofs.Json.Grammar
import Troupe.Proofs.Json.Leaves
import Troupe.Proofs.Json.Overlays
import Troupe.Proofs.Json.Records
import Troupe.Proofs.Json.Skipping
import Troupe.Proofs.Json.Survival
import Troupe.Proofs.Pool.Attention
import Troupe.Proofs.Pool.Bookkeeping
import Troupe.Proofs.Pool.Conservation
import Troupe.Proofs.Pool.Jobs
import Troupe.Proofs.Pool.Records
import Troupe.Proofs.Pool.Run
import Troupe.Proofs.Pool.Service
import Troupe.Proofs.Pool.Sparing
import Troupe.Proofs.Pool.Stages
import Troupe.Proofs.Pool.Termination
import Troupe.Proofs.Pool.Wakeups
import Troupe.Proofs.Pool.Withdrawal
import Troupe.Proofs.World.Answers
import Troupe.Proofs.World.Attempts
import Troupe.Proofs.World.Backlog
import Troupe.Proofs.World.Bells
import Troupe.Proofs.World.Book
import Troupe.Proofs.World.Bounds
import Troupe.Proofs.World.Bypasses
import Troupe.Proofs.World.Calls
import Troupe.Proofs.World.Charters
import Troupe.Proofs.World.Clearing
import Troupe.Proofs.World.Closes
import Troupe.Proofs.World.Closing
import Troupe.Proofs.World.Closures
import Troupe.Proofs.World.Commission
import Troupe.Proofs.World.Conduct
import Troupe.Proofs.World.Course
import Troupe.Proofs.World.Deadlines
import Troupe.Proofs.World.Delivery
import Troupe.Proofs.World.Dismissals
import Troupe.Proofs.World.Finality
import Troupe.Proofs.World.Growth
import Troupe.Proofs.World.Handles
import Troupe.Proofs.World.Invocations
import Troupe.Proofs.World.Isolation
import Troupe.Proofs.World.Keeping
import Troupe.Proofs.World.LateStart
import Troupe.Proofs.World.LettingGo
import Troupe.Proofs.World.Looks
import Troupe.Proofs.World.Mappings
import Troupe.Proofs.World.Marks
import Troupe.Proofs.World.Members
import Troupe.Proofs.World.Moves
import Troupe.Proofs.World.Names
import Troupe.Proofs.World.Offloads
import Troupe.Proofs.World.OrderedPath
import Troupe.Proofs.World.Outcomes
import Troupe.Proofs.World.Parts
import Troupe.Proofs.World.Phases
import Troupe.Proofs.World.Progress
import Troupe.Proofs.World.Quiet
import Troupe.Proofs.World.Reach
import Troupe.Proofs.World.Refusals
import Troupe.Proofs.World.Registrations
import Troupe.Proofs.World.Relays
import Troupe.Proofs.World.Resolutions
import Troupe.Proofs.World.ResultOrder
import Troupe.Proofs.World.Run
import Troupe.Proofs.World.Scene
import Troupe.Proofs.World.Sending
import Troupe.Proofs.World.Sound
import Troupe.Proofs.World.StaleNames
import Troupe.Proofs.World.Steadiness
import Troupe.Proofs.World.Steps
import Troupe.Proofs.World.Terminations
import Troupe.Proofs.World.Waits
import Troupe.Reply
import Troupe.Session.Basic
import Troupe.Session.Call
import Troupe.Settings
import Troupe.Text.Decimal
import Troupe.Text.Quoted
import Troupe.Text.Spelled
import Troupe.World.Basic
import Troupe.World.Closing
import Troupe.World.Course
import Troupe.World.Jobs
import Troupe.World.Members
import Troupe.World.Moves
import Troupe.World.Sending
import Troupe.World.Settling
import Troupe.World.View
