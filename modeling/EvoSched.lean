import EvoSched.Main
import EvoSched.Proofs.Run.Coherence
import EvoSched.Proofs.Run.Optimality
import EvoSched.Proofs.Run.Safety
import EvoSched.Proofs.Scalar.Monotone
import EvoSched.Proofs.Run.Merging
import EvoSched.Proofs.Run.History
import EvoSched.Proofs.Search.Size
import EvoSched.Proofs.Search.Elites
import EvoSched.Session
import EvoSched.Proofs.Run.Sizes
import EvoSched.Proofs.Run.Account
import EvoSched.Proofs.Search.Reporting
import EvoSched.Proofs.Run.Reporting
import EvoSched.Proofs.Run.Budget
import EvoSched.Proofs.Schedule.Rejection
import EvoSched.Proofs.Session
import EvoSched.Proofs.Schedule.Exports
import EvoSched.Proofs.Search.Replacement
import EvoSched.Proofs.Search.Breeding
import EvoSched.Proofs.Cost.Buckets
import EvoSched.Proofs.Search.Workers
import EvoSched.Proofs.Search.Partner
import EvoSched.Proofs.Search.Segment
import EvoSched.Proofs.Search.Journal
import EvoSched.Proofs.Truncation
import EvoSched.Proofs.Decimal.Reprinting
import EvoSched.Proofs.Problem.Formats
import EvoSched.Proofs.Problem.Malformed
import EvoSched.Proofs.Settings.Acceptance
import EvoSched.Proofs.Cost.Dominance
import EvoSched.Proofs.Schedule.Replay
import EvoSched.Proofs.Configuration
import EvoSched.Proofs.Run.Rejection
import EvoSched.Proofs.Search.Mask
import EvoSched.Proofs.Cost.Relabelling
import EvoSched.Proofs.Problem.Drawn
