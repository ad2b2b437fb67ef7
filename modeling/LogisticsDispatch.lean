import LogisticsDispatch.Lib.Transition
import LogisticsDispatch.Lib.Program
import LogisticsDispatch.Lib.Pool
import LogisticsDispatch.Lib.Table
import LogisticsDispatch.Lib.Stamped
import LogisticsDispatch.Lib.JobQueue
import LogisticsDispatch.Entities
import LogisticsDispatch.OrderRules
import LogisticsDispatch.Database
import LogisticsDispatch.Effects
import LogisticsDispatch.Services
import LogisticsDispatch.Lifecycle
import LogisticsDispatch.System
import LogisticsDispatch.Transactions
import LogisticsDispatch.Contract
import LogisticsDispatch.ProgramSafety
import LogisticsDispatch.Refinement
import LogisticsDispatch.AuditTrail
import LogisticsDispatch.Assignment
import LogisticsDispatch.Attempts
import LogisticsDispatch.Authorisation
import LogisticsDispatch.OfferResolution
import LogisticsDispatch.Bookings
import LogisticsDispatch.Duties
import LogisticsDispatch.LostDispatch
import LogisticsDispatch.OpenOffers
import LogisticsDispatch.Deletion
import LogisticsDispatch.Footprint
import LogisticsDispatch.Suspension
import LogisticsDispatch.Reports
import LogisticsDispatch.StaleTimeouts
import LogisticsDispatch.Tracking
import LogisticsDispatch.Idempotency
import LogisticsDispatch.KeyIsolation
import LogisticsDispatch.Listing
import LogisticsDispatch.Gateway
import LogisticsDispatch.Lib.OneTime
import LogisticsDispatch.RefreshTokens
import LogisticsDispatch.TokenAcceptance
import LogisticsDispatch.OutboxPasses
import LogisticsDispatch.AccountServices
import LogisticsDispatch.Lib.Recall
import LogisticsDispatch.UserColumns
import LogisticsDispatch.Lib.FixedWindow
import LogisticsDispatch.Throttler
import LogisticsDispatch.RateLimit
import LogisticsDispatch.Lib.Alone
import LogisticsDispatch.Publications
import LogisticsDispatch.FailedCalls
import LogisticsDispatch.EtaJobs
import LogisticsDispatch.Lib.Keyset
import LogisticsDispatch.Pagination
import LogisticsDispatch.Lib.RowLocks
import LogisticsDispatch.Statements
import LogisticsDispatch.Sessions
import LogisticsDispatch.NearestDriver
import LogisticsDispatch.Lib.OneAtATime
import LogisticsDispatch.SignIn
import LogisticsDispatch.LoginMethods
import LogisticsDispatch.Lib.Separated
import LogisticsDispatch.ThrottleKey
import LogisticsDispatch.ThrottlerGuard
import LogisticsDispatch.CursorChecks
import LogisticsDispatch.UserListing
import LogisticsDispatch.AcceptPaths
import LogisticsDispatch.OrderViews
import LogisticsDispatch.DriverPositions
import LogisticsDispatch.OutboxOutcomes
import LogisticsDispatch.EmailCalls
import LogisticsDispatch.EmailTokens
import LogisticsDispatch.Attribution
import LogisticsDispatch.HistoryLength
import LogisticsDispatch.OptimisticWrites
import LogisticsDispatch.OrderRecords
import LogisticsDispatch.Endpoints
import LogisticsDispatch.Api
import LogisticsDispatch.Lib.Assume
import LogisticsDispatch.Warrants
import LogisticsDispatch.AccessControl
import LogisticsDispatch.Accountability
import LogisticsDispatch.Passwords
import LogisticsDispatch.Lib.Changes
import LogisticsDispatch.Lib.Ddl
import LogisticsDispatch.Migrations
