import BookingAccess.Main
import BookingAccess.Proofs.Answers.Checks
import BookingAccess.Proofs.Answers.DeletedGroup
import BookingAccess.Proofs.Answers.Membership
import BookingAccess.Proofs.Answers.Object
import BookingAccess.Proofs.Answers.Revival
import BookingAccess.Proofs.Answers.Undone
import BookingAccess.Proofs.Answers.User
import BookingAccess.Proofs.Cache.Groups
import BookingAccess.Proofs.Directory.Naming
import BookingAccess.Proofs.Expression.Compiling
import BookingAccess.Proofs.Grants.Cascade
import BookingAccess.Proofs.Grants.Clearing
import BookingAccess.Proofs.Grants.Detaching
import BookingAccess.Proofs.Grants.Ensuing
import BookingAccess.Proofs.Grants.Isolation
import BookingAccess.Proofs.Grants.Report
import BookingAccess.Proofs.Projection.Presence
import BookingAccess.Proofs.Projection.Standing
import BookingAccess.Proofs.Store.Requests
import BookingAccess.Proofs.Transaction.Balance
import BookingAccess.Service.ObjectAccess
import BookingAccess.Transaction.Granting
import BookingAccess.Transaction.Revoking
import BookingAccess.Proofs.Store.Clearing
import BookingAccess.Proofs.Grants.Lookup
import BookingAccess.Proofs.Cache.Lingering
import BookingAccess.Proofs.Answers.Entry
import BookingAccess.Proofs.Cache.Users
import BookingAccess.Proofs.Grants.Attaching
import BookingAccess.Proofs.Grants.Halfway
import BookingAccess.Proofs.Grants.Refusal
import BookingAccess.Proofs.Answers.Policies
import BookingAccess.Proofs.Expression.Rearranging
import BookingAccess.Proofs.ObjectType.Registry
