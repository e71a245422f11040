import BeauClick.Payment.RefundCeiling
import BeauClick.Payment.Answers
import BeauClick.Events.RefundProjection
import BeauClick.Search.Projection
import BeauClick.Search.Ratings
import BeauClick.Search.IndexRun
import BeauClick.Search.Rebuild
import BeauClick.Financial.Regimes
import BeauClick.Checkout.Callback
import BeauClick.Outcome.Stranding
import BeauClick.Outcome.Exclusion
import BeauClick.Scheduling.Assignments
import BeauClick.Scheduling.Recorded
import BeauClick.Scheduling.Idempotency
import BeauClick.Scheduling.Claimable
import BeauClick.Scheduling.HoldCap
import BeauClick.Credits.Conservation
import BeauClick.Enforcement.Activation
import BeauClick.Confirmation.Spending
import BeauClick.Identity.Lockout
import BeauClick.Subscriptions.OneActive
import BeauClick.Referral.Reversal
import BeauClick.Rbac.Escalation
import BeauClick.Loyalty.Granted
import BeauClick.Loyalty.Basis
import BeauClick.Waitlist.Forgotten
import BeauClick.Provider.Newest
import BeauClick.Media.Published
import BeauClick.CommercialPolicy.VersionAllocation
import BeauClick.CommercialPolicy.CatalogueFuture
import BeauClick.Chat.Binding
import BeauClick.Chat.Retention
import BeauClick.Workspace.Reference
import BeauClick.Chat.SendBudget
import BeauClick.Journey.Timeline
import BeauClick.Notification.Dispatch
import BeauClick.Chat.Unread
import BeauClick.Loyalty.Convergence
import BeauClick.Media.Access
import BeauClick.Referral.Claims
import BeauClick.Wishlist.Saving
import BeauClick.Identity.Rotation
import BeauClick.Financial.Balances
import BeauClick.Financial.LegacyReversal
import BeauClick.Analytics.Series
import BeauClick.Outcome.Terms
import BeauClick.Search.Rescoring
import BeauClick.CommercialPolicy.Retention
import BeauClick.CommercialPolicy.Commission
import BeauClick.Booking.Facts
import BeauClick.Lib.Pages
import BeauClick.Search.Degraded
import BeauClick.Money.Exact
import BeauClick.Identity.Replay
import BeauClick.Loyalty.Activation
import BeauClick.Observability.Metrics
import BeauClick.Commerce.OrderEvents
import BeauClick.Privacy.Coverage
import BeauClick.Media.Presigned
import BeauClick.Wishlist.Paging
import BeauClick.Identity.Phone
