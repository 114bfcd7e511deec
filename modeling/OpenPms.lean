import OpenPms.Lib.Transaction
import OpenPms.Lib.Interleaving
import OpenPms.Lib.Serial
import OpenPms.Lib.KeyedTable
import OpenPms.Basic
import OpenPms.BookingStatus
import OpenPms.AvailabilityLock
import OpenPms.Charges
import OpenPms.BookingService
import OpenPms.RoomService
import OpenPms.ChannexBooking
import OpenPms.Hotel
import OpenPms.Occupancy
import OpenPms.Inventory
import OpenPms.BookingRefinement
import OpenPms.RoomRefinement
import OpenPms.ChannexRefinement
import OpenPms.Runs
import OpenPms.Capacity
import OpenPms.BookingShape
import OpenPms.Release
import OpenPms.ChannexLedger
import OpenPms.Claiming
import OpenPms.BookingTransaction
import OpenPms.DoubleRelease
import OpenPms.Lifecycle
import OpenPms.Integrations
import OpenPms.Deletion
import OpenPms.RefreshTokens
import OpenPms.StripePayments
import OpenPms.StripeFolio
import OpenPms.RefundRace
import OpenPms.Acknowledge
import OpenPms.ExternalIds
import OpenPms.TotalRooms
import OpenPms.Lib.Outbox
import OpenPms.ChannexAri
import OpenPms.AriAgreement
import OpenPms.RatesAdmin
import OpenPms.RemoteRates
import OpenPms.RatesFollow
import OpenPms.StopSell
import OpenPms.ReservationRooms
import OpenPms.AvailabilityViews
import OpenPms.ActiveOwner
import OpenPms.PasswordChange
import OpenPms.FolioPostings
import OpenPms.FolioHistory
import OpenPms.AutomaticPostings
import OpenPms.Storno
import OpenPms.Announcements
import OpenPms.Lib.Sorting
import OpenPms.SessionCap
import OpenPms.TokenKinds
import OpenPms.WebhookSecrets
import OpenPms.ResetLinks
import OpenPms.Lib.WorkQueue
import OpenPms.WebhookDelivery
import OpenPms.LedgerHoles
import OpenPms.Lib.Courier
import OpenPms.PushRaces
import OpenPms.Lib.RequestScope
import OpenPms.Notifications
import OpenPms.Lib.Crash
import OpenPms.MigrationClient
import OpenPms.MigrationPipeline
import OpenPms.MigrationLoss
import OpenPms.MigrationServer
import OpenPms.MigrationFaults
import OpenPms.MigrationRecords
import OpenPms.Lib.Decimal
import OpenPms.Lib.Toposort
import OpenPms.TaxEngine
import OpenPms.TaxLines
import OpenPms.TaxOrder
import OpenPms.TaxChains
import OpenPms.TaxAmounts
import OpenPms.TaxPostings
import OpenPms.TaxReceipts
import OpenPms.TaxRules
import OpenPms.FailedIngest
import OpenPms.MigrationTwins
import OpenPms.MigrationReruns
import OpenPms.MigrationStays
import OpenPms.MigrationStatuses
import OpenPms.TaxBreakdowns
import OpenPms.NightlyPrices
import OpenPms.DateChange
import OpenPms.IngestPushes
import OpenPms.RatesCoverage
import OpenPms.PatchAnnouncements
import OpenPms.PatchErrors
import OpenPms.NightAuditFigures
import OpenPms.IngestAnswers
import OpenPms.PatchParts
import OpenPms.UserRanks
import OpenPms.ChannexRequests
import OpenPms.StripeMinorUnits
import OpenPms.PackEdits
import OpenPms.RoomPickers
import OpenPms.BulkWrites
import OpenPms.ReportFigures
import OpenPms.WebhookTargets
import OpenPms.QueueProgress
import OpenPms.OauthState
import OpenPms.AccessTokens
import OpenPms.MigrationOverlaps
import OpenPms.MigrationEmails
import OpenPms.MigrationChunks
import OpenPms.PrenoAdapter
import OpenPms.RoomTypeLabels
import OpenPms.MigrationPlaceholders
import OpenPms.GuestLookup
import OpenPms.MigrationTally
import OpenPms.LateDeliveries
import OpenPms.LockOrders
import OpenPms.TokenPurge
import OpenPms.BookingTape
import OpenPms.ProvisioningRuns
import OpenPms.ChannexOnboarding
import OpenPms.ChannexConnections
import OpenPms.PackLocks
import OpenPms.SharedAccounts
