import Agregator.ConcProg
import Agregator.ConcPool
import Agregator.RelTable
import Agregator.SvcErr
import Agregator.PayDomain
import Agregator.PayStore
import Agregator.PayFacts
import Agregator.PayUsecase
import Agregator.PayView
import Agregator.PayRefund
import Agregator.PayDeliver
import Agregator.PayCredit
import Agregator.PayAgree
import Agregator.PayoutStore
import Agregator.PayoutLedger
import Agregator.PayoutUsecase
import Agregator.PayoutSafe
import Agregator.GoBase
import Agregator.BookDomain
import Agregator.BookStore
import Agregator.ConcTrace
import Agregator.BookUsecase
import Agregator.BookFacts
import Agregator.BookStates
import Agregator.PayCancelled
import Agregator.ConcLift
import Agregator.PaidSys
import Agregator.PaidBooking
import Agregator.PaidPayment
import Agregator.PaidRuns
import Agregator.PayCreate
import Agregator.PayClaim
import Agregator.PayCreateFacts
import Agregator.PayCharge
import Agregator.PaySystem
import Agregator.PayWebhooks
import Agregator.BookEvents
import Agregator.BookOutbox
import Agregator.PayOutbox
import Agregator.PayRelay
import Agregator.PayoutAcked
import Agregator.PayoutTx
import Agregator.PayoutCovered
import Agregator.VenueStore
import Agregator.SlotSys
import Agregator.SlotCalls
import Agregator.SlotFacts
import Agregator.SlotLeak
import Agregator.RankSelect
import Agregator.CrmStore
import Agregator.CrmGuests
import Agregator.BookVisits
import Agregator.MasterDomain
import Agregator.MasterStore
import Agregator.MasterUsecase
import Agregator.MasterContract
import Agregator.MasterSaga
import Agregator.ConcMoments
import Agregator.AuthStore
import Agregator.AuthUsecase
import Agregator.AuthSys
import Agregator.AuthOAuth
import Agregator.AuthVouch
import Agregator.ReviewStore
import Agregator.ReviewUsecase
import Agregator.ReviewSys
import Agregator.ReviewRatings
import Agregator.ReviewFollow
import Agregator.ConcSql
import Agregator.UserStore
import Agregator.UserErasure
import Agregator.MasterProfile
import Agregator.MasterModeration
import Agregator.ChatStore
import Agregator.ChatHead
import Agregator.ChatUnread
import Agregator.ChatAccess
import Agregator.ConcLocks
import Agregator.MasterPhotos
import Agregator.MasterCovers
import Agregator.MasterPrices
import Agregator.Base64
import Agregator.Keyset
import Agregator.BookList
import Agregator.BookPages
import Agregator.TwoRuns
import Agregator.BookGateway
import Agregator.BookPrivacy
import Agregator.Gateway
import Agregator.ReviewLists
import Agregator.ReviewAnonymity
import Agregator.ConcPlay
import Agregator.WindowLaw
import Agregator.RateLimit
import Agregator.AuthDeletion
import Agregator.AuthSignup
import Agregator.VenueDerived
import Agregator.VenueGate
import Agregator.VenueMerge
import Agregator.ChatView
import Agregator.BookPrice
import Agregator.AuthPassword
import Agregator.MasterBookings
import Agregator.PayoutTick
import Agregator.PayoutWeekly
import Agregator.AuthRetry
import Agregator.ConcDue
import Agregator.VenueCache
import Agregator.VenueCoherent
import Agregator.PayHold
import Agregator.PayPayload
import Agregator.PayFee
import Agregator.BookCursor
import Agregator.BookMulti
import Agregator.BookHalls
import Agregator.RelJoin
import Agregator.VenueCheck
import Agregator.RelOrder
import Agregator.VenueBatch
import Agregator.BookAtomic
import Agregator.RelPages
import Agregator.RelLike
import Agregator.VenueList
import Agregator.BookHint
import Agregator.SlotOffers
import Agregator.GuestSegments
import Agregator.GoStamp
import Agregator.ReadReceipts
import Agregator.RealIP
import Agregator.UrlOrigin
import Agregator.SafeNext
import Agregator.CookieJar
import Agregator.OauthFlow
import Agregator.GoJson
import Agregator.Jwt
import Agregator.Cities
import Agregator.SearchKey
import Agregator.PhotoConfined
import Agregator.CrmTeam
import Agregator.CrmTasks
import Agregator.CrmTaskRuns
import Agregator.MasterBlocks
import Agregator.WsTickets
import Agregator.ConcOwn
import Agregator.Migrations
import Agregator.MigrateSteps
import Agregator.MigrateCrm
import Agregator.MigrateJob
import Agregator.ChatHub
import Agregator.ChatHubSteps
import Agregator.ChatHubKnows
import Agregator.ChatHubRuns
