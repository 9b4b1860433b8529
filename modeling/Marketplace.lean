import Marketplace.Ledger.Paged
import Marketplace.Wallet.Subsidy
import Marketplace.Wallet.Payout
import Marketplace.Promotions.Ceilings
import Marketplace.Orders.Terminal
import Marketplace.Orders.ManualStock
import Marketplace.Payments.Service
import Marketplace.Scheduler.Jobs
import Marketplace.Gateway.Freeze
import Marketplace.ConfigApproval.FourEyes
import Marketplace.Lines.Footprints
import Marketplace.Resources.Sold
import Marketplace.Affiliate.Payouts
import Marketplace.Adapters.Dispatch
import Marketplace.Sellers.TierLock
import Marketplace.Disputes.Clocks
import Marketplace.Auth.Credentials
import Marketplace.Takedown.LastWord
import Marketplace.Suppliers.PlanMatrix
import Marketplace.Reviews.Rating
import Marketplace.Products.Caps
import Marketplace.Providers.Approved
import Marketplace.Payments.HostedInvoice
import Marketplace.Suppliers.TypedPrices
import Marketplace.Resources.SoldFormat
import Marketplace.Ledger.Closes
import Marketplace.Chat.Desk
import Marketplace.Mail.SentOnce
import Marketplace.Disputes.Warranties
import Marketplace.Adapters.Dproxy
import Marketplace.Adapters.Topproxy
import Marketplace.Adapters.Handover
import Marketplace.Mail.Service
import Marketplace.Mail.Worker
import Marketplace.Inventory.Restock
import Marketplace.Inventory.StockFile
import Marketplace.Resources.Search
import Marketplace.Adapters.TokenKeys
import Marketplace.Resources.Preview
import Marketplace.Python.Float
import Marketplace.Suppliers.StockShown
import Marketplace.Sellers.TierRuns
import Marketplace.ContentFilter.Service
import Marketplace.SellerTelegram.Dispatch
import Marketplace.Bff.RefreshCoalescer
import Marketplace.Suppliers.GatewaySold
import Marketplace.Security.ClientIp
import Marketplace.Bff.SafeRedirect
import Marketplace.Bff.Upstream
import Marketplace.Security.BffSignature
import Marketplace.Chat.Inbox
import Marketplace.Chat.DeskPages
import Marketplace.Python.Base64
import Marketplace.Python.JsonText
import Marketplace.Products.Availability
import Marketplace.Pricing.OnePrice
import Marketplace.PublicApi.Idempotency
import Marketplace.PublicApi.DailyLimit
import Marketplace.OpsTelegram.Collect
import Marketplace.SellerTelegram.Cursor
