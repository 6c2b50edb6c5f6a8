import NewApi.Proof.Race
import NewApi.Proof.Polling
import NewApi.Proof.ModelLimit
import NewApi.Proof.Response
import NewApi.Proof.CacheSync
import NewApi.Proof.KeyPolling
import NewApi.Proof.QuotaReserve
import NewApi.Proof.BatchUpdate
import NewApi.Proof.WalletCeiling
import NewApi.Proof.SubscriptionRefund
import NewApi.Proof.SubscriptionReset
import NewApi.Proof.SubscriptionModels
import NewApi.Proof.UpgradeGroup
import NewApi.Proof.PreConsumeRace
import NewApi.Proof.SubscriptionOrder
import NewApi.Proof.RedeemRace
import NewApi.Proof.Byog
import NewApi.Proof.UserAuthCache
import NewApi.Proof.SessionCache
import NewApi.Proof.Midjourney
import NewApi.Proof.SystemTaskLease
import NewApi.Proof.AuthFlow
import NewApi.Proof.ByogHub
import NewApi.Proof.RateLimit
import NewApi.Proof.StreamScanner
import NewApi.Proof.HeaderOverride
import NewApi.Proof.SameSelection
import NewApi.Proof.RoundRobin
import NewApi.Proof.PollMaps
import NewApi.Proof.Price
import NewApi.Proof.DisableChannel
import NewApi.Proof.ModelMapped
import NewApi.Proof.MoveValue
import NewApi.Proof.ChatGemini
import NewApi.Proof.TextBilling
import NewApi.Proof.ResponsesRequest
import NewApi.Proof.ClaudeRequest
import NewApi.Proof.ResponsesAnswer
import NewApi.Proof.ChatResponses
import NewApi.Proof.ChannelAffinity
import NewApi.Proof.Uptime
import NewApi.Proof.ByogWorker
import NewApi.Proof.RtfLink
import NewApi.Proof.TwoFA
