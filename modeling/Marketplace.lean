import Marketplace.Auth.Logout
import Marketplace.Checkout.Conservation
import Marketplace.Cache.RedisLock
import Marketplace.Checkout.Deadlock
import Marketplace.Orders.CreateIdempotentOnce
import Marketplace.Outbox.RelayOnce
import Marketplace.Ratelimit.SlidingWindowExact
import Marketplace.Ratelimit.RetryAfter
import Marketplace.Lib.NumberedLog
import Marketplace.Orders.OrderEvents
import Marketplace.Orders.StreamEvents
import Marketplace.Orders.PlacingAgrees
import Marketplace.Orders.UpdateStatus
import Marketplace.Common.NextCursor
import Marketplace.Lib.Base64
import Marketplace.Lib.Utf8
import Marketplace.Lib.Json
import Marketplace.Orders.OrdersGateway
import Marketplace.Shop.Lookups
import Marketplace.Shop.Currency
import Marketplace.Cards.CardFaults
import Marketplace.Cards.Staleness
import Marketplace.Cards.FlightEnds
import Marketplace.Shop.CardNumbers
import Marketplace.Auth.RevokeDeadlock
import Marketplace.Auth.KeyRotation
import Marketplace.Messaging.PublisherReports
import Marketplace.Messaging.ConsumerOnce
import Marketplace.Outbox.PipelineSafe
import Marketplace.Outbox.RelayProgress
import Marketplace.Messaging.HandleMessage
import Marketplace.Auth.AccessDenylist
import Marketplace.Auth.RefreshFaults
import Marketplace.Shop.Replays
import Marketplace.Shop.Program
import Marketplace.Shop.AllOrNothing
import Marketplace.Messaging.RunConsumer
import Marketplace.Config.GenJwtKeys
import Marketplace.Auth.KeyFiles
import Marketplace.Sessions.SessionHistories
import Marketplace.Sessions.SessionMiddleware
import Marketplace.Orders.Restarts
import Marketplace.Messaging.PublisherConnections
import Marketplace.Orders.RequestHash
import Marketplace.Messaging.OrderPlacedWire
import Marketplace.Auth.LoginThrottle
import Marketplace.Auth.LoginBound
import Marketplace.Auth.LoginEnumeration
import Marketplace.Http.Guards
import Marketplace.Http.Mediation
import Marketplace.Auth.DeniedTokens
import Marketplace.Orders.GatewaySockets
import Marketplace.Orders.GatewayPushes
import Marketplace.Orders.GatewayJoins
import Marketplace.Orders.GatewayAccess
import Marketplace.Lib.Session
import Marketplace.Messaging.PgStore
import Marketplace.Messaging.PgTransactions
import Marketplace.Messaging.PgPrograms
import Marketplace.Lib.Broker
import Marketplace.Messaging.Topology
import Marketplace.Lib.EventStream
import Marketplace.Orders.StreamWire
