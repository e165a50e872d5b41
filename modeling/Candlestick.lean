import Candlestick.Batcher.Feed
import Candlestick.Candle.Wire
import Candlestick.Chart
import Candlestick.Cli
import Candlestick.Config
import Candlestick.Deal.Wire
import Candlestick.Event
import Candlestick.Json.Printer
import Candlestick.Json.Reader
import Candlestick.Main
import Candlestick.Metrics
import Candlestick.Pipeline.Run
import Candlestick.Proofs.Batcher.Idle
import Candlestick.Proofs.Calendar.Local
import Candlestick.Proofs.Calendar.Partition
import Candlestick.Proofs.Candle.Trades
import Candlestick.Proofs.Chart
import Candlestick.Proofs.Decimal.Exact
import Candlestick.Proofs.Decimal.Literal
import Candlestick.Proofs.Decimal.Preorder
import Candlestick.Proofs.Pipeline.Accounts
import Candlestick.Proofs.Pipeline.Cancel
import Candlestick.Proofs.Pipeline.Candles
import Candlestick.Proofs.Pipeline.Claims
import Candlestick.Proofs.Pipeline.Folds
import Candlestick.Proofs.Pipeline.Rejected
import Candlestick.Proofs.Pipeline.Rest
import Candlestick.Proofs.Pipeline.Rounds
import Candlestick.Proofs.Pipeline.Setback
import Candlestick.Proofs.Pipeline.Turns
import Candlestick.Proofs.Service
import Candlestick.Proofs.Store.Bucket
import Candlestick.Proofs.Store.Chronicle
import Candlestick.Proofs.Store.Climb
import Candlestick.Proofs.Store.Markets
import Candlestick.Proofs.Store.Refresh
import Candlestick.Proofs.Store.Repeated
import Candlestick.Proofs.Store.Replay
import Candlestick.Proofs.Store.Reseed
import Candlestick.Proofs.Store.Rolls
import Candlestick.Proofs.Store.Shortcut
import Candlestick.Proofs.Store.Valid
import Candlestick.Proofs.Store.Volumes
import Candlestick.Proofs.Window.History
import Candlestick.Proofs.Wire
import Candlestick.Proofs.Zone.Spelling
import Candlestick.Schedule.Reach
import Candlestick.Service
import Candlestick.Store.History
import Candlestick.Store.Shared
import Candlestick.Zone.Posix
