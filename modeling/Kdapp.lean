import Kdapp.Library.Borsh
import Kdapp.Library.Outcome
import Kdapp.Pki
import Kdapp.Episode
import Kdapp.Engine
import Kdapp.Engine.HandleMessage
import Kdapp.Engine.Run
import Kdapp.Engine.Signatures
import Kdapp.Engine.Undo
import Kdapp.Engine.Converge
import Kdapp.Engine.Journal
import Kdapp.Engine.Bookkeeping
import Kdapp.Generator
import Kdapp.Proxy
import Kdapp.Proxy.Dispatch
import Kdapp.Proxy.Listener
import Kdapp.Library.UndoLog
import Kdapp.Library.WriteThrough
import Kdapp.Library.OwnerIndex
import Kdapp.Merchant
import Kdapp.Merchant.Storage
import Kdapp.Merchant.Receipt
import Kdapp.Merchant.Steps
import Kdapp.Merchant.Book
import Kdapp.Merchant.Payments
import Kdapp.Merchant.Ledger
import Kdapp.Merchant.Rollback
import Kdapp.Merchant.Authority
import Kdapp.Merchant.Persistence
import Kdapp.Merchant.Address
import Kdapp.Library.InOrder
import Kdapp.Merchant.Router
import Kdapp.Merchant.Delivery
import Kdapp.Merchant.Framing
import Kdapp.Merchant.Honesty
import Kdapp.Merchant.OffChain
import Kdapp.Merchant.Scheduler
import Kdapp.Merchant.Checkpoint
import Kdapp.Engine.Isolation
import Kdapp.Merchant.Isolation
import Kdapp.Merchant.Registration
import Kdapp.Library.Saturating
import Kdapp.Lottery
import Kdapp.Lottery.Rollback
import Kdapp.Lottery.Prizes
import Kdapp.Lottery.OffChain
import Kdapp.Lottery.Recovery
import Kdapp.Lottery.Numbering
import Kdapp.Lottery.Confinement
import Kdapp.CommentBoard
import Kdapp.CommentBoard.Steps
import Kdapp.CommentBoard.Rollback
import Kdapp.CommentBoard.Accounting
import Kdapp.CommentBoard.Backing
import Kdapp.CommentBoard.Rules
import Kdapp.CommentBoard.Scripts
import Kdapp.CommentBoard.Descriptors
import Kdapp.CommentBoard.Wallet
import Kdapp.CommentBoard.Wallet.Transactions
import Kdapp.Library.Totals
import Kdapp.CommentBoard.Wallet.Selection
import Kdapp.CommentBoard.Wallet.Steps
import Kdapp.CommentBoard.Wallet.Conservation
import Kdapp.CommentBoard.Wallet.Locks
import Kdapp.CommentBoard.Wallet.Spending
import Kdapp.Engine.Totality
import Kdapp.Library.Turns
import Kdapp.TicTacToe
import Kdapp.TicTacToe.Steps
import Kdapp.TicTacToe.Panics
import Kdapp.TicTacToe.Play
import Kdapp.TicTacToe.Finality
import Kdapp.TicTacToe.Mcp
import Kdapp.TicTacToe.Agreement
import Kdapp.Auth
import Kdapp.CommentIt
import Kdapp.CommentIt.Steps
import Kdapp.CommentIt.Freshness
import Kdapp.CommentIt.Rollback
import Kdapp.KaspaAuth
import Kdapp.KaspaAuth.Steps
import Kdapp.KaspaAuth.Owner
import Kdapp.KaspaAuth.Replay
import Kdapp.KaspaAuth.Rollback
import Kdapp.Merchant.Routing
import Kdapp.Merchant.Schedule
import Kdapp.Library.Reads
import Kdapp.KaspaAuth.Daemon
import Kdapp.Engine.Expiry
import Kdapp.Indexer
import Kdapp.Indexer.Tables
import Kdapp.Indexer.History
import Kdapp.Indexer.Agreement
import Kdapp.Library.Paging
import Kdapp.Indexer.Pages
import Kdapp.CommentIt.BlockchainEngine
import Kdapp.Indexer.Listener
import Kdapp.TicTacToe.Invariant
import Kdapp.TicTacToe.Undo
import Kdapp.CommentIt.Limits
import Kdapp.CommentIt.Room
import Kdapp.Merchant.Canonical
import Kdapp.Lottery.RoundTrip
import Kdapp.CommentBoard.Encoding
import Kdapp.CommentBoard.Wallet.Coins
import Kdapp.Funding
import Kdapp.TicTacToe.Player
import Kdapp.CommentIt.Submission
import Kdapp.TicTacToe.Tools
import Kdapp.Callers
import Kdapp.Comments
import Kdapp.Comments.Steps
import Kdapp.Comments.Window
import Kdapp.Comments.Rollback
import Kdapp.KaspaAuth.RateLimit
import Kdapp.CommentStore
import Kdapp.CommentStore.Attribution
import Kdapp.KaspaAuth.Identities
import Kdapp.CommentIt.Reservations
import Kdapp.UtxoCache
import Kdapp.CommentIt.Handlers
import Kdapp.CommentIt.PendingRequests
import Kdapp.Engine.Observers
import Kdapp.TicTacToe.Server
import Kdapp.CommentStore.Rollback
import Kdapp.Engine.Held
import Kdapp.KaspaAuth.Organizer
import Kdapp.KaspaAuth.SignIn
import Kdapp.Lottery.Tower
import Kdapp.Merchant.Server
import Kdapp.Proxy.Agreement
import Kdapp.CommentBoard.Latecomer
import Kdapp.CommentIt.Rehydration
import Kdapp.CommentIt.Restored
import Kdapp.CommentIt.Status
import Kdapp.Lottery.SeqStore
import Kdapp.Lottery.OffchainSend
