import Mpool.Lib.Bytes
import Mpool.Lib.Decimal
import Mpool.Lib.Except
import Mpool.Lib.Locking
import Mpool.Lib.Runs
import Mpool.Lib.Primality
import Mpool.Lib.TaggedUnion
import Mpool.Lib.Memory
import Mpool.Lib.SlotLedger
import Mpool.Lib.Calls
import Mpool.Lib.Cursor
import Mpool.Lib.MixedRadix
import Mpool.Common.Util
import Mpool.Common.Timer
import Mpool.Common.StringFormat
import Mpool.Common.Tokenize
import Mpool.Common.StringConvert
import Mpool.Common.DecimalText
import Mpool.Common.NumberBases
import Mpool.Common.TimeString
import Mpool.Common.TimeReading
import Mpool.Common.BigNumber
import Mpool.Common.HexDecode
import Mpool.Common.SRP6
import Mpool.Common.CryptoHash
import Mpool.Common.Agreement
import Mpool.Common.SharedSecret
import Mpool.Common.Interleave
import Mpool.Common.PCQueue
import Mpool.Common.QueueHistory
import Mpool.Common.AsyncCallbackProcessor
import Mpool.Common.Config
import Mpool.Common.ConfigMerge
import Mpool.Lib.Layers
import Mpool.Common.ConfigModules
import Mpool.Common.ConfigHistory
import Mpool.Common.ConfigQuotes
import Mpool.Logon.Types
import Mpool.Logon.Connection
import Mpool.Logon.Reading
import Mpool.Logon.Session
import Mpool.Logon.AsyncIO
import Mpool.Logon.Segmentation
import Mpool.Logon.Response
import Mpool.Logon.Received
import Mpool.Logon.Authentication
import Mpool.Logon.Challenge
import Mpool.Logon.Version
import Mpool.Logon.Parameters
import Mpool.Logon.Login
import Mpool.Lib.Components
import Mpool.Logon.Server
import Mpool.Logon.Process
import Mpool.Database.MySQLConnectionInfo
import Mpool.Database.MySQLConnection
import Mpool.Database.TransactionTask
import Mpool.Database.Transaction
import Mpool.Database.Retries
import Mpool.Database.Submissions
import Mpool.Database.Atomicity
import Mpool.Database.AtMostOnce
import Mpool.Database.Handle
import Mpool.Database.DatabaseWorkerPool
import Mpool.Database.Operations
import Mpool.Database.Delivery
import Mpool.Database.QueryHolder
import Mpool.Lib.OwnedBlocks
import Mpool.Database.StatementOwners
import Mpool.Database.Serving
import Mpool.Database.DatabaseLoader
import Mpool.Database.Loading
import Mpool.Database.QueryResult
import Mpool.Database.ResultMemory
import Mpool.Database.ResultCursor
import Mpool.Database.FieldAccess
import Mpool.Database.FieldTypes
import Mpool.Database.IntegerColumns
import Mpool.Database.AdhocPrepare
import Mpool.Database.ConfiguredPools
import Mpool.Database.RowBuffer
import Mpool.Database.CellBytes
import Mpool.Database.TransactionElements
import Mpool.Database.ServerVersion
import Mpool.Database.ConnectionString
import Mpool.Database.BindParameters
import Mpool.Database.StatementTable
import Mpool.Database.StoredRows
import Mpool.Database.StoredText
import Mpool.Database.QueryString
import Mpool.Database.QueryCallback
import Mpool.Database.CallbackChain
import Mpool.Database.Clients
import Mpool.Database.Locks
import Mpool.Database.Exclusion
import Mpool.Database.PoolViews
