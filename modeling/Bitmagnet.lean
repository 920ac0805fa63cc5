import Bitmagnet.Dht.TransactionSafety
import Bitmagnet.Dht.KTableReverse
import Bitmagnet.Dht.KTableGenerations
import Bitmagnet.Parquet.MaintenanceSafety
import Bitmagnet.Parquet.LayeredView
import Bitmagnet.Queue.Lifecycle
import Bitmagnet.Queue.BatchEnumeration
import Bitmagnet.Dht.RoundTrip
import Bitmagnet.Metainfo.Layout
import Bitmagnet.Model.Blob
import Bitmagnet.Crawler.PeerWireAssembly
import Bitmagnet.Processor.Accounting
import Bitmagnet.Blocking.Retention
import Bitmagnet.SearchQuery.InlineStatement
import Bitmagnet.SearchQuery.NaturalOrder
import Bitmagnet.SearchServe.Chunking
import Bitmagnet.SearchServe.Pagination
import Bitmagnet.PathSearch.Recall
import Bitmagnet.SearchIndex.Convergence
import Bitmagnet.Torznab.WellFormed
import Bitmagnet.Fts.TsvectorBudget
import Bitmagnet.Fts.QueryMeaning
import Bitmagnet.Fts.QueryCost
import Bitmagnet.Dht.RoutingOrder
import Bitmagnet.FileSearch.ConnectionPool
import Bitmagnet.Dht.RateLimitCache
import Bitmagnet.Tmdb.Limiter
import Bitmagnet.Processor.Hints
import Bitmagnet.TextMatch.BestMatch
import Bitmagnet.Concurrency.BatchingChannel
import Bitmagnet.Bloom.Filter
