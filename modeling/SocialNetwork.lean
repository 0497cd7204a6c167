import SocialNetwork.Foundation.Runs
import SocialNetwork.Foundation.Bytes
import SocialNetwork.Foundation.Focus
import SocialNetwork.Foundation.Conninfo
import SocialNetwork.Foundation.Program
import SocialNetwork.Foundation.Cycles
import SocialNetwork.Foundation.Like
import SocialNetwork.Foundation.Utf8
import SocialNetwork.Foundation.Bits
import SocialNetwork.Foundation.Rewriting
import SocialNetwork.Foundation.Paths
import SocialNetwork.Foundation.Words
import SocialNetwork.Foundation.OrderedSet
import SocialNetwork.Foundation.Objects
import SocialNetwork.Foundation.Exceptions
import SocialNetwork.Foundation.Loops
import SocialNetwork.Foundation.Occurrences
import SocialNetwork.Foundation.Lifting
import SocialNetwork.Foundation.Journal
import SocialNetwork.Foundation.Termination
import SocialNetwork.Foundation.Sessions
import SocialNetwork.Foundation.Masks
import SocialNetwork.Foundation.StableSort
import SocialNetwork.Helpers.Strings
import SocialNetwork.Helpers.Replacement
import SocialNetwork.Helpers.Numbers
import SocialNetwork.Helpers.Url
import SocialNetwork.Helpers.UrlText
import SocialNetwork.Helpers.UrlSyntax
import SocialNetwork.Helpers.UrlPrinting
import SocialNetwork.Helpers.UrlReparse
import SocialNetwork.Helpers.UrlNormalize
import SocialNetwork.Helpers.UrlUpdates
import SocialNetwork.Helpers.UrlPorts
import SocialNetwork.Helpers.QueryParameters
import SocialNetwork.Helpers.UrlObject
import SocialNetwork.Net.InetPton
import SocialNetwork.Net.Ipv6Tokens
import SocialNetwork.Net.IpAddress
import SocialNetwork.Net.AddressOrder
import SocialNetwork.Net.SocketAddress
import SocialNetwork.Net.ServicePorts
import SocialNetwork.Net.AddressText
import SocialNetwork.Net.GroupText
import SocialNetwork.Net.RoundTrip
import SocialNetwork.Net.AddressForms
import SocialNetwork.Net.Duplicates
import SocialNetwork.Net.SocketOrder
import SocialNetwork.Net.HostPort
import SocialNetwork.Net.SunPath
import SocialNetwork.Net.Classification
import SocialNetwork.Net.BareHosts
import SocialNetwork.Net.Ipv6Trim
import SocialNetwork.Net.TrimNormalForm
import SocialNetwork.Net.Ipv6Gaps
import SocialNetwork.Net.Ipv6Text
import SocialNetwork.Net.Subnets
import SocialNetwork.Net.MappedAddresses
import SocialNetwork.Net.FamilyAddresses
import SocialNetwork.Net.SockaddrBytes
import SocialNetwork.Config.Configuration
import SocialNetwork.Config.Credentials
import SocialNetwork.Config.EncodedCredentials
import SocialNetwork.Config.Listening
import SocialNetwork.Config.Layers
import SocialNetwork.Db.DbStart
import SocialNetwork.Db.DatabaseUrl
import SocialNetwork.Db.UsableUrls
import SocialNetwork.Db.SettledNodes
import SocialNetwork.Db.DatabaseNames
import SocialNetwork.Db.Ipv6Hosts
import SocialNetwork.Db.HostTags
import SocialNetwork.Pool.ConnectionPool
import SocialNetwork.Pool.Conservation
import SocialNetwork.Pool.RoundRobin
import SocialNetwork.Threads.ThreadPool
import SocialNetwork.Threads.Transitions
import SocialNetwork.Threads.Ledger
import SocialNetwork.Threads.Accounting
import SocialNetwork.Threads.Admission
import SocialNetwork.Threads.WaitAll
import SocialNetwork.Threads.Wakeups
import SocialNetwork.Threads.LostWakeups
import SocialNetwork.Threads.Progress
import SocialNetwork.Threads.Quiescence
import SocialNetwork.Threads.Shutdown
import SocialNetwork.App.Http
import SocialNetwork.App.Database
import SocialNetwork.App.Handlers
import SocialNetwork.App.Consistency
import SocialNetwork.App.Rules
import SocialNetwork.App.Authentication
import SocialNetwork.App.Soundness
import SocialNetwork.App.Search
import SocialNetwork.App.Metrics
import SocialNetwork.App.Endings
import SocialNetwork.App.DumpedTexts
import SocialNetwork.App.Counters
import SocialNetwork.App.HostCounters
import SocialNetwork.App.LikeQuery
import SocialNetwork.App.NullColumns
import SocialNetwork.App.PrefixSearch
import SocialNetwork.App.Isolation
import SocialNetwork.App.Registration
import SocialNetwork.App.SearchDatabase
import SocialNetwork.App.PrimaryKey
import SocialNetwork.App.Sessions
import SocialNetwork.App.SearchSoundness
import SocialNetwork.App.Settling
import SocialNetwork.App.Service
