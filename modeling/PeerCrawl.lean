import PeerCrawl.Address
import PeerCrawl.Bytes.Basic
import PeerCrawl.Bytes.Hex
import PeerCrawl.Bytes.Sha256
import PeerCrawl.Connection.Basic
import PeerCrawl.Connection.Configuration
import PeerCrawl.Connection.Error
import PeerCrawl.Connection.Inbox
import PeerCrawl.Connection.Notice
import PeerCrawl.Connection.Operation
import PeerCrawl.Connection.Outbox
import PeerCrawl.Connection.Session
import PeerCrawl.Connection.Socket
import PeerCrawl.Crawl.Admission
import PeerCrawl.Crawl.Basic
import PeerCrawl.Crawl.Courier
import PeerCrawl.Crawl.Dispatch
import PeerCrawl.Crawl.Error
import PeerCrawl.Crawl.Frontier
import PeerCrawl.Crawl.NetworkStack
import PeerCrawl.Crawl.Notice
import PeerCrawl.Crawl.Options
import PeerCrawl.Crawl.Report
import PeerCrawl.Crawl.Roster
import PeerCrawl.Crawl.Seed
import PeerCrawl.Crawl.SharedFrontier
import PeerCrawl.Crawl.Sink
import PeerCrawl.Crawl.Turn
import PeerCrawl.Handshake
import PeerCrawl.IoError
import PeerCrawl.Ip.Basic
import PeerCrawl.Ip.Literal
import PeerCrawl.Log
import PeerCrawl.Network
import PeerCrawl.Proofs.Codec
import PeerCrawl.Proofs.Fragmentation
import PeerCrawl.Proofs.Framing
import PeerCrawl.Proofs.Utf8
import PeerCrawl.Services
import PeerCrawl.Text.Combining
import PeerCrawl.Text.Digits
import PeerCrawl.Text.Duration
import PeerCrawl.Text.Quoted
import PeerCrawl.Text.Unprintable
import PeerCrawl.Text.Utf8
import PeerCrawl.UserAgent
import PeerCrawl.Wire.AddressRecord
import PeerCrawl.Wire.Command
import PeerCrawl.Wire.CompactSize
import PeerCrawl.Wire.Error
import PeerCrawl.Wire.FrameStream
import PeerCrawl.Wire.Header
import PeerCrawl.Wire.Reader
import PeerCrawl.Wire.VersionMessage
import PeerCrawl.Wire.Writing
import PeerCrawl.Proofs.MessageStream
import PeerCrawl.Proofs.Outbox
import PeerCrawl.Proofs.Link
import PeerCrawl.Proofs.HandshakeAgreement
import PeerCrawl.Proofs.Conservation
import PeerCrawl.Proofs.PeerIdentity
import PeerCrawl.Proofs.CallHistory
import PeerCrawl.Proofs.CrawlChanges
import PeerCrawl.Proofs.Bookkeeping
import PeerCrawl.Proofs.WriteInterest
import PeerCrawl.Proofs.AdmissionPolicy
import PeerCrawl.Proofs.Harvest
import PeerCrawl.Proofs.Understanding
import PeerCrawl.Proofs.ConnectionChanges
import PeerCrawl.Proofs.OutboundStream
import PeerCrawl.Proofs.EveryConnection
import PeerCrawl.Proofs.Lifecycle
import PeerCrawl.Proofs.VersionFirst
import PeerCrawl.Proofs.FrontierTraffic
import PeerCrawl.Proofs.Wakeups
import PeerCrawl.Proofs.Hearing
import PeerCrawl.Proofs.ReadInPlace
import PeerCrawl.Proofs.InboxBounds
import PeerCrawl.Proofs.ReadErrors
import PeerCrawl.Proofs.Refusals
import PeerCrawl.Proofs.Introductions
import PeerCrawl.Proofs.DispatchOrder
import PeerCrawl.Proofs.Truncation
import PeerCrawl.Proofs.CompactSizes
import PeerCrawl.Proofs.AddressLists
import PeerCrawl.Proofs.Flushes
import PeerCrawl.Proofs.Reading
import PeerCrawl.Proofs.ReportHandoff
import PeerCrawl.Proofs.Gossip
import PeerCrawl.Proofs.VersionGates
import PeerCrawl.Proofs.RosterHistory
import PeerCrawl.Proofs.ChecksumVerification
import PeerCrawl.Proofs.ReadinessBuffer
import PeerCrawl.Proofs.FailedTurns
import PeerCrawl.Proofs.Commands
import PeerCrawl.Proofs.UserAgents
import PeerCrawl.Proofs.Hosts
import PeerCrawl.Proofs.AddressRecords
import PeerCrawl.Proofs.ReadOutcomes
import PeerCrawl.Proofs.Cursors
import PeerCrawl.Proofs.Numerals
import PeerCrawl.Proofs.IpTexts
import PeerCrawl.Proofs.AddressTexts
import PeerCrawl.Proofs.LogLines
