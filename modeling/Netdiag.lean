import Netdiag.Lib.Fifo
import Netdiag.Lib.Framing
import Netdiag.Lib.Loop
import Netdiag.Lib.Newest
import Netdiag.Lib.Observe
import Netdiag.Lib.Overwrite
import Netdiag.Lib.Pairs
import Netdiag.Lib.Ring
import Netdiag.Lib.Run
import Netdiag.Lib.Uniform
import Netdiag.Lib.Words
import Netdiag.Machine
import Netdiag.Queue
import Netdiag.Fifo
import Netdiag.Netlink.Attr
import Netdiag.Netlink.Msg
import Netdiag.Netlink.Payload
import Netdiag.Netlink.Put
import Netdiag.Netlink.Segments
import Netdiag.Netlink.Walk
import Netdiag.Netlink.Walk32
import Netdiag.Nfct.Alias
import Netdiag.Nfct.Chunks
import Netdiag.Nfct.Contain
import Netdiag.Nfct.Decode
import Netdiag.Nfct.Encode
import Netdiag.Nfct.Event
import Netdiag.Nfct.Family
import Netdiag.Nfct.Feed
import Netdiag.Nfct.Fields
import Netdiag.Nfct.Parse
import Netdiag.Nfct.Sources
import Netdiag.Nfct.Synth
import Netdiag.Nl80211.Decode
import Netdiag.Nl80211.Encode
import Netdiag.Nl80211.Event
import Netdiag.Nl80211.Feed
import Netdiag.Nl80211.Fields
import Netdiag.Nl80211.Parse
import Netdiag.Nl80211.Streams
import Netdiag.Parsers.Calls
import Netdiag.Parsers.Delivery
import Netdiag.Parsers.Ilp32
import Netdiag.Parsers.Reset
import Netdiag.Parsers.Safety
import Netdiag.Parsers.Walkers
import Netdiag.Probe.Arping
import Netdiag.Probe.Arprecon
import Netdiag.Probe.Backpressure
import Netdiag.Probe.Books
import Netdiag.Probe.Context
import Netdiag.Probe.Coupling
import Netdiag.Probe.Dnsdiag
import Netdiag.Probe.Events
import Netdiag.Probe.History
import Netdiag.Probe.Immunity
import Netdiag.Probe.Latency
import Netdiag.Probe.Module
import Netdiag.Probe.Neighbours
import Netdiag.Probe.Arrays
import Netdiag.Probe.Packets
import Netdiag.Probe.Ping
import Netdiag.Probe.Reset
import Netdiag.Probe.Spoof
import Netdiag.Probe.Timeouts
import Netdiag.Probe.Traceroute
import Netdiag.Parsers.Mcs
import Netdiag.Lib.Meter
import Netdiag.Probe.Averages
import Netdiag.Lib.Bank
import Netdiag.Probe.Hops
import Netdiag.Probe.Loss
import Netdiag.Lib.Ip
import Netdiag.Probe.Nmapdiag
import Netdiag.Probe.Recognition
import Netdiag.Probe.Engines
import Netdiag.Probe.Bwdiag
import Netdiag.Parsers.Sessions
import Netdiag.Parsers.Records
import Netdiag.Nfct.Image
import Netdiag.Nl80211.Image
import Netdiag.Nl80211.Chunks
import Netdiag.Probe.Image
import Netdiag.Probe.Shift
import Netdiag.Lib.Text
import Netdiag.Print
import Netdiag.Probe.Lines
import Netdiag.Nfct.Lines
import Netdiag.Nl80211.Lines
import Netdiag.Lib.Buffer
import Netdiag.Buffer
import Netdiag.Probe.Watch
import Netdiag.Probe.Survey
import Netdiag.Sizes
import Netdiag.Probe.Common
import Netdiag.Probe.Listener
import Netdiag.Probe.Hearing
import Netdiag.Probe.Alarm
import Netdiag.Probe.Ringing
import Netdiag.Netlink.Agree
import Netdiag.Parsers.Orders
import Netdiag.Probe.Fuzz
import Netdiag.Parsers.Inbox
import Netdiag.Parsers.Targets
import Netdiag.Lib.OneOff
import Netdiag.Parsers.Damage
