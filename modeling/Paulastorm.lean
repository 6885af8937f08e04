import Paulastorm.Core.Arith
import Paulastorm.Core.Callbacks
import Paulastorm.Core.Mute
import Paulastorm.Core.Keeps
import Paulastorm.Core.Paula
import Paulastorm.Core.Render
import Paulastorm.Library.Ring
import Paulastorm.Library.Transition
import Paulastorm.Library.Word
import Paulastorm.Mirror.EventRing
import Paulastorm.Mirror.Cache
import Paulastorm.Mirror.PageCache.Service
import Paulastorm.Mirror.EventRing.Delivery
import Paulastorm.Mirror.Shadow
import Paulastorm.Probe
import Paulastorm.Registers
import Paulastorm.Mirror.PageCache.Coherence
import Paulastorm.Live.Gains
import Paulastorm.Live.Ideal
import Paulastorm.Live.Mailbox
import Paulastorm.Poc.Clock
import Paulastorm.Poc.State
import Paulastorm.Poc.Recovery
import Paulastorm.Core.Walk
import Paulastorm.Live.NonInterference
import Paulastorm.Poc.Loop.Settled
import Paulastorm.Poc.NonInterference
import Paulastorm.Bus.Observed
import Paulastorm.Sys.Interrupts
import Paulastorm.Sys.ProbeWindow
import Paulastorm.Sys.ReadWidth
import Paulastorm.Faults.Agreement
import Paulastorm.Faults.IntegerForms
import Paulastorm.Faults.LoadEffect
import Paulastorm.Lru.Replacement
import Paulastorm.Boot.Checksum
import Paulastorm.Boot.Cmdline
import Paulastorm.Bus.WriteBuffer
import Paulastorm.Mirror.PageCache.Accounting
import Paulastorm.Mirror.Pending
import Paulastorm.Hdmi.ClockRatio
import Paulastorm.Hdmi.Iec958
import Paulastorm.Core.Blocks.Rate
import Paulastorm.PaulaMixer
import Paulastorm.PaulaMixer.Following
import Paulastorm.Poc.Agreement
import Paulastorm.Live.Lookahead
import Paulastorm.Live.Wait
import Paulastorm.Sys.Samples
import Paulastorm.Poc.Loop.Progress
import Paulastorm.Poc.Loop.Stream
import Paulastorm.Poc.Loop.Copies
import Paulastorm.Sys.GuestMemory
import Paulastorm.Bus.Buffered
import Paulastorm.Faults.Architecture
import Paulastorm.MainLoop.Architecture
import Paulastorm.Sys.Autoconfig
