import Mioco.ChannelTruth
import Mioco.ChannelQuiet
import Mioco.ChannelFull
import Mioco.ChannelOrder
import Mioco.Offload
import Mioco.Select
import Mioco.Blocking
import Mioco.FifoStarts
import Mioco.Deliver
import Mioco.AfterResume
import Mioco.CatchPanics
import Mioco.LiveCount
import Mioco.TokenWords
import Mioco.Sleep
import Mioco.FifoSpread
import Mioco.AfterExit
import Mioco.SchedTimeout
import Mioco.QueueMoves
import Mioco.YieldOrder
import Mioco.Switching
import Mioco.Children
import Mioco.CompletesOnce
import Mioco.Handles
import Mioco.Assertions
import Mioco.ShutsDown
import Mioco.Hygiene
