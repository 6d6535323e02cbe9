import Genlock.Framesync.Show
import Genlock.Os.HammockHarbor
import Genlock.Pllctl.Refresh
import Genlock.Swgenlock.Connection
import Genlock.Swgenlock.Displacement
import Genlock.Swgenlock.Freshness
import Genlock.Swgenlock.Monitor
import Genlock.Swgenlock.PipeThreads
import Genlock.Swgenlock.SessionCaptures
import Genlock.Swgenlock.SessionEnd
import Genlock.Swgenlock.PipesArgument
import Genlock.Swgenlock.RequestLoop
import Genlock.Swgenlock.ServerRuns
import Genlock.Swgenlock.Sockets
import Genlock.Swgenlock.SyncStatus
import Genlock.Vblmon.FindAvg
import Genlock.Vsyncalter.Handshake
import Genlock.Vsyncalter.History
import Genlock.Vsyncalter.Aperture
import Genlock.Vsyncalter.Attempts
import Genlock.Vsyncalter.Expiry
import Genlock.Vsyncalter.Lifecycle
import Genlock.Vsyncalter.Machine
import Genlock.Vsyncalter.Nudge
import Genlock.Vsyncalter.Masks
import Genlock.Vsyncalter.Restore
import Genlock.Vsyncalter.RoundTrip
import Genlock.Vsyncalter.Together
import Genlock.Vsyncalter.Stepping
import Genlock.Vsyncalter.Rmw
