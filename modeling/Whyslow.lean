import Whyslow.Lib.Extremum
import Whyslow.Lib.Words
import Whyslow.Lib.Runs
import Whyslow.Theorems.Isolation
import Whyslow.Theorems.Overlap
import Whyslow.Theorems.Interference
import Whyslow.Theorems.Wakeups
import Whyslow.Theorems.Requests
import Whyslow.Theorems.Leak
import Whyslow.Theorems.Drain
import Whyslow.Theorems.Locality
import Whyslow.Theorems.Backward
import Whyslow.Theorems.Symmetry
import Whyslow.Theorems.Sleeps
import Whyslow.Theorems.Mutex
import Whyslow.Theorems.WallClock
import Whyslow.Theorems.BlockKeys
import Whyslow.Theorems.Nearest
import Whyslow.Theorems.Progress
import Whyslow.Theorems.GroundTruth
import Whyslow.Theorems.DoneLine
import Whyslow.Theorems.SessionStop
import Whyslow.Theorems.SessionReport
