import Agar.Reach
import Agar.SendBuffer
import Agar.WireFormat
import Agar.Pacing
import Agar.Commands
import Agar.Mass
import Agar.Packets
import Agar.Rejoining
import Agar.Merging
import Agar.Borders
import Agar.Timers
import Agar.Containers
import Agar.Drag
import Agar.Fairness
import Agar.Views
import Agar.Refresh
import Agar.Orders
import Agar.Popping
import Agar.Scans
import Agar.Halving
import Agar.Reports
import Agar.Ghosts
import Agar.Cameras
import Agar.Charts
import Agar.Scripts
import Agar.Larder
import Agar.Portraits
import Agar.Clients
import Agar.Screens
import Agar.FirstViews
import Agar.Visible
import Agar.Schedule
import Agar.Herd
import Agar.Census
import Agar.Lib.Ledger
import Agar.Trades
import Agar.Economy
import Agar.Lens
import Agar.Evictions
import Agar.Defeats
