import Dsal.Basic
import Dsal.Backend
import Dsal.World
import Dsal.Lifecycle
import Dsal.IoOp
import Dsal.HandleHoles
import Dsal.Pread
import Dsal.Pwrite
import Dsal.Resize
import Dsal.Init
import Dsal.Widths
import Dsal.Store
import Dsal.File
import Dsal.RunWidths
import Dsal.Blocks
