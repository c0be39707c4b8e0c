import Xflow.Control.Eviction
import Xflow.Control.Stability
import Xflow.Directory.Release
import Xflow.Engine.Conservation
import Xflow.Engine.BatchBody
import Xflow.Engine.MergeCancel
import Xflow.Engine.Permits
import Xflow.Engine.Privacy
import Xflow.Engine.Submission
import Xflow.Node.Deciding
import Xflow.Node.Isolation
import Xflow.Queue.Committing
import Xflow.Redis.Agreement
import Xflow.Redis.SlotRuns
import Xflow.Store.Barrier
import Xflow.Store.Claims
import Xflow.Store.DeadLetter
import Xflow.Store.Expiry
import Xflow.Store.Waiters
import Xflow.Supply.Gate
import Xflow.Supply.Guard
import Xflow.Supply.Host
import Xflow.Supply.Pool
import Xflow.Supply.Pull
import Xflow.Trigger.Commits
import Xflow.Trigger.Cron
import Xflow.Trigger.Frontier
import Xflow.Trigger.Reaping
import Xflow.Trigger.Timer
