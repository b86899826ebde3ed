import Stratisd.Engine.Startup
import Stratisd.Thinpool.Mdv
import Stratisd.Liminal.Identify
import Stratisd.Metadata.Damage
import Stratisd.Metadata.Untrusted
import Stratisd.Backstore.BdaLayout
import Stratisd.Metadata.Codec
import Stratisd.Metadata.ReadOnly
import Stratisd.Rpc.Descriptors
import Stratisd.Thinpool.Leaks
import Stratisd.Sim.Lockstep
import Stratisd.Backstore.CacheRuns
import Stratisd.Backstore.Cleanup
import Stratisd.Crypt.Transaction
import Stratisd.Engine.Devlinks
import Stratisd.Engine.Triples
import Stratisd.Backstore.PredictUsage
import Stratisd.Crypt.Shares
import Stratisd.Engine.FailedWrites
import Stratisd.Liminal.LockedPools
import Stratisd.Thinpool.SizeRecords
import Stratisd.Engine.Evented
import Stratisd.Engine.KeyActions
import Stratisd.Pool.SavedLayout
