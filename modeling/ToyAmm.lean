import ToyAmm.SwapSplitting
import ToyAmm.LiquidityRuns
import ToyAmm.Rounding
import ToyAmm.ShareValue
import ToyAmm.Bootstrap
import ToyAmm.NoTraps
import ToyAmm.AccessControl
import ToyAmm.DonationAttack
import ToyAmm.LockWindow
import ToyAmm.Mirror
import ToyAmm.AccountLocks
import ToyAmm.PoolAddresses
import ToyAmm.MarketRuns
import ToyAmm.ShareReturns
import ToyAmm.Conservation
import ToyAmm.PoolCreation
import ToyAmm.OneWayRuns
