import PaymentNode.Whirlpool.Conserve
import PaymentNode.Payout.Recover
import PaymentNode.Jupiter.Once
import PaymentNode.Ledger.Clocks
import PaymentNode.Rail.Receipts
import PaymentNode.Permit2.Exposure
import PaymentNode.Rail.SingleSend
import PaymentNode.Rail.ChainPolicy
import PaymentNode.Index.Rebuild
import PaymentNode.Index.OneKey
import PaymentNode.Transfer.Outcome
import PaymentNode.Finality.NeverLands
import PaymentNode.X402.Truth
import PaymentNode.Bridge.Reconstruct
import PaymentNode.Bridge.Sends
import PaymentNode.Stargate.DestinationScan
import PaymentNode.Stargate.NativeOutcome
import PaymentNode.Gasless.Finds
import PaymentNode.Relay.Lanes
import PaymentNode.Policy.Admits
import PaymentNode.X402.ExpiryScan
import PaymentNode.Gasless.UsdtReceipt
import PaymentNode.Rpc.Serialized
import PaymentNode.Native.Canonical
import PaymentNode.Data.StrictBlanks
import PaymentNode.Native.Agreement
import PaymentNode.Gasless.Accounting
import PaymentNode.State.Locks
