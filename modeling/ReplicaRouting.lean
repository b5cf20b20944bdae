import ReplicaRouting.Main
import ReplicaRouting.Proofs.Cli.Program
import ReplicaRouting.Proofs.Config.Built
import ReplicaRouting.Proofs.Engine.PrefixEnd
import ReplicaRouting.Proofs.Log.Indifference
import ReplicaRouting.Proofs.Log.Lossless
import ReplicaRouting.Proofs.Lsn.Grammar
import ReplicaRouting.Proofs.Result.Completion
import ReplicaRouting.Proofs.Result.Isolation
import ReplicaRouting.Proofs.Role.Chronicle
import ReplicaRouting.Proofs.Router.Accounting
import ReplicaRouting.Proofs.Router.Failures
import ReplicaRouting.Proofs.Router.Planned
import ReplicaRouting.Proofs.Router.Threading
import ReplicaRouting.Proofs.Router.Writing
import ReplicaRouting.Proofs.WaitList.Accounts
import ReplicaRouting.Proofs.WaitList.Closing
import ReplicaRouting.Proofs.WaitList.Handles
import ReplicaRouting.Proofs.WaitList.Regression
import ReplicaRouting.Proofs.WaitList.Rounds
import ReplicaRouting.Proofs.WaitList.Splitting
import ReplicaRouting.Proofs.WaitList.Withdrawal
import ReplicaRouting.Proofs.WaitList.Exposure
