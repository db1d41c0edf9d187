import ShardProxy.Main
import ShardProxy.Proofs.Backend.Gathering
import ShardProxy.Proofs.Backend.Replies
import ShardProxy.Proofs.Backend.Waiters
import ShardProxy.Proofs.Config.Router
import ShardProxy.Proofs.Proxy.Gate
import ShardProxy.Proofs.Proxy.Restoring
import ShardProxy.Proofs.Proxy.Scattering
import ShardProxy.Proofs.Routing.Newcomer
import ShardProxy.Proofs.Routing.Shape
import ShardProxy.Proxy.Describe
import ShardProxy.Sim.PoolBench
import ShardProxy.Proofs.Backend.Standing
import ShardProxy.Proofs.Backend.Lifecycle
import ShardProxy.Proofs.Proxy.Timers
import ShardProxy.Proofs.Routing.Mapped
import ShardProxy.Proofs.Text.Decoding
import ShardProxy.Proofs.Config.Folding
import ShardProxy.Proofs.Proxy.Folding
import ShardProxy.Proofs.Proxy.Ejecting
import ShardProxy.Proofs.Proxy.Pairs
import ShardProxy.Proofs.Proxy.Rerouting
import ShardProxy.Proofs.Routing.Weighting
import ShardProxy.Proofs.Group.Walking
import ShardProxy.Proofs.Group.Fairness
import ShardProxy.Proofs.Proxy.Finding
import ShardProxy.Proofs.Wire.Unfinished
import ShardProxy.Proofs.Proxy.Saving
import ShardProxy.Proofs.Hash.Division
import ShardProxy.Proofs.Hash.Truncation
