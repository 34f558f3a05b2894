import Swactor.Registry.Replicas
import Swactor.Registry.Overflow
import Swactor.Registry.Actor
import Swactor.Directory.Routes
import Swactor.Directory.Quiet
import Swactor.Swim.Suspicion
import Swactor.Swim.Leave
import Swactor.Swim.Answers
import Swactor.Runtime.Quiescence
import Swactor.Runtime.Order
import Swactor.DataPlane.RingDelivery
import Swactor.DataPlane.RingFence
import Swactor.DataPlane.RingProbe
import Swactor.DataPlane.EdgeLeases
import Swactor.Namespace.Retirements
import Swactor.Namespace.Reservations
import Swactor.Namespace.Replacement
import Swactor.Host.StreamLife
import Swactor.Host.Rights
import Swactor.Host.Revocation
import Swactor.Namespace.Proxy
import Swactor.Process.Coordinator
import Swactor.Extension.Deaths
import Swactor.Runtime.Channel
import Swactor.Swim.Growth
import Swactor.Swim.JoinResponse
import Swactor.Swim.RoundRobin
import Swactor.Runtime.Drains
import Swactor.Runtime.Suspension
import Swactor.Driver.Connections
