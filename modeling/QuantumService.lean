import QuantumService.Client.Polling
import QuantumService.Client.Status
import QuantumService.Cluster.Budget
import QuantumService.Cluster.Cleanup
import QuantumService.Cluster.Deadline
import QuantumService.Cluster.Expiry
import QuantumService.Cluster.HeldUp
import QuantumService.Cluster.Ownership
import QuantumService.Cluster.Wakeups
import QuantumService.Controller.Lookup
import QuantumService.Deployment.Expiry
import QuantumService.Deployment.Failure
import QuantumService.Deployment.Isolation
import QuantumService.Deployment.Names
import QuantumService.Deployment.Outcomes
import QuantumService.Simulator.Backend
import QuantumService.Store.Records
