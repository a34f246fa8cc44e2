import ClusterSync.Json.Pointer
import ClusterSync.Main
import ClusterSync.Rehearsal.Assembly
import ClusterSync.Rehearsal.Host
import ClusterSync.Rehearsal.Site
import ClusterSync.Rehearsal.World
import ClusterSync.Settings.Describe
import ClusterSync.Supervisor.Signal
import ClusterSync.Proofs.Backlog.Ledger
import ClusterSync.Proofs.Backlog.Waking
import ClusterSync.Proofs.Controller.Convergence
import ClusterSync.Proofs.Controller.Retry
import ClusterSync.Proofs.Datastore.Observed
import ClusterSync.Proofs.Datastore.Revisions
import ClusterSync.Proofs.Controller.Shift
import ClusterSync.Proofs.Controller.Standing
import ClusterSync.Proofs.Controller.Attempts
import ClusterSync.Proofs.Controller.Books
import ClusterSync.Proofs.Controller.Drain
import ClusterSync.Proofs.Controller.Fair
import ClusterSync.Proofs.Controller.Settling
import ClusterSync.Proofs.Watch.Lookup
import ClusterSync.Proofs.Datastore.Interchange
import ClusterSync.Proofs.Delivery.Stored
import ClusterSync.Proofs.Delivery.Alone
import ClusterSync.Proofs.Delivery.Keys
import ClusterSync.Proofs.Backlog.Delays
import ClusterSync.Proofs.Delivery.Independence
import ClusterSync.Proofs.Delivery.Retried
import ClusterSync.Proofs.Controller.Restart
import ClusterSync.Proofs.Controller.Topic
import ClusterSync.Proofs.Controller.Tour
import ClusterSync.Proofs.Supervisor.Office
import ClusterSync.Proofs.Controller.Within
import ClusterSync.Proofs.Supervisor.SingleFlight
import ClusterSync.Proofs.Supervisor.Flag
import ClusterSync.Proofs.Supervisor.Deeds
import ClusterSync.Proofs.Supervisor.Readiness
