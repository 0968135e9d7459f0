import ServiceExposure.Controller.Questions
import ServiceExposure.Controller.System
import ServiceExposure.Watch.Resync
import ServiceExposure.Main
import ServiceExposure.Proofs.Cluster.Conduct
import ServiceExposure.Proofs.Cluster.Pool
import ServiceExposure.Proofs.Shared.Converge
import ServiceExposure.Proofs.Merge
import ServiceExposure.Proofs.Merge.Laws
import ServiceExposure.Proofs.Port.Names
import ServiceExposure.Proofs.Shared.Withdrawal
import ServiceExposure.Proofs.Json.RoundTrip
import ServiceExposure.Proofs.Port.Records
import ServiceExposure.Proofs.Shared.Holdings
import ServiceExposure.Proofs.Port.Targets
import ServiceExposure.Proofs.Dict
import ServiceExposure.Proofs.Shared.Tables
import ServiceExposure.Proofs.Shared.Admission
import ServiceExposure.Proofs.Shared.AdmissionHistory
import ServiceExposure.Proofs.Cluster.Alone
import ServiceExposure.Proofs.Cluster.Reading
import ServiceExposure.Proofs.Cluster.Cut
import ServiceExposure.Proofs.Cluster.Failures
import ServiceExposure.Proofs.Owned.Alone
import ServiceExposure.Proofs.Owned.AtRest
import ServiceExposure.Proofs.Owned.Cut
import ServiceExposure.Proofs.Shared.Alone
import ServiceExposure.Proofs.Shared.AtRest
import ServiceExposure.Proofs.Owned.Routes
import ServiceExposure.Proofs.Reconciler.Contributions
import ServiceExposure.Proofs.Reconciler.AtRest
import ServiceExposure.Proofs.Cluster.Sending
import ServiceExposure.Proofs.Reconciler.Places
import ServiceExposure.Proofs.Reconciler.Tour
import ServiceExposure.Proofs.Reconciler.Standing
import ServiceExposure.Proofs.Controller.Journal
import ServiceExposure.Proofs.Controller.InLine
import ServiceExposure.Proofs.Reconciler.Cut
import ServiceExposure.Proofs.Reconciler.Rejections
import ServiceExposure.Proofs.Reconciler.Middlewares
import ServiceExposure.Proofs.Reconciler.Redirects
import ServiceExposure.Proofs.Reconciler.Ownership
import ServiceExposure.Proofs.Reconciler.Strays
import ServiceExposure.Proofs.Reconciler.Rivals
import ServiceExposure.Proofs.Http.Fqdn
import ServiceExposure.Proofs.Reconciler.RedirectHosts
import ServiceExposure.Proofs.Watch.Repair
import ServiceExposure.Proofs.Reconciler.QuietVersions
import ServiceExposure.Proofs.Controller.Balance
import ServiceExposure.Proofs.Shared.AdmissionIdle
import ServiceExposure.Proofs.Shared.AdmissionAccess
import ServiceExposure.Proofs.Shared.TableContent
import ServiceExposure.Proofs.Shared.PublishedPorts
import ServiceExposure.Proofs.Owned.Outcome
import ServiceExposure.Proofs.Reconciler.RedirectPaths
import ServiceExposure.Proofs.Reconciler.RedirectIngress
import ServiceExposure.Proofs.Port.Recording
import ServiceExposure.Proofs.Shared.OwnersByName
import ServiceExposure.Proofs.Http.Listing
import ServiceExposure.Proofs.Retry
