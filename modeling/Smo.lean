import Smo.RanNfOam.AccessPath
import Smo.RanNfOam.Lifecycle.SweepRace
import Smo.RanNfOam.ConfigJobs.ChangeWindow
import Smo.RanNfOam.ConfigJobs.KillSwitch
import Smo.RanNfOam.ConfigJobs.Staged
import Smo.RanNfOam.ConfigJobs.FourEyes
import Smo.RanNfOam.ConfigJobs.RateRace
import Smo.RanNfOam.Listing
import Smo.Shared.Idempotency
import Smo.RanNfOam.Southbound.RetriedOutcome
import Smo.IntentService.Complete
import Smo.IntentService.RegionScope
import Smo.Shared.OutboxDelivery
import Smo.Shared.SingleRunner
import Smo.Shared.RateLimitBudget
import Smo.R1Termination.Introspection
import Smo.Sme.Minting
import Smo.Sme.Tokens
import Smo.Sme.Assertions
import Smo.RappMgmt.Safeguards
import Smo.RappMgmt.Lineage
import Smo.Dme.DataTypes
import Smo.Dme.Actions
import Smo.Aimgf.CertificationPath
import Smo.Aimgf.EndsOnce
import Smo.GuiBff.Proxy
import Smo.Focom.Integrity
import Smo.Mlmr.Usable
import Smo.RanNfOam.DecisionChain
import Smo.Mlmr.Writers
import Smo.RanNfOam.AlarmHistory
import Smo.RanNfOam.OnboardingEnds
import Smo.GuiBff.LastAdmin
import Smo.Onboarding.PackageRuns
import Smo.RanNfOam.ConfigJobs.ContainedJob
import Smo.RanNfOam.KpiGuardRuns
import Smo.GuiBff.SignInRuns
import Smo.Sme.Hidden
import Smo.RappMgmt.Orphans
import Smo.Shared.Webhook
import Smo.RanNfOam.ConfigJobs.RefusedApproval
import Smo.RanNfOam.Ownership
import Smo.RanNfOam.Topology
import Smo.IntentService.Capabilities
import Smo.RanNfOam.YangPayload
import Smo.RanNfOam.Kpi
import Smo.RanNfOam.KpiFormulaRaises
import Smo.GuiBff.LockoutRuns
import Smo.GuiBff.SessionRuns
import Smo.GuiBff.EnrolmentRuns
import Smo.SaSmos.O1CmRuns
import Smo.Mdaf.RequestRuns
import Smo.Shared.RuntimeResources
import Smo.GuiBff.EventRuns
import Smo.Aimgf.GroupRetrain
import Smo.Aimgf.LoadingRuns
import Smo.Aimgf.UpdateRuns
import Smo.RanNfOam.Southbound.Candidates
import Smo.RanNfOam.CellGuards
import Smo.RanNfOam.FileSubscriptions
import Smo.RanNfOam.KpiSchedules
import Smo.Focom.Performance
import Smo.RanNfOam.VendorSchemas
