import SupplyPlan.Main
import SupplyPlan.Web.Handler
import SupplyPlan.Json.Writer
import SupplyPlan.Text.Part
import SupplyPlan.Proofs.Calendar.Splitting
import SupplyPlan.Proofs.Calendar.Availability
import SupplyPlan.Proofs.Calendar.SameWork
import SupplyPlan.Proofs.Calendar.Limits
import SupplyPlan.Proofs.Schedule.Fallback
import SupplyPlan.Proofs.Schedule.Composition
import SupplyPlan.Proofs.Schedule.LeadTime
import SupplyPlan.Proofs.Schedule.Merging
import SupplyPlan.Proofs.Schedule.Monotone
import SupplyPlan.Proofs.Schedule.Hashing
import SupplyPlan.Proofs.Store.Histories
import SupplyPlan.Proofs.Planning.Interchange
import SupplyPlan.Proofs.Planning.Settings
import SupplyPlan.Proofs.Explosion.Cycle
import SupplyPlan.Proofs.Planning.Listing
import SupplyPlan.Proofs.Planning.Integrity
import SupplyPlan.Proofs.Web.Requirements
import SupplyPlan.Proofs.Planning.Drawing
import SupplyPlan.Proofs.Planning.Independence
import SupplyPlan.Proofs.Planning.Quantities
import SupplyPlan.Proofs.Planning.Options
import SupplyPlan.Proofs.Web.Answers
import SupplyPlan.Proofs.Web.Paths
import SupplyPlan.Proofs.Web.Agreement
import SupplyPlan.Proofs.Web.Recording
import SupplyPlan.Proofs.Planning.CreatedCalendars
import SupplyPlan.Proofs.Planning.LeadTimes
import SupplyPlan.Proofs.Planning.Refusal
import SupplyPlan.Proofs.Planning.TaskTimes
