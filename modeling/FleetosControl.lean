import FleetosControl.Apply.Verdicts
import FleetosControl.Attestation.Revocation
import FleetosControl.Ca.Bootstrap
import FleetosControl.Ca.DelegationIds
import FleetosControl.Controllers.CronRuns
import FleetosControl.Controllers.LeaderGate
import FleetosControl.Controllers.Replacements
import FleetosControl.Disruption.Budgets
import FleetosControl.Disruption.DrainedNodes
import FleetosControl.DummyIp.Consumption
import FleetosControl.DummyIp.ServiceAddresses
import FleetosControl.Raft.SnapshotCover
import FleetosControl.Storage.Listings
import FleetosControl.Watch.DataControl
