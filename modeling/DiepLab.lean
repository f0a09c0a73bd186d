import DiepLab.Auth.LastAdmin
import DiepLab.Auth.ResetOnce
import DiepLab.Auth.Revocation
import DiepLab.Automation.Bounds
import DiepLab.Automation.Breaker
import DiepLab.Automation.Dedup
import DiepLab.Automation.VoltVar
import DiepLab.Cim.Terminals
import DiepLab.Commands.Mirror
import DiepLab.Commands.Pipeline
import DiepLab.Contracts.Schema
import DiepLab.Controls.AuditTrail
import DiepLab.Controls.Gate
import DiepLab.Controls.Races
import DiepLab.Controls.TenantView
import DiepLab.Controls.TwoPerson
import DiepLab.Copilot.Cache
import DiepLab.Dispatcher.Loop
import DiepLab.Dlms.Client
import DiepLab.Dms.Accounting
import DiepLab.Dms.Adapters
import DiepLab.Dms.BackFeed
import DiepLab.Dms.BadData
import DiepLab.Dms.Convergence
import DiepLab.Dms.Estimate
import DiepLab.Dms.FaultLocation
import DiepLab.Dms.Kirchhoff
import DiepLab.Dms.OptimalSwitching
import DiepLab.Dms.OutageInference
import DiepLab.Dms.OutageSections
import DiepLab.Dms.PowerBalance
import DiepLab.Dms.Restoration
import DiepLab.Drivers.FailedCommands
import DiepLab.Drivers.RegisterMaps
import DiepLab.Edge.Runner
import DiepLab.Fleet.StateOfCharge
import DiepLab.Fleet.TenantBoundary
import DiepLab.Fleet.VoltVarRuns
import DiepLab.Handlers.Abort
import DiepLab.Handlers.Directions
import DiepLab.Handlers.EchoSchedule
import DiepLab.Handlers.FailurePoints
import DiepLab.Handlers.Interlocks
import DiepLab.Handlers.MasterFlag
import DiepLab.Handlers.Rollback
import DiepLab.Ingestor.Delivery
import DiepLab.Ingestor.Provenance
import DiepLab.JsonChars
import DiepLab.Library.Residuals
import DiepLab.Library.TreeFlows
import DiepLab.Mdm.Audit
import DiepLab.Mdm.Gaps
import DiepLab.Microgrid.Apdu
import DiepLab.Microgrid.Link
import DiepLab.Microgrid.Rtu
import DiepLab.Ocpp.Calls
import DiepLab.Ocpp.Csms
import DiepLab.Ocpp.Handshake
import DiepLab.Ocpp.Registry
import DiepLab.Oms.Affected
import DiepLab.Oms.Idempotence
import DiepLab.Oms.OneOpenCase
import DiepLab.Onboarding.Status
import DiepLab.Sunspec.Discovery
import DiepLab.Sunspec.Limit
import DiepLab.Sunspec.PartialWrites
import DiepLab.Sunspec.ShortReads
import DiepLab.Sunspec.Timeouts
import DiepLab.Telemetry.CachedState
import DiepLab.Telemetry.Twin
import DiepLab.Topology.Features
import DiepLab.Topology.Hierarchy
import DiepLab.Topology.Loader
import DiepLab.Topology.NominalVoltage
import DiepLab.Topology.Orientation
import DiepLab.Topology.Representation
import DiepLab.Topology.Validation
import DiepLab.Topology.Versions
