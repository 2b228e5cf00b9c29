import MatrixFactory.Ageing
import MatrixFactory.AgentCount
import MatrixFactory.AgentPattern
import MatrixFactory.AmrAgent
import MatrixFactory.BatchFold
import MatrixFactory.BatchKernel
import MatrixFactory.BatchTest
import MatrixFactory.BenchVerdict
import MatrixFactory.Breakdowns
import MatrixFactory.CancelTrace
import MatrixFactory.ClearRoute
import MatrixFactory.Collision
import MatrixFactory.CommitWindow
import MatrixFactory.Completion
import MatrixFactory.ConflictFree
import MatrixFactory.ControlEndpoint
import MatrixFactory.DaemonCores
import MatrixFactory.DamageOrder
import MatrixFactory.DashboardActions
import MatrixFactory.Deadlines
import MatrixFactory.DefectDrift
import MatrixFactory.Dispatch
import MatrixFactory.DockBlock
import MatrixFactory.DrainBatches
import MatrixFactory.DrainLoop
import MatrixFactory.EffectSize
import MatrixFactory.EnergyPrice
import MatrixFactory.EpochBelief
import MatrixFactory.EpochLedger
import MatrixFactory.ExperimentMetrics
import MatrixFactory.Factory
import MatrixFactory.Fleet
import MatrixFactory.FleetMotion
import MatrixFactory.FleetRuns
import MatrixFactory.FrameDelivery
import MatrixFactory.Grid
import MatrixFactory.GridLookup
import MatrixFactory.Handover
import MatrixFactory.Handshake
import MatrixFactory.JobLedger
import MatrixFactory.Lib.Agenda
import MatrixFactory.Lib.AgentSpeak
import MatrixFactory.Lib.Arrhenius
import MatrixFactory.Lib.BestFirst
import MatrixFactory.Lib.Bisection
import MatrixFactory.Lib.Countdown
import MatrixFactory.Lib.Critical
import MatrixFactory.Lib.Double
import MatrixFactory.Lib.FlatJson
import MatrixFactory.Lib.LineScan
import MatrixFactory.Lib.NanNumber
import MatrixFactory.Lib.Numerals
import MatrixFactory.Lib.PairMap
import MatrixFactory.Lib.Plans
import MatrixFactory.Lib.Polygon
import MatrixFactory.Lib.PriorityQueue
import MatrixFactory.Lib.Relaxation
import MatrixFactory.Lib.Runs
import MatrixFactory.Lib.Slices
import MatrixFactory.Lib.Sojourn
import MatrixFactory.Lib.Text
import MatrixFactory.Lib.Trapezoid
import MatrixFactory.Lib.TwoSamples
import MatrixFactory.Lib.Versions
import MatrixFactory.Lib.Words
import MatrixFactory.LutCache
import MatrixFactory.MembraneHydration
import MatrixFactory.MergedProject
import MatrixFactory.Messages
import MatrixFactory.NanVerdict
import MatrixFactory.NerRegistry
import MatrixFactory.NewtonSolver
import MatrixFactory.OrderAgenda
import MatrixFactory.OrderHolon
import MatrixFactory.OrderLedger
import MatrixFactory.OrderSuspension
import MatrixFactory.PhaseAcks
import MatrixFactory.PhaseOrder
import MatrixFactory.ProcessTime
import MatrixFactory.ProductionLoop
import MatrixFactory.QualityGate
import MatrixFactory.RealKernel
import MatrixFactory.RealStations
import MatrixFactory.Reservations
import MatrixFactory.ResourceHolon
import MatrixFactory.Rework
import MatrixFactory.Saturation
import MatrixFactory.Seeds
import MatrixFactory.SessionMaps
import MatrixFactory.SetpointCorrection
import MatrixFactory.ShopFloor
import MatrixFactory.ShopRules
import MatrixFactory.ShopWeight
import MatrixFactory.SingleUse
import MatrixFactory.SpaceTimeAStar
import MatrixFactory.StackThermalND
import MatrixFactory.StaleRequests
import MatrixFactory.Standby
import MatrixFactory.StationAgreement
import MatrixFactory.StationArtifact
import MatrixFactory.StationAwait
import MatrixFactory.StationKernel
import MatrixFactory.StationLock
import MatrixFactory.StationSignal
import MatrixFactory.StepFailure
import MatrixFactory.Supervision
import MatrixFactory.SupervisorAgent
import MatrixFactory.SuspendedHolons
import MatrixFactory.TankPressure
import MatrixFactory.TelemetryClient
import MatrixFactory.TelemetryHub
import MatrixFactory.TelemetryRate
import MatrixFactory.ThermalStability
import MatrixFactory.TickLoop
import MatrixFactory.Ticket
import MatrixFactory.TimerArtifact
import MatrixFactory.TransportAbort
import MatrixFactory.TransportJobs
import MatrixFactory.TransportNotice
import MatrixFactory.VoltageCurve
import MatrixFactory.WaitWeight
