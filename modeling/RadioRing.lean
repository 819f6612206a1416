import RadioRing.Application.Beacon
import RadioRing.Application.Playback
import RadioRing.Demo.Screen
import RadioRing.Demo.Start
import RadioRing.Deployment.Load
import RadioRing.Json.Reader
import RadioRing.Main
import RadioRing.Medium.Rules
import RadioRing.Message.Codec
import RadioRing.Node.Step
import RadioRing.Proofs.Reachable
import RadioRing.Radio.Script
import RadioRing.Simulation.Goal
import RadioRing.StatusPage
import RadioRing.Telemetry.Collector
import RadioRing.Proofs.Recovery
import RadioRing.Proofs.Contest
import RadioRing.Proofs.Circle
import RadioRing.Proofs.Circulation
import RadioRing.Proofs.OneToken
import RadioRing.Proofs.Twins
import RadioRing.Proofs.Merge
import RadioRing.Proofs.Runs
import RadioRing.Proofs.Moves
import RadioRing.Proofs.Mastership
import RadioRing.Proofs.Authority
import RadioRing.Proofs.Solitude
import RadioRing.Proofs.Duplicates
import RadioRing.Proofs.Exchange
import RadioRing.Proofs.Newcomer
import RadioRing.Proofs.Transfer
import RadioRing.Proofs.Inboxes
import RadioRing.Proofs.Payloads
import RadioRing.Proofs.History
import RadioRing.Proofs.Provenance
import RadioRing.Proofs.Integrity
import RadioRing.Proofs.CanonicalFrames
import RadioRing.Proofs.Deliveries
import RadioRing.Proofs.Grammar
import RadioRing.Proofs.Belonging
import RadioRing.Proofs.Lockstep
import RadioRing.Proofs.LiveTimers
import RadioRing.Proofs.Refusals
import RadioRing.Proofs.Noise
import RadioRing.Proofs.Isolation
import RadioRing.Proofs.Pulse
import RadioRing.Proofs.Overflows
import RadioRing.Proofs.ClockOrder
import RadioRing.Proofs.Accounts
import RadioRing.Proofs.Evidence
import RadioRing.Proofs.Calls
import RadioRing.Proofs.Copies
import RadioRing.Proofs.OnTime
import RadioRing.Proofs.Echo
import RadioRing.Proofs.Eviction
import RadioRing.Proofs.Framing
import RadioRing.Proofs.PutAside
import RadioRing.Proofs.Requests
import RadioRing.Proofs.LettingGo
import RadioRing.Proofs.FullCircle
import RadioRing.Proofs.SimulatedTime
import RadioRing.Proofs.Acceptance
