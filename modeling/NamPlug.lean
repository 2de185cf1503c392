import NamPlug.Params.Proof.GuiEvents
import NamPlug.Dsp.Proof.Block
import NamPlug.Plugin.Payload
import NamPlug.Plugin.State
import NamPlug.Plugin.Audio
import NamPlug.Plugin.Load
import NamPlug.Plugin.Restore
import NamPlug.Plugin.Activate
import NamPlug.Plugin.Step
import NamPlug.Lib.Run
import NamPlug.Plugin.Proof.Frame
import NamPlug.Plugin.Proof.Atomics
import NamPlug.Plugin.Proof.Activates
import NamPlug.Params.Proof.Sync
import NamPlug.Plugin.Proof.Reactivate
import NamPlug.Plugin.Proof.Outcomes
import NamPlug.Plugin.Proof.Installs
import NamPlug.Plugin.Proof.Acknowledge
import NamPlug.Plugin.Proof.Rollback
import NamPlug.Params.Gestures
import NamPlug.Params.Proof.Gestures
import NamPlug.Dsp.DryWet
import NamPlug.Dsp.Proof.DryWet
import NamPlug.Plugin.Rebuild
import NamPlug.Plugin.Proof.Rebuild
import NamPlug.Plugin.Chain
import NamPlug.Plugin.Proof.Carried
import NamPlug.Plugin.Proof.DryDelay
import NamPlug.Plugin.Proof.Landing
import NamPlug.Plugin.Proof.Fit
import NamPlug.Plugin.Proof.Restart
import NamPlug.Plugin.Proof.Twins
import NamPlug.Plugin.Proof.Numbering
import NamPlug.Plugin.Proof.Origin
import NamPlug.Plugin.Proof.Level
import NamPlug.Lib.Arrival
import NamPlug.Plugin.Proof.Line
import NamPlug.Plugin.Proof.Newest
import NamPlug.Plugin.Backlog
import NamPlug.Plugin.Proof.Backlog
import NamPlug.Plugin.Proof.Settle
import NamPlug.Plugin.Process
import NamPlug.Plugin.Proof.Quiescence
import NamPlug.Plugin.Proof.Recovered
import NamPlug.Plugin.Proof.Sequence
import NamPlug.Plugin.Proof.Requests
import NamPlug.Plugin.Proof.Targets
import NamPlug.Plugin.Proof.Prewarm
import NamPlug.Plugin.Proof.Temporal
import NamPlug.Plugin.Proof.Offline
import NamPlug.Plugin.Proof.Unbox
import NamPlug.Plugin.Proof.Loader
import NamPlug.Dsp.Proof.Crossfade
import NamPlug.Dsp.Proof.GainRamp
import NamPlug.Dsp.Proof.DryDelay
import NamPlug.Plugin.Proof.Scheduler
import NamPlug.Plugin.Proof.Display
import NamPlug.Plugin.Proof.Paths
import NamPlug.Dsp.Proof.DryLeg
import NamPlug.Receipt.Proof.Release
import NamPlug.Receipt.Proof.Verify
import NamPlug.State.Proof.Resolve
import NamPlug.State.Proof.Verified
import NamPlug.State.Save
import NamPlug.State.Proof.Identity
import NamPlug.State.Proof.RoundTrip
import NamPlug.Lib.Level
import NamPlug.Gui.Meters
import NamPlug.Gui.Heard
import NamPlug.Gui.Proof.Meters
import NamPlug.Lib.JsonText
import NamPlug.Receipt.LongWriter
import NamPlug.Receipt.Proof.Campaign
import NamPlug.Lib.Calendar
import NamPlug.Lib.Decimal
import NamPlug.Receipt.Clock
import NamPlug.Receipt.Proof.Clock
import NamPlug.Gui.Window
import NamPlug.Gui.Proof.Window
