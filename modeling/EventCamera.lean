import EventCamera.Json.CounterData
import EventCamera.Main
import EventCamera.Proofs.Console.FailedCommands
import EventCamera.Proofs.Console.Language
import EventCamera.Proofs.Engine.Accounts
import EventCamera.Proofs.Engine.Schedules
import EventCamera.Proofs.Handoff.Conservation
import EventCamera.Proofs.Handoff.Wakeups
import EventCamera.Proofs.Recording.Numbering
import EventCamera.Proofs.Recording.Run
import EventCamera.Proofs.Session.Isolation
import EventCamera.Proofs.Session.LivePath
import EventCamera.Proofs.Session.Shutdown
import EventCamera.Proofs.Session.Sizes
import EventCamera.Proofs.Session.Files
import EventCamera.Proofs.Settings
import EventCamera.Proofs.Window.Cadence
import EventCamera.Proofs.Window.Origins
import EventCamera.Proofs.Window.Partition
import EventCamera.Proofs.Window.Reuse
import EventCamera.Proofs.Bias.Walk
import EventCamera.Proofs.Files.Atomicity
import EventCamera.Proofs.Frame
import EventCamera.Proofs.Recording.Names
import EventCamera.Proofs.Recording.Storing
import EventCamera.Proofs.Files.Grounded
import EventCamera.Proofs.Recording.FreshRuns
import EventCamera.Proofs.Camera.Stream
import EventCamera.Proofs.Console.Keys
import EventCamera.Proofs.Console.Presets
import EventCamera.Proofs.Settings.Overrides
import EventCamera.Proofs.Console.Listing
import EventCamera.Proofs.Recording.Chronology
import EventCamera.Proofs.Recording.Images
import EventCamera.Proofs.Recording.WindowNames
import EventCamera.Proofs.Json.SensorData
import EventCamera.Proofs.Window.Passes
