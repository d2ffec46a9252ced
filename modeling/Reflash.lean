import Reflash.Bench.Bus
import Reflash.Bench.Cameras
import Reflash.Bench.Digest
import Reflash.Bench.Host
import Reflash.Bench.Pattern
import Reflash.Bench.Script
import Reflash.Bytes
import Reflash.Calendar
import Reflash.Camera
import Reflash.Command
import Reflash.CommandLine
import Reflash.Crc32
import Reflash.Dfu.Download
import Reflash.Dfu.LoaderStatus
import Reflash.Dfu.Packet
import Reflash.Dfu.Status
import Reflash.Dfu.Wait
import Reflash.Disk
import Reflash.FileError
import Reflash.Firmware.Catalog
import Reflash.Firmware.ChunkPlan
import Reflash.Firmware.Image
import Reflash.Firmware.Version
import Reflash.Flash.Backup
import Reflash.Flash.Dump
import Reflash.Host
import Reflash.Log
import Reflash.Main
import Reflash.Monitor
import Reflash.Nanos
import Reflash.Product
import Reflash.Program
import Reflash.Reacquire
import Reflash.Session.Follower
import Reflash.Session.Record
import Reflash.Session.Update
import Reflash.Single
import Reflash.StopToken
import Reflash.Text.Blank
import Reflash.Text.Digits
import Reflash.Text.Quoted
import Reflash.Text.Unprintable
import Reflash.Usb.Bus
import Reflash.Usb.Camera
import Reflash.Usb.Hub
import Reflash.Usb.Products
import Reflash.Proofs.Runs
import Reflash.Proofs.Actions
import Reflash.Proofs.Dfu.Wire
import Reflash.Proofs.Dfu.StopAndWait
import Reflash.Proofs.Obliging
import Reflash.Proofs.Reacquire
import Reflash.Proofs.Flash.Backup
import Reflash.Proofs.Bytes
import Reflash.Proofs.Monitor
import Reflash.Proofs.Flash.Dump
import Reflash.Proofs.Session.Steps
import Reflash.Proofs.Session.Stages
import Reflash.Proofs.Session.Outcome
import Reflash.Proofs.Session.BackupFirst
import Reflash.Proofs.Dfu.Prepared
import Reflash.Proofs.Session.RightUnit
import Reflash.Proofs.Session.RightLine
import Reflash.Proofs.Session.Confirmed
import Reflash.Proofs.NextCall
import Reflash.Proofs.Stops
import Reflash.Proofs.Clock
import Reflash.Proofs.Dfu.Polling
import Reflash.Proofs.Dfu.Verdict
import Reflash.Proofs.Dfu.Rounds
import Reflash.Proofs.Session.Stopping
import Reflash.Proofs.Session.Resumption
import Reflash.Proofs.Session.Truncation
import Reflash.Proofs.Session.InTime
import Reflash.Proofs.Session.FinalRecord
import Reflash.Proofs.Session.DeadTask
import Reflash.Proofs.Guarded
import Reflash.Proofs.Session.AfterStop
import Reflash.Proofs.Expansion
import Reflash.Proofs.Flash.Relayed
import Reflash.Proofs.Usb.Calls
import Reflash.Proofs.Usb.Unsteady
import Reflash.Proofs.Usb.LateReplies
import Reflash.Proofs.Usb.Refusals
import Reflash.Proofs.Usb.BackupOnBus
import Reflash.Proofs.Rules
import Reflash.Proofs.Session.Records
import Reflash.Proofs.Session.Phases
import Reflash.Proofs.Bounds
import Reflash.Proofs.Session.Bounds
import Reflash.Proofs.Session.Observers
import Reflash.Proofs.Dfu.Callback
import Reflash.Proofs.Fractions
import Reflash.Proofs.Session.Progress
import Reflash.Proofs.Flash.Requests
import Reflash.Proofs.Deadline
import Reflash.Proofs.Dfu.BoundedWait
import Reflash.Proofs.BoundedSearch
import Reflash.Proofs.Commands
import Reflash.Proofs.Usb.Listed
import Reflash.Proofs.Usb.ReadOnly
import Reflash.Proofs.Firmware.Version
import Reflash.Proofs.Text
import Reflash.Proofs.Firmware.Catalog
import Reflash.Proofs.Listing
import Reflash.Proofs.Calendar
import Reflash.Proofs.Disk
import Reflash.Proofs.Drive
import Reflash.Proofs.Flash.BackupNames
import Reflash.Proofs.Flash.Persist
import Reflash.Proofs.Lookup
import Reflash.Proofs.FirmwareArguments
import Reflash.Proofs.Session.Sent
import Reflash.Proofs.NamedImage
import Reflash.Proofs.Session.Start
import Reflash.Proofs.Usb.Claims
import Reflash.Proofs.Usb.Framing
import Reflash.Proofs.Dfu.LoaderStatus
import Reflash.Proofs.Usb.Identity
import Reflash.Proofs.Usb.Returns
import Reflash.Proofs.Usb.Inventory
import Reflash.Proofs.Usb.Endpoints
import Reflash.Proofs.Dfu.StatusReply
import Reflash.Proofs.Usb.StatusReplies
import Reflash.Proofs.Flash.Confined
import Reflash.Proofs.Session.TerminalStates
