import K180.BinaryFloat.Rounding
import K180.BinaryFloat.Value
import K180.Json.Object
import K180.Libc.Inet
import K180.RestServer.Query
import K180.RestServer.Update
import K180.Libc.Stdio
import K180.RestServer.Messages
import K180.Schedule.Run
import K180.RestServer.Atomicity
import K180.RestServer.Lock
import K180.Libc.Ostream
import K180.UserCfg.Config
import K180.UserCfg.Validate
import K180.Libc.Math
import K180.UserCfg.Load
import K180.UserCfg.Acceptance
import K180.RestServer.Sections
import K180.UserCfg.Datarate
import K180.RestServer.CameraAgreement
import K180.Firmware.Bytes
import K180.Firmware.Package
import K180.Firmware.RoundTrip
import K180.Firmware.Authenticity
import K180.Firmware.Install
import K180.Rtsp.StreamKey
import K180.Rtsp.UdpPorts
import K180.Rtsp.ViewerAccounting
import K180.Osd.ExactResults
import K180.Osd.Hubs
import K180.Osd.Lifetime
import K180.Libc.Time
import K180.RestServer.Sessions
import K180.RestServer.SessionValidity
import K180.Rtsp.FpsGate
import K180.Rtsp.PtsDrift
import K180.BrightTuner.Range
import K180.BrightTuner.Convergence
import K180.Php.Value
import K180.Php.Numeric
import K180.Web.Setting
import K180.Web.Rewritten
import K180.Web.SavedConfig
import K180.RestServer.HelperStart
import K180.Netplan.Document
import K180.Netplan.Runs
import K180.Netplan.Current
import K180.RestServer.MergeLaws
import K180.RestServer.ReadBack
import K180.StageSync.Events
import K180.StageSync.Shutdown
import K180.InferPool.Ownership
import K180.Schedule.Progress
import K180.InferPool.Release
import K180.Osd.Fallback
import K180.BrightTuner.Mailbox
import K180.Rtsp.FpsRate
import K180.Rtsp.HubPts
import K180.BrightTuner.Trigger
import K180.Tracking.History
import K180.Seam.Epochs
import K180.Seam.Buffers
import K180.WarpPool.Reuse
import K180.Osd.BothAttach
import K180.StageSync.Signals
import K180.StageSync.Barrier
import K180.Firmware.Sizes
import K180.Recordings.Names
import K180.Stitch.Geometry
import K180.Users.Manage
import K180.Users.Interleaving
import K180.Users.Login
import K180.Recordings.Archives
import K180.RestServer.OneResponse
import K180.StageQueue.Law
import K180.RestServer.LoginTotal
import K180.BrightTuner.Hysteresis
import K180.Seam.Refresh
import K180.Trigger.Spacing
import K180.Recordings.Cleanup
import K180.Recordings.Paths
import K180.Recordings.DeleteAction
import K180.Threads.Program
import K180.Postprocess.Bounds
import K180.Postprocess.Nms
import K180.RestServer.RecFile
import K180.Libc.Digits
import K180.Libc.Reading
import K180.Rtsp.StreamPath
import K180.Rtsp.MountPaths
import K180.RestServer.Upload
import K180.Threads.Memory
import K180.Panorama.Kernels
import K180.Panorama.Gain
import K180.Panorama.Composition
import K180.Panorama.Result
import K180.Schedule.Totals
import K180.Blenders.Threads
import K180.Blenders.Circulation
import K180.Blenders.Wakeups
import K180.Blenders.Returns
import K180.Blenders.Shutdown
import K180.Yolo.Layer
import K180.Yolo.Records
import K180.Yolo.Kernel
import K180.Yolo.Forward
import K180.Yolo.Decoded
import K180.Yolo.Preprocess
import K180.Yolo.Letterbox
import K180.FileTree.Durable
import K180.Firmware.Processes
import K180.Firmware.CrashSafety
import K180.Web.Session
import K180.Web.Access
import K180.Recordings.CleanupThread
import K180.Frames.Order
import K180.Ledger.Accounts
import K180.Nvmm.Caches
import K180.Nvmm.Accounts
import K180.BrightTuner.Feedback
