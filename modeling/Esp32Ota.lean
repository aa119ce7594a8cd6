import Esp32Ota.Lib.Halting
import Esp32Ota.Lib.Simulation
import Esp32Ota.Lib.Heap
import Esp32Ota.Lib.Trace
import Esp32Ota.Iap
import Esp32Ota.Iap.Session
import Esp32Ota.Iap.Frame
import Esp32Ota.Iap.Invariant
import Esp32Ota.Iap.Commit
import Esp32Ota.WifiTls
import Esp32Ota.WifiTls.Connect
import Esp32Ota.WifiTls.Pinning
import Esp32Ota.WifiTls.Request
import Esp32Ota.WifiTls.Reads
import Esp32Ota.HttpsClient
import Esp32Ota.HttpsClient.Callback
import Esp32Ota.HttpsClient.BodyEnd
import Esp32Ota.HttpsClient.Fragmentation
import Esp32Ota.HttpsClient.Application
import Esp32Ota.HttpsClient.Wire
import Esp32Ota.HttpsClient.Related
import Esp32Ota.HttpsClient.Recorded
import Esp32Ota.HttpsClient.Protocol
import Esp32Ota.HttpsClient.Success
import Esp32Ota.HttpsClient.Completion
import Esp32Ota.HttpsClient.Terminator
import Esp32Ota.HttpsClient.Streaming
import Esp32Ota.IapHttps
import Esp32Ota.IapHttps.Callback
import Esp32Ota.IapHttps.Step
import Esp32Ota.IapHttps.Truncated
import Esp32Ota.IapHttps.Target
import Esp32Ota.IapHttps.Verified
import Esp32Ota.IapHttps.Session
import Esp32Ota.IapHttps.Installed
import Esp32Ota.IapHttps.Attempt
import Esp32Ota.IapHttps.Released
import Esp32Ota.IapHttps.Decision
import Esp32Ota.IapHttps.Progress
import Esp32Ota.HttpsClient.OneCall
import Esp32Ota.IapHttps.Metadata
import Esp32Ota.IapHttps.Task
import Esp32Ota.IapHttps.Polling
import Esp32Ota.IapHttps.Requests
import Esp32Ota.IapHttps.Announced
import Esp32Ota.IapHttps.History
import Esp32Ota.IapHttps.Period
import Esp32Ota.IapHttps.Malformed
import Esp32Ota.IapHttps.Document
import Esp32Ota.Lib.Scan
import Esp32Ota.IapHttps.RequestLine
import Esp32Ota.IapHttps.InRange
import Esp32Ota.Iap.Stream
import Esp32Ota.Lib.Response
import Esp32Ota.Lib.Footprint
import Esp32Ota.Lib.Print
import Esp32Ota.HttpsClient.Consumer
import Esp32Ota.HttpsClient.Memory
import Esp32Ota.WifiTls.Context
import Esp32Ota.WifiTls.Memory
import Esp32Ota.IapHttps.Served
import Esp32Ota.IapHttps.Setup
import Esp32Ota.IapHttps.Check
import Esp32Ota.IapHttps.Publication
import Esp32Ota.IapHttps.Delivery
import Esp32Ota.IapHttps.Update
import Esp32Ota.IapHttps.Memory
import Esp32Ota.WifiSta
import Esp32Ota.WifiSta.Init
import Esp32Ota.Main
import Esp32Ota.Main.Connected
import Esp32Ota.Main.Setup
import Esp32Ota.Main.Projection
import Esp32Ota.IapHttps.Impostor
import Esp32Ota.Main.Impostor
import Esp32Ota.Main.Survival
import Esp32Ota.Main.FirstCheck
import Esp32Ota.Main.Lost
import Esp32Ota.Main.Update
