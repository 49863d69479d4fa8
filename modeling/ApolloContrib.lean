import ApolloContrib.Auth.Encrypt
import ApolloContrib.Auth.Manager
import ApolloContrib.Auth.Padding
import ApolloContrib.Auth.Proc
import ApolloContrib.Auth.Stamp
import ApolloContrib.Bcan.Atomic
import ApolloContrib.Bcan.ChannelState
import ApolloContrib.Bcan.Counts
import ApolloContrib.Bcan.Lib
import ApolloContrib.Cam.FlashRead
import ApolloContrib.Cam.Probe
import ApolloContrib.Can.Codec
import ApolloContrib.Can.DmaRx
import ApolloContrib.Can.Pio
import ApolloContrib.Can.PioShadow
import ApolloContrib.Can.RxConservation
import ApolloContrib.Can.RxInterleaving
import ApolloContrib.Can.RxQueue
import ApolloContrib.Can.RxRing
import ApolloContrib.Can.RxUser
import ApolloContrib.Can.RxWakeup
import ApolloContrib.Can.Timeout
import ApolloContrib.Can.TxBatch
import ApolloContrib.Can.TxClock
import ApolloContrib.Can.TxUser
import ApolloContrib.Chan.DmaBuf
import ApolloContrib.Chan.DmaRings
import ApolloContrib.Chan.ErrMask
import ApolloContrib.Chan.TxOrder
import ApolloContrib.Compensation.Accepted
import ApolloContrib.Compensation.Message
import ApolloContrib.Compensation.Motion
import ApolloContrib.Device.DeviceList
import ApolloContrib.Device.Probe
import ApolloContrib.Esd.Division
import ApolloContrib.Esd.Dpc
import ApolloContrib.Esd.DpcRefinement
import ApolloContrib.Esd.DpcSteps
import ApolloContrib.Esd.DpcWakeup
import ApolloContrib.Esd.Ocb
import ApolloContrib.Esd.OcbInvariant
import ApolloContrib.Esd.OcbReports
import ApolloContrib.Esd.OcbRuns
import ApolloContrib.Esd.Serial
import ApolloContrib.Esd.WorkQueue
import ApolloContrib.Firmware.Upload
import ApolloContrib.Gps.FpgaInit
import ApolloContrib.Gps.Sync
import ApolloContrib.Gps.SyncThread
import ApolloContrib.Intr.Acknowledge
import ApolloContrib.Intr.SetUp
import ApolloContrib.Intr.Tasklet
import ApolloContrib.Intr.Vectors
import ApolloContrib.Library.Access
import ApolloContrib.Library.Base64
import ApolloContrib.Library.Calendar
import ApolloContrib.Library.Circle
import ApolloContrib.Library.CountedQueue
import ApolloContrib.Library.Division
import ApolloContrib.Library.Ends
import ApolloContrib.Library.Fallible
import ApolloContrib.Library.Hex
import ApolloContrib.Library.Holding
import ApolloContrib.Library.Ieee
import ApolloContrib.Library.Istream
import ApolloContrib.Library.LinkedQueue
import ApolloContrib.Library.Memory
import ApolloContrib.Library.Monitor
import ApolloContrib.Library.Nearest
import ApolloContrib.Library.Ranking
import ApolloContrib.Library.Ring
import ApolloContrib.Library.Run
import ApolloContrib.Library.Scatter
import ApolloContrib.Library.Split
import ApolloContrib.Library.Window
import ApolloContrib.Lslidar.Decoder
import ApolloContrib.Lslidar.Driver
import ApolloContrib.Lslidar.Interpolation
import ApolloContrib.Lslidar.Packet
import ApolloContrib.Lslidar.Revolution
import ApolloContrib.Lslidar.Stamps
import ApolloContrib.Lslidar.Sweep
import ApolloContrib.Pandora.Calibration
import ApolloContrib.Pandora.Client
import ApolloContrib.Pandora.Command
import ApolloContrib.Pandora.Correction
import ApolloContrib.Pandora.Delivery
import ApolloContrib.Pandora.Packets
import ApolloContrib.Pandora.Picture
import ApolloContrib.Pandora.Pictures
import ApolloContrib.Pandora.Reassembly
import ApolloContrib.Pandora.Replies
import ApolloContrib.Pandora.Retrieval
import ApolloContrib.Pandora.Segmentation
import ApolloContrib.Pandora.Socket
import ApolloContrib.Pandora.Stream
import ApolloContrib.Pandora.Sweep
import ApolloContrib.Reg.Contained
import ApolloContrib.Reg.Registers
import ApolloContrib.Ros.Time
import ApolloContrib.Rslidar.Applied
import ApolloContrib.Rslidar.Assembled
import ApolloContrib.Rslidar.Assembly
import ApolloContrib.Rslidar.Calibration
import ApolloContrib.Rslidar.Columns
import ApolloContrib.Rslidar.Parser
import ApolloContrib.Security.Authentic
import ApolloContrib.Security.CertFile
import ApolloContrib.TrafficLight.Broadcast
import ApolloContrib.TrafficLight.Delay
import ApolloContrib.TrafficLight.LaneChoice
import ApolloContrib.TrafficLight.Lights
import ApolloContrib.TrafficLight.Messages
import ApolloContrib.TrafficLight.Policy
import ApolloContrib.TrafficLight.Read
import ApolloContrib.Trigger.Camera
import ApolloContrib.Trigger.Coherence
import ApolloContrib.Trigger.Divisors
import ApolloContrib.Trigger.WellFormed
import ApolloContrib.Uu.Bsm
import ApolloContrib.V2x.CmnQueue
import ApolloContrib.V2x.Handles
import ApolloContrib.V2x.Latest
import ApolloContrib.V2x.Ownership
import ApolloContrib.V2x.Refinement
import ApolloContrib.V2x.Table
import ApolloContrib.Velodyne.Calibration
import ApolloContrib.Velodyne.Driver
import ApolloContrib.Velodyne.RawData
import ApolloContrib.Velodyne.Returns
import ApolloContrib.Velodyne.ScanStamp
import ApolloContrib.Velodyne.View
import ApolloContrib.Video.Buffers
import ApolloContrib.Video.CopyFrames
import ApolloContrib.Video.CopyRx
import ApolloContrib.Video.DmaStart
import ApolloContrib.Video.DmaTables
import ApolloContrib.Video.InitRx
import ApolloContrib.Video.Ownership
import ApolloContrib.Video.PageTable
import ApolloContrib.Video.ZeroCopy
