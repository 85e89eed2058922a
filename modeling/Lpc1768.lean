import Lpc1768.Transition
import Lpc1768.Credit
import Lpc1768.Machine
import Lpc1768.Ring
import Lpc1768.Deframer
import Lpc1768.Framing
import Lpc1768.Deliveries
import Lpc1768.UdpClient
import Lpc1768.UdpSocket
import Lpc1768.EchoServer
import Lpc1768.Pbuf
import Lpc1768.TxRing
import Lpc1768.TxSafety
import Lpc1768.TxLifetime
import Lpc1768.RxDelivery
import Lpc1768.TxWire
import Lpc1768.RxCapacity
import Lpc1768.Critical
import Lpc1768.CString
import Lpc1768.DeviceConfig
import Lpc1768.DeviceInfo
import Lpc1768.Identity
import Lpc1768.EnetSys
import Lpc1768.WakeUp
import Lpc1768.ErrorRecovery
import Lpc1768.StartUp
import Lpc1768.UartFifo
import Lpc1768.ProgramImage
import Lpc1768.BootRecord
import Lpc1768.FlashBusy
import Lpc1768.BootAddress
import Lpc1768.DeviceReply
import Lpc1768.Acknowledge
import Lpc1768.PhyStatus
import Lpc1768.LinkDaemon
import Lpc1768.PhyReports
import Lpc1768.EventGroup
import Lpc1768.Watchdog
import Lpc1768.EnetInit
import Lpc1768.MdioClock
import Lpc1768.RxOwnership
import Lpc1768.RxRecovery
import Lpc1768.Heap4
import Lpc1768.HeapRuns
import Lpc1768.Checksum
import Lpc1768.UdpChecksum
import Lpc1768.IpHeader
import Lpc1768.PbufBytes
import Lpc1768.IcmpEcho
import Lpc1768.Queue
import Lpc1768.KernelList
