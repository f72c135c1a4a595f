import ZephyrSamples.Lib.CString
import ZephyrSamples.Lib.Transition
import ZephyrSamples.Mqtt.Config
import ZephyrSamples.Mqtt.Device
import ZephyrSamples.Mqtt.Client
import ZephyrSamples.Mqtt.Process
import ZephyrSamples.Mqtt.Routing
import ZephyrSamples.Mqtt.Framing
import ZephyrSamples.Mqtt.Polling
import ZephyrSamples.Mqtt.Publish
import ZephyrSamples.Mqtt.Samples
import ZephyrSamples.Mqtt.Session
import ZephyrSamples.Mqtt.SessionInvariant
import ZephyrSamples.Mqtt.Numbering
import ZephyrSamples.Mqtt.InFlight
import ZephyrSamples.Mqtt.Schedule
import ZephyrSamples.Mqtt.KeepAlive
import ZephyrSamples.Mqtt.Connack
import ZephyrSamples.Mqtt.QosLevels
import ZephyrSamples.Mqtt.Payload
import ZephyrSamples.Mqtt.Pacing
import ZephyrSamples.Mqtt.Startup
import ZephyrSamples.Lib.Lines
import ZephyrSamples.Uart.Reception
import ZephyrSamples.Uart.Bounds
import ZephyrSamples.Uart.Dma
import ZephyrSamples.Net.TcpServer
import ZephyrSamples.Lib.Slist
import ZephyrSamples.Queues.Lifo
import ZephyrSamples.Queues.Fifo
import ZephyrSamples.Uart.Transmission
import ZephyrSamples.Uart.NetBuf
import ZephyrSamples.Queues.FillDrain
import ZephyrSamples.Queues.HeapQueue
import ZephyrSamples.Lib.Runs
import ZephyrSamples.Lib.EventGroup
import ZephyrSamples.Events.Signal
import ZephyrSamples.Events.Posting
import ZephyrSamples.Zbus.Subscriber
import ZephyrSamples.Zbus.TwoChannels
import ZephyrSamples.Lib.Wrap
import ZephyrSamples.Mqtt.Commands
import ZephyrSamples.Uart.LineBuffer
import ZephyrSamples.Uart.Overflow
import ZephyrSamples.Net.TlsSocket
import ZephyrSamples.Lib.Hsm
import ZephyrSamples.Smf.Machines
import ZephyrSamples.Lib.Mailbox
import ZephyrSamples.Smf.MessageMachine
import ZephyrSamples.Queues.Senders
import ZephyrSamples.Lib.Text
import ZephyrSamples.Net.EchoSession
import ZephyrSamples.Net.Udp
import ZephyrSamples.Uart.DmaTransmission
import ZephyrSamples.Uart.Interrupted
import ZephyrSamples.Wqueues.WorkData
import ZephyrSamples.Shell.Options
import ZephyrSamples.Events.Binary
import ZephyrSamples.Utils.Srng
import ZephyrSamples.Mqtt.Setup
import ZephyrSamples.Threads.Suspension
import ZephyrSamples.Net.EchoServer
import ZephyrSamples.Net.HttpServer
import ZephyrSamples.Net.HttpClient
import ZephyrSamples.Leds.Fade
