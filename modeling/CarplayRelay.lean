import CarplayRelay.Proto
import CarplayRelay.Lib.Chunks
import CarplayRelay.Media
import CarplayRelay.Client.Fragments
import CarplayRelay.Client.Framing
import CarplayRelay.Client.VideoQueue
import CarplayRelay.Crypto
import CarplayRelay.Lib.Run
import CarplayRelay.Firmware.TxRing
import CarplayRelay.Firmware.UsbStream
import CarplayRelay.Client.UsbTransport
import CarplayRelay.Server.Streaming
import CarplayRelay.CryptoInit
import CarplayRelay.Server.Sender
import CarplayRelay.Client.Reader
import CarplayRelay.Lib.Recv
import CarplayRelay.Lib.WebSocket
import CarplayRelay.WsClient
import CarplayRelay.Gateway.WsUpstreamClient
import CarplayRelay.Firmware.Connection
import CarplayRelay.Firmware.Upstream
import CarplayRelay.E2E.UpstreamFrames
import CarplayRelay.E2E.MediaSends
import CarplayRelay.E2E.UsbRelay
import CarplayRelay.Firmware.UsbFunction
import CarplayRelay.Firmware.Task
import CarplayRelay.Firmware.Watchdog
import CarplayRelay.E2E.UsbNonce
import CarplayRelay.E2E.StreamReset
import CarplayRelay.Gateway.Session
import CarplayRelay.E2E.TcpRelay
import CarplayRelay.Server.StopCommand
import CarplayRelay.Client.Reconnect
import CarplayRelay.Client.Resync
import CarplayRelay.Client.Startup
import CarplayRelay.Lib.Mutex
import CarplayRelay.Server.AudioPriority
import CarplayRelay.Lib.CInt
import CarplayRelay.Firmware.UsbLog
import CarplayRelay.E2E.UsbStartup
import CarplayRelay.Server.BitrateCtrl
import CarplayRelay.Lib.Find
import CarplayRelay.Server.AnnexB
import CarplayRelay.Gateway.AcceptLoop
import CarplayRelay.Client.AudioQueue
import CarplayRelay.Client.FragmentGroups
import CarplayRelay.Server.Commands
import CarplayRelay.E2E.MaskedFrames
import CarplayRelay.E2E.HandshakeStatus
import CarplayRelay.E2E.HeldFrames
import CarplayRelay.Firmware.UpstreamConfig
import CarplayRelay.E2E.ConfigPacket
import CarplayRelay.Server.AudioChunks
import CarplayRelay.E2E.AudioGaps
import CarplayRelay.E2E.NonceExchange
import CarplayRelay.Server.WsCompat
import CarplayRelay.Server.Osd
import CarplayRelay.Server.CharQueue
import CarplayRelay.Server.IntSqrt
import CarplayRelay.Firmware.TxFifo
import CarplayRelay.Firmware.CpuLoad
import CarplayRelay.CJson.Parser
import CarplayRelay.CJson.Safety
import CarplayRelay.CJson.Tokens
import CarplayRelay.CJson.Texts
import CarplayRelay.E2E.JsonTexts
import CarplayRelay.Client.DecoderStream
import CarplayRelay.E2E.FilePlayback
import CarplayRelay.Lib.Utf8
import CarplayRelay.Ws.Utf8
import CarplayRelay.Ws.Frames
import CarplayRelay.Ws.Reading
import CarplayRelay.Ws.Messages
import CarplayRelay.Ws.Session
import CarplayRelay.Lib.BlockHash
import CarplayRelay.Lib.Sha1
import CarplayRelay.Ws.Sha1
import CarplayRelay.Lib.Lines
import CarplayRelay.Ws.Handshake
import CarplayRelay.E2E.WsServer
