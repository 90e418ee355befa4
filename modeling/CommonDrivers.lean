import CommonDrivers.Lib.Bounds
import CommonDrivers.Lib.CFloat
import CommonDrivers.Lib.Checked
import CommonDrivers.Lib.Codec
import CommonDrivers.Lib.CtzList
import CommonDrivers.Lib.Decimal
import CommonDrivers.Lib.Exact
import CommonDrivers.Lib.Exec
import CommonDrivers.Lib.Flags
import CommonDrivers.Lib.Hoare
import CommonDrivers.Lib.Overlay
import CommonDrivers.Lib.Program
import CommonDrivers.Lib.Run
import CommonDrivers.Lib.Simulation
import CommonDrivers.Lib.Word
import CommonDrivers.Delay
import CommonDrivers.Log
import CommonDrivers.Protocol
import CommonDrivers.Protocols.Qspi
import CommonDrivers.Protocols.Spi
import CommonDrivers.Protocols.QspiCommand
import CommonDrivers.Protocols.SpiWire
import CommonDrivers.Protocols.SpiBoard
import CommonDrivers.Protocols.I2c
import CommonDrivers.Protocols.Uart
import CommonDrivers.Gd5f.Driver
import CommonDrivers.Gd5f.Device
import CommonDrivers.Gd5f.BlockDevice
import CommonDrivers.Gd5f.Errors
import CommonDrivers.Gd5f.LineMode
import CommonDrivers.Gd5f.Unlock
import CommonDrivers.Gd5f.Issued
import CommonDrivers.Gd5f.Chip
import CommonDrivers.Gd5f.SpiStack
import CommonDrivers.Gd5f.SharedBus
import CommonDrivers.Gd5f.Faults
import CommonDrivers.Gd5f.RoundTrip
import CommonDrivers.Flash.Offset
import CommonDrivers.Flash.Append
import CommonDrivers.Flash.Durability
import CommonDrivers.Flash.ShortWrite
import CommonDrivers.Flash.Storage
import CommonDrivers.Flash.BootCount
import CommonDrivers.Flash.Mount
import CommonDrivers.Sensors.Packet
import CommonDrivers.Sensors.PacketCodec
import CommonDrivers.Sensors.Gps
import CommonDrivers.Sensors.GpsBounds
import CommonDrivers.Sensors.GpsFields
import CommonDrivers.Sensors.GpsDecode
import CommonDrivers.Sensors.GpsLine
import CommonDrivers.Sensors.Bosch
import CommonDrivers.Sensors.BoschInit
import CommonDrivers.Sensors.FullScale
import CommonDrivers.Sensors.Altitude
import CommonDrivers.Sensors.Honest
import CommonDrivers.Tasks.DoubleBuffer
import CommonDrivers.Tasks.TornRead
import CommonDrivers.Tasks.StagedRegister
import CommonDrivers.Tasks.Registry
import CommonDrivers.Tasks.Delivery
import CommonDrivers.Tasks.SensorTask
import CommonDrivers.Tasks.SensorLoop
import CommonDrivers.Tasks.FlashTask
import CommonDrivers.Tasks.System
import CommonDrivers.Tasks.DeadTask
import CommonDrivers.Tasks.Telemetry
import CommonDrivers.Tasks.SavedPackets
import CommonDrivers.Tasks.PacketFile
import CommonDrivers.Tasks.SplitRead
import CommonDrivers.Tasks.Progress
import CommonDrivers.Tasks.Reboots
import CommonDrivers.Tasks.SensorSpan
import CommonDrivers.Tasks.Inertial
import CommonDrivers.Startup
