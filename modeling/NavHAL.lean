import NavHAL.Flash.Store
import NavHAL.Lib.LogMap
import NavHAL.Flash.Layout
import NavHAL.Flash.Write
import NavHAL.Flash.FiniteMap
import NavHAL.Flash.Hole
import NavHAL.Flash.PowerCut
import NavHAL.Lib.Matcher
import NavHAL.Boot.Block
import NavHAL.Boot.Watcher
import NavHAL.Boot.Stage1
import NavHAL.Boot.Frame
import NavHAL.Boot.Cdc
import NavHAL.Flash.Raw
import NavHAL.Boot.Sha256
import NavHAL.Boot.Image
import NavHAL.Boot.Updater
import NavHAL.Boot.Targets
import NavHAL.Boot.Confinement
import NavHAL.Boot.Stage2
import NavHAL.Boot.Floor
import NavHAL.Lib.Steps
import NavHAL.Crc.Backends
import NavHAL.Arch.Timebase
import NavHAL.Usb.Device
import NavHAL.Usb.FlowControl
import NavHAL.Usb.LineCoding
import NavHAL.Lib.BitBank
import NavHAL.Arch.Interrupt
import NavHAL.Lib.BitField
import NavHAL.Lib.Cache
import NavHAL.Arch.Mpu
import NavHAL.Arch.Priority
import NavHAL.Rtc.Alarm
import NavHAL.Sdio.Driver
import NavHAL.Sdio.Completion
import NavHAL.Clock.Init
import NavHAL.Clock.Programmed
import NavHAL.Clock.Ceilings
import NavHAL.Clock.Reporting
import NavHAL.Arch.CacheWalk
import NavHAL.Dma.Coherence
import NavHAL.Dma.Stream
import NavHAL.Dma.UartTx
import NavHAL.Dma.I2cRead
import NavHAL.I2c.Transactions
import NavHAL.Lib.SlotRing
import NavHAL.Eth.Rings
import NavHAL.Arch.TickPeriod
import NavHAL.Clock.F7Init
import NavHAL.Clock.F7Ceilings
import NavHAL.Usb.InTransfers
import NavHAL.Flash.Compaction
import NavHAL.Flash.Ownership
import NavHAL.Boot.TornSeal
import NavHAL.Sdio.Refusal
import NavHAL.Lib.Polling
import NavHAL.Sdio.Port
import NavHAL.Sdio.Polled
import NavHAL.Sdio.CardInit
import NavHAL.Eth.Mdio
import NavHAL.Lib.NearestQuotient
import NavHAL.Clock.Solver
import NavHAL.Watchdog.Window
import NavHAL.Timer.Frequency
import NavHAL.Lib.BusyWait
import NavHAL.Arch.Delay
import NavHAL.Flash.HalfWords
import NavHAL.Clock.Rejected
import NavHAL.Avr.Eeprom
import NavHAL.Avr.KvMap
import NavHAL.Eth.Receive
import NavHAL.Lib.RingWalk
import NavHAL.Dma.UartRx
import NavHAL.Lib.Access
import NavHAL.I2c.F4Master
import NavHAL.I2c.GivenBack
import NavHAL.I2c.F4Receiver
import NavHAL.I2c.F4Reception
import NavHAL.I2c.F4Receive
import NavHAL.I2c.F7Lengths
import NavHAL.Dma.F7Reads
import NavHAL.Usb.BulkIn
import NavHAL.Usb.WriteCalls
import NavHAL.Usb.WriteFraming
import NavHAL.Uart.Backends
import NavHAL.Uart.BaudRate
import NavHAL.I2c.F4Timing
import NavHAL.Spi.Rate
import NavHAL.Pwm.Drivers
import NavHAL.Pwm.Frequency
import NavHAL.Ps2.Keyboard
import NavHAL.Ps2.Translation
import NavHAL.Lib.Decimal
import NavHAL.Utils.Conversion
import NavHAL.Usb.Handed
import NavHAL.Utils.Strings
import NavHAL.Lib.Limbs
import NavHAL.Lib.Ladder
import NavHAL.Lib.Edwards
import NavHAL.Crypto.F25519
import NavHAL.Crypto.Prime25519
import NavHAL.Crypto.Field
import NavHAL.Crypto.Ed25519
import NavHAL.Crypto.Fprime
import NavHAL.Crypto.Order
import NavHAL.Lib.Blocks
import NavHAL.Crypto.Sha512
import NavHAL.Crypto.Edsign
import NavHAL.Boot.CompactBackend
