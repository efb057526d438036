import Bluepill.Clktree
import Bluepill.Lib.Forest
import Bluepill.Clktree.Propagation
import Bluepill.Clktree.Calls
import Bluepill.Clktree.Spec
import Bluepill.Rcc
import Bluepill.Rcc.Config
import Bluepill.Rcc.Spec
import Bluepill.Rcc.Clocks
import Bluepill.Rcc.Enable
import Bluepill.Gpio
import Bluepill.Exti
import Bluepill.Afio
import Bluepill.Uart
import Bluepill.Uart.Transmit
import Bluepill.Uart.Receive
import Bluepill.Dma
import Bluepill.Dma.Copy
import Bluepill.Uart.Delay
import Bluepill.Uart.Irq
import Bluepill.Rcc.Order
import Bluepill.Dma.Circular
import Bluepill.Dma.Flags
import Bluepill.Ptimer
import Bluepill.Timer
import Bluepill.Timer.Irq
import Bluepill.Timer.Stop
import Bluepill.Clktree.Users
import Bluepill.Rcc.Updates
import Bluepill.Board
import Bluepill.Uart.Baud
import Bluepill.Rcc.Range
import Bluepill.Uart.Divisor
import Bluepill.Rtc
import Bluepill.Rcc.RtcClock
import Bluepill.Gating
import Bluepill.Crc
import Bluepill.Iwdg
import Bluepill.Adc
import Bluepill.Adc.Irq
import Bluepill.Exti.Lines
import Bluepill.Inputs
import Bluepill.Dma.Channels
import Bluepill.Uart.Mapping
import Bluepill.Rcc.RoundTrip
import Bluepill.Systick
import Bluepill.Adc.Channel
import Bluepill.Exti.Requests
import Bluepill.Comunicacion
import Bluepill.Dac
import Bluepill.Dac.Channels
import Bluepill.Dma.Ring
import Bluepill.Rcc.Header
import Bluepill.Ptimer.Count
import Bluepill.Rcc.Backup
import Bluepill.Rtc.Flags
import Bluepill.Timer.Count
import Bluepill.Timer.Direction
import Bluepill.Dma.Items
import Bluepill.Adc.Halves
import Bluepill.Dac.Range
import Bluepill.Gpio.Trace
import Bluepill.Uart.Access
import Bluepill.Nvic.Request
import Bluepill.Nvic.Active
import Bluepill.Nvic.Lines
import Bluepill.Nvic.Clock
import Bluepill.Nvic.Vectors
import Bluepill.Cpu.Frame
import Bluepill.Cpu.Nesting
import Bluepill.QemuTimer
import Bluepill.QemuTimer.Expiry
import Bluepill.Firmware.Init
import Bluepill.Firmware.Echo
import Bluepill.Firmware.Print
import Bluepill.Firmware.Priorities
import Bluepill.Telnet
