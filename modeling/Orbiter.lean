import Orbiter.Cxx.Strings
import Orbiter.Cxx.Store
import Orbiter.Machine.Run
import Orbiter.Machine.Handoff
import Orbiter.Machine.FlushQueue
import Orbiter.Toolbox.Decode
import Orbiter.Toolbox.Grammar
import Orbiter.Toolbox.Layout
import Orbiter.Stimuli.Library
import Orbiter.Stimuli.Processing
import Orbiter.Stimuli.Playback
import Orbiter.Main.Remote
import Orbiter.Main.Timer
import Orbiter.Main.Movement
import Orbiter.Main.Threads
import Orbiter.Main.Receiver
import Orbiter.Main.Stimuli
import Orbiter.Main.Rejected
import Orbiter.Stimuli.Events
import Orbiter.Main.Events
import Orbiter.Stimuli.Heard
import Orbiter.Stimuli.Fmod
import Orbiter.Stimuli.Log
import Orbiter.Main.Bound
import Orbiter.Main.Starts
import Orbiter.Main.Inert
import Orbiter.Stimuli.Clocks
import Orbiter.Main.Generations
import Orbiter.Main.StopClock
import Orbiter.Motor.CMaxonMotor
import Orbiter.Motor.KeyHandle
import Orbiter.Tcp.TCPClient
import Orbiter.Main.Startup
import Orbiter.Cxx.Truncation
import Orbiter.Main.Rotation
import Orbiter.Main.InfraredReader
import Orbiter.Main.Keys
import Orbiter.Main.DigitBuffer
import Orbiter.Motor.Profile
import Orbiter.Stimuli.SampleRate
import Orbiter.Stimuli.SplitDuration
import Orbiter.Main.PlayingTime
import Orbiter.Stimuli.Sounds
import Orbiter.Stimuli.FailedLoad
import Orbiter.Main.Sounds
import Orbiter.Main.Presses
import Orbiter.Main.KeyNames
import Orbiter.Machine.Ranking
import Orbiter.Main.Settling
import Orbiter.Machine.Lockstep
import Orbiter.Main.Independence
import Orbiter.Main.Overflow
import Orbiter.Machine.Frames
import Orbiter.Lirc.NextCode
import Orbiter.Lirc.Session
import Orbiter.Lirc.IrFunc
import Orbiter.Lirc.Response
import Orbiter.Lirc.Command
import Orbiter.Lirc.Daemon
import Orbiter.Lirc.Directives
import Orbiter.Lirc.Served
import Orbiter.Lirc.Repeats
import Orbiter.Lirc.Exchange
import Orbiter.Motor.Orders
import Orbiter.Main.Commands
import Orbiter.Main.Loop
import Orbiter.Lirc.Polling
