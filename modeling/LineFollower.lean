import LineFollower.Lib.Transition
import LineFollower.Lib.Fairness
import LineFollower.Lib.Exchange
import LineFollower.Lib.Device
import LineFollower.Lib.Framing
import LineFollower.Lib.Rounding
import LineFollower.Lib.Cells
import LineFollower.Lib.Fields
import LineFollower.Lib.Largest
import LineFollower.Lib.Counted
import LineFollower.Lib.Lockstep
import LineFollower.Lib.Sampler
import LineFollower.Lib.Reader
import LineFollower.Lib.Triple
import LineFollower.Lib.Serial
import LineFollower.Lib.Layer
import LineFollower.Lib.View
import LineFollower.Lib.Client
import LineFollower.Host
import LineFollower.Pid.Controller
import LineFollower.Pid.Law
import LineFollower.Pid.Truncation
import LineFollower.Pid.Comparison
import LineFollower.Pid.Overflow
import LineFollower.Motors.Registers
import LineFollower.Motors.Spi
import LineFollower.Motors.Support
import LineFollower.Motors.Commands
import LineFollower.Motors.Config
import LineFollower.Motors.Board
import LineFollower.Motors.Chip
import LineFollower.Motors.RegisterFile
import LineFollower.Motors.DaisyChain
import LineFollower.Motors.Opcodes
import LineFollower.Motors.EmergencyStop
import LineFollower.Motors.Drive
import LineFollower.Motors.Position
import LineFollower.Motors.SetUp
import LineFollower.Motors.Fields
import LineFollower.Motors.Battery
import LineFollower.Motors.Motion
import LineFollower.Motors.Stop
import LineFollower.Motors.Selection
import LineFollower.Motors.Session
import LineFollower.Motors.MicroSteps
import LineFollower.Motors.Motions
import LineFollower.Motors.Settings
import LineFollower.Motors.Units
import LineFollower.Bcm2835.Registers
import LineFollower.Bcm2835.Spi
import LineFollower.Bcm2835.Controller
import LineFollower.Bcm2835.Transfer
import LineFollower.Bcm2835.Polled
import LineFollower.Bcm2835.Writenb
import LineFollower.Bcm2835.Timer
import LineFollower.Bcm2835.Gpio
import LineFollower.Bcm2835.Soc
import LineFollower.Motors.Line
import LineFollower.Motors.ShiftChain
import LineFollower.Motors.PowerUp
import LineFollower.Motors.Store
import LineFollower.Camera.OpenCv
import LineFollower.Camera.ContourFinding
import LineFollower.Camera.CenterFinding
import LineFollower.Camera.Centers
import LineFollower.Server.Steering
import LineFollower.Server.Loop
import LineFollower.Server.Points
import LineFollower.Server.Shutdown
import LineFollower.Server.Coordinates
import LineFollower.Server.Wheels
import LineFollower.Udp.Streamer
import LineFollower.Udp.Protocol
import LineFollower.Udp.Link
import LineFollower.Udp.Video
import LineFollower.Udp.Requests
import LineFollower.Udp.Client
import LineFollower.Server.Robot
