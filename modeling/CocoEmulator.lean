import CocoEmulator.Cpu.Emulation
import CocoEmulator.Cpu.IdleSkip
import CocoEmulator.Machine.Coco2Lines
import CocoEmulator.Disk.FailedMount
import CocoEmulator.Disk.Dirty
import CocoEmulator.DriveWire.Receive
import CocoEmulator.DriveWire.Transmit
import CocoEmulator.Storage.VhdStatus
import CocoEmulator.Debug.Rpc
import CocoEmulator.Sound.Ready
import CocoEmulator.Gime.Interrupts
import CocoEmulator.Machine.Coco3Memory
import CocoEmulator.Machine.Coco3Frame
import CocoEmulator.Machine.Coco2Memory
import CocoEmulator.Keyboard.Pacing
import CocoEmulator.Disk.Transfer
import CocoEmulator.Serial.Transmit
import CocoEmulator.Serial.Receive
import CocoEmulator.Gime.Timer
import CocoEmulator.Disk.Geometry
import CocoEmulator.Disk.Format
import CocoEmulator.Cpu.Division
import CocoEmulator.Audio.SampleOrder
import CocoEmulator.Cpu.BlockMove
import CocoEmulator.Net.PngWriter
import CocoEmulator.Sound.Ay8913
import CocoEmulator.Video.DisplayRow
import CocoEmulator.Audio.LineAverage
import CocoEmulator.Sound.Mixer
import CocoEmulator.Chip.Sam6883
import CocoEmulator.Sound.SscSamples
import CocoEmulator.Machine.Coco3Font
import CocoEmulator.Machine.Coco3Lines
import CocoEmulator.Disk.WriteProtect
import CocoEmulator.Disk.NmiEdge
import CocoEmulator.Cpu.InterruptFrame
import CocoEmulator.Cpu.CycleCounts
import CocoEmulator.Cpu.RunBudget
import CocoEmulator.Machine.DirectPaths
import CocoEmulator.Sound.CartridgeRuns
import CocoEmulator.Video.LineSkip
import CocoEmulator.Video.Frames
