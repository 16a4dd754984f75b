import Chip8.Config.Load
import Chip8.Document.Tree
import Chip8.Host
import Chip8.Listing
import Chip8.Machine.Build
import Chip8.Minimal
import Chip8.Screen.Frame
import Chip8.Proofs.Debugger.Clocks
import Chip8.Proofs.Debugger.Font
import Chip8.Proofs.Debugger.Undo
import Chip8.Proofs.Machine.Failure
import Chip8.Proofs.Bus.Record
import Chip8.Proofs.Machine.Effect
import Chip8.Proofs.Machine.Frame
import Chip8.Proofs.Machine.Snapshot
import Chip8.Proofs.Debugger.Course
import Chip8.Proofs.Debugger.Breakpoints
import Chip8.Proofs.Bus.Alike
import Chip8.Proofs.Machine.Pair
import Chip8.Proofs.Machine.Subroutine
import Chip8.Proofs.Screen.Strokes
import Chip8.Proofs.Screen.Sprite
import Chip8.Proofs.Machine.Interleaving
import Chip8.Proofs.Machine.Twin
import Chip8.Proofs.Machine.PowerCycle
import Chip8.Proofs.Machine.Dialect
import Chip8.Proofs.Machine.Listing
import Chip8.Proofs.Machine.Repaint
import Chip8.Proofs.Debugger.Redo
import Chip8.Proofs.Debugger.Extent
import Chip8.Proofs.Listing.Assembly
import Chip8.Proofs.Listing.Range
import Chip8.Proofs.Bus.Memory
import Chip8.Proofs.Config.Faults
import Chip8.Proofs.Machine.Word
import Chip8.Proofs.Machine.Arithmetic
import Chip8.Proofs.Machine.Draw
import Chip8.Proofs.Machine.Waiting
import Chip8.Proofs.Machine.Block
import Chip8.Proofs.Rom
import Chip8.Proofs.Bus.Undo
import Chip8.Proofs.Bus.Extent
import Chip8.Proofs.Machine.Loading
import Chip8.Proofs.Machine.Fetch
import Chip8.Proofs.Bus.Registration
import Chip8.Proofs.Screen.Frame
import Chip8.Proofs.Screen.Color
import Chip8.Proofs.Config.Field
import Chip8.Proofs.Config.Keys
import Chip8.Proofs.Config.Faithful
import Chip8.Proofs.Debugger.Registers
import Chip8.Proofs.Config.Integer
