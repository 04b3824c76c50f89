import HostBridge.Code.Run
import HostBridge.Session.Program

/-!
# The world of a session

Generated code sees one address space: the buffers of the session, the nodes of its functions, the
frames of the thread, and the bridge's own location. Frames and location are kept as such; their
bytes are made when code loads them, and taken back when code stores to them.
-/

namespace HostBridge

namespace Session

/-- Everything around the thread. -/
structure World where
  /-- Bytes outside the members of frames and the parts of the location. -/
  heap : Memory := .zero
  /-- The nodes in memory. -/
  nodes : List PlacedNode := []
  /-- Whether the nodes and the names of their files are as they were placed. -/
  intact : Bool := true
  /-- The current locations. -/
  locations : Locations := .unset
  /-- The process-wide bridge. -/
  installed : Option Bridge := none
  /-- The accumulator. -/
  acc : UInt64 := 0
  /-- Guards by the names that they are held under. -/
  guards : Dictionary FrameId := []
  /-- The log, newest entry first. -/
  log : List Entry := []

namespace Space

/-- Bytes between the starts of two buffers. -/
def bufferStride : UInt64 := 0x100000000

/-- The distance of the first thing in a window from its start. It keeps the low half of every
address different from zero. -/
def margin : UInt64 := 0x10000

/-- The address of the buffer with a number. -/
def bufferBase (index : Nat) : UInt64 := bufferStride * (.ofNat (index + 1)) + margin

/-- Where the window for code starts. -/
def codeBase : UInt64 := 0x700000000000 + margin

/-- The address of the function with a number. -/
def codeAddress (index : Nat) : UInt64 := codeBase + 16 * .ofNat index

/-- The number of the function at an address. -/
def codeIndex? (address : UInt64) : Option Nat :=
  let distance := address - codeBase
  if codeBase ≤ address ∧ distance < bufferStride ∧ distance % 16 = 0 then
    some (distance / 16).toNat
  else none

/-- Where the window for routines starts. -/
def routineBase : UInt64 := 0x710000000000 + margin

/-- The address of a routine. -/
def routineAddress (routine : Routine) : UInt64 :=
  routineBase + 16 * .ofNat (Routine.all.idxOf routine)

/-- The routine at an address. -/
def routineAt? (address : UInt64) : Option Routine :=
  Routine.all.find? fun routine => routineAddress routine == address

/-- The address of the bridge's own location. -/
def locationBase : UInt64 := 0x730000000000 + margin

/-- Where the window for frames starts. -/
def frameBase : UInt64 := 0x720000000000 + margin

/-- Bytes between the starts of two frames. -/
def frameStride : UInt64 := 64

/-- The address of the frame with a number. -/
def frameAddress (id : FrameId) : UInt64 := frameBase + frameStride * .ofNat id

/-- The number of the frame at an address, which need not exist. -/
def frameAt? (address : UInt64) : Option FrameId :=
  let distance := address - frameBase
  if frameBase ≤ address ∧ address < locationBase ∧ distance % frameStride = 0 then
    some (distance / frameStride).toNat
  else none

/-- The word of a link: the address of the frame, zero if there is none. -/
def linkWord : Link → UInt64
  | .none => 0
  | .frame id => frameAddress id
  | .wild bits => bits

/-- The link that a word stands for. -/
def linkAt (word : UInt64) : Link :=
  if word = 0 then .none
  else
    match frameAt? word with
    | some id => .frame id
    | none => .wild word

/-- The bytes of a frame, by their distance from its start. -/
def frameImage (frame : Frame) : Memory :=
  Memory.zero
    |>.store 0 8 (.ofNat frame.token.serial)
    |>.store 8 4 (.ofNat frame.token.depth)
    |>.store 16 8 frame.tag.bits
    |>.store 24 8 frame.result
    |>.store 32 8 (linkWord frame.prev)
    |>.store 40 4 frame.phaseCode.toUInt64
    |>.store 44 4 frame.exitCode.toUInt64
    |>.store 48 4 frame.armedWord.toUInt64

/-- Whether the byte at a distance from the start of a frame belongs to a member. -/
def inMember (distance : UInt64) : Bool :=
  distance < 12 || (16 ≤ distance && distance < 52)

/-- The byte of the window for frames at an address, if a member of a frame is there. -/
def frameByte? (address : UInt64) : List Frame → Option UInt8
  | [] => none
  | frame :: others =>
      let distance := address - frameAddress frame.id
      if inMember distance then some (frameImage frame distance) else frameByte? address others

/-- A frame with the words that memory holds for it. -/
def readFrame (memory : Memory) (frame : Frame) : Frame :=
  let base := frameAddress frame.id
  { id := frame.id
    token :=
      { serial := (memory.load base 8).toNat
        depth := (memory.load (base + 8) 4).toNat }
    tag := ⟨memory.load (base + 16) 8⟩
    result := memory.load (base + 24) 8
    prev := linkAt (memory.load (base + 32) 8)
    phaseCode := (memory.load (base + 40) 4).toUInt32
    exitCode := (memory.load (base + 44) 4).toUInt32
    armedWord := (memory.load (base + 48) 4).toUInt32 }

/-- Where the window for nodes starts. -/
def nodeBase : UInt64 := 0x740000000000 + margin + 0x5ab0

/-- Where the window for the names of their files starts. -/
def nameBase : UInt64 := 0x750000000000 + margin

/-- The bytes of the windows for nodes and names together. -/
def nodeSpan : UInt64 := 0x0a0000000000

/-- A node with the place for the node with a number. -/
def placeNode (index : Nat) (node : SourceNode) : PlacedNode :=
  { node
    address := nodeBase + 64 * .ofNat index
    fileAddress := nameBase + 0x1000000 * .ofNat index }

/-- Memory as generated code sees it. -/
def view (state : State World) : Memory := fun address =>
  match frameByte? address state.thread.frames with
  | some byte => byte
  | none =>
      let distance := address - locationBase
      if Location.inPart distance then (state.world.locations .bridge).image distance
      else state.world.heap address

/-- Whether a store of `count` bytes at `address` reaches into `size` bytes from `base` on. -/
def reaches (address : UInt64) (count : Nat) (base size : UInt64) : Bool :=
  address - base < size || base - address < .ofNat count

/-- The thread after a store. -/
def storeFrames (address : UInt64) (count : Nat) (memory : Memory) (thread : Thread) : Thread :=
  thread.mapFrames fun frame =>
    if reaches address count (frameAddress frame.id) frameStride then readFrame memory frame
    else frame

/-- The state after generated code has stored the low `count` bytes of a word. -/
def store (address : UInt64) (count : Nat) (bits : UInt64) (state : State World) : State World :=
  let memory := (view state).store address count bits
  let world := state.world
  { thread := storeFrames address count memory state.thread
    world :=
      { world with
        heap := world.heap.store address count bits
        intact := world.intact && !reaches address count nodeBase nodeSpan
        locations :=
          if reaches address count locationBase Location.size then
            world.locations.replace .bridge
              ((world.locations .bridge).reload memory locationBase)
          else world.locations } }

end Space

namespace World

/-- The bytes of the buffers at their addresses. -/
def fillBuffers (heap : Memory) : Nat → Dictionary (List UInt8) → Memory
  | _, [] => heap
  | index, (_, bytes) :: buffers =>
      fillBuffers (heap.write (Space.bufferBase index) bytes.toArray) (index + 1) buffers

/-- Put nodes in memory. -/
def addNodes (nodes : List PlacedNode) (world : World) : World :=
  { world with
    heap := nodes.foldl (fun heap placed => placed.write heap) world.heap
    nodes := world.nodes ++ nodes }

/-- What diagnostics show of the location of an owner. -/
def locationReport (world : World) (owner : LocationOwner) : Location.Report :=
  (world.locations owner).report world.intact world.heap world.nodes

/-- Add an entry to the log. -/
def record (entry : Entry) (world : World) : World :=
  { world with log := entry :: world.log }

/-- Set the accumulator. -/
def setAcc (bits : UInt64) (world : World) : World := { world with acc := bits }

/-- Hold a guard under a name. -/
def hold (name : String) (id : FrameId) (world : World) : World :=
  { world with guards := world.guards.insert name id }

/-- Hold no guard under a name. -/
def release (name : String) (world : World) : World :=
  { world with guards := world.guards.erase name }

end World

end Session

end HostBridge
