import IioEmu.Foundation.Outcome
import Mathlib.Data.List.Nodup

/-! # How a failed device text is given up

The generator of a device text fills four arrays of strings, each with an array of lengths
beside it. Where a request fails it jumps to a label, and the labels fall through from the last
array to the first one. The buffer attributes and the debug attributes share a counter. -/

namespace IioEmu.GenXml

/-! ## Frames -/

inductive StringArray where
  | attrs
  | channels
  | bufferAttrs
  | debugAttrs
  deriving DecidableEq

inductive Counter where
  | i
  | j
  | k
  deriving DecidableEq

def StringArray.counter : StringArray → Counter
  | .attrs => .i
  | .channels => .j
  | .bufferAttrs | .debugAttrs => .k

/-- What is requested: the lengths of an array, the array itself, the string of an element, and
the memory of the result. -/
inductive Block where
  | lengths (array : StringArray)
  | strings (array : StringArray)
  | string (array : StringArray) (index : Nat)
  | result
  deriving DecidableEq

structure Counts where
  attrs : UInt32
  channels : UInt32
  bufferAttrs : UInt32
  debugAttrs : UInt32
  deriving DecidableEq

def Counts.of (counts : Counts) : StringArray → Nat
  | .attrs => counts.attrs.toNat
  | .channels => counts.channels.toNat
  | .bufferAttrs => counts.bufferAttrs.toNat
  | .debugAttrs => counts.debugAttrs.toNat

theorem Counts.of_lt (counts : Counts) (array : StringArray) :
    counts.of array < 2 ^ 32 := by
  cases array <;> exact UInt32.toNat_lt _

/-- The local variables, and what was obtained and released so far. -/
structure Frame where
  counters : Counter → Nat
  slots : StringArray → Nat → Option Block
  obtained : List Block
  released : List Block

namespace Frame

variable (frame : Frame)

def setCounter (counter : Counter) (value : Nat) : Frame :=
  { frame with
    counters := fun other => if other = counter then value else frame.counters other }

def store (array : StringArray) (index : Nat) (block : Block) : Frame :=
  { frame with slots := fun other position =>
      if other = array ∧ position = index then some block else frame.slots other position }

def free (block : Block) : Frame := { frame with released := frame.released ++ [block] }

def got (block : Block) : Frame := { frame with obtained := frame.obtained ++ [block] }

end Frame

/-! ## The labels -/

/-- `while (c--) free(array[c])` from a value of the counter. An element that was not stored
cannot be read. -/
def freeStrings (array : StringArray) : Nat → Frame → Outcome Frame
  | 0, frame => .ok frame
  | count + 1, frame =>
      match frame.slots array count with
      | some block => freeStrings array count (frame.free block)
      | none => .error .outOfBounds

/-- The loop leaves its counter behind zero. -/
def exhausted : Nat := 2 ^ 32 - 1

def freeArray (array : StringArray) (frame : Frame) : Outcome Frame := do
  let frame ← freeStrings array (frame.counters array.counter) frame
  return (frame.setCounter array.counter exhausted).free (.strings array)

def errFreeAttrsLen (frame : Frame) : Outcome Frame := .ok (frame.free (.lengths .attrs))

def errFreeAttrs (frame : Frame) : Outcome Frame :=
  freeArray .attrs frame >>= errFreeAttrsLen

def errFreeChannelsLen (frame : Frame) : Outcome Frame :=
  errFreeAttrs (frame.free (.lengths .channels))

def errFreeChannels (frame : Frame) : Outcome Frame :=
  freeArray .channels frame >>= errFreeChannelsLen

def errFreeBufferAttrsLen (frame : Frame) : Outcome Frame :=
  errFreeChannels (frame.free (.lengths .bufferAttrs))

def errFreeBufferAttrs (frame : Frame) : Outcome Frame :=
  freeArray .bufferAttrs frame >>= errFreeBufferAttrsLen

def errFreeDebugAttrsLen (frame : Frame) : Outcome Frame :=
  errFreeBufferAttrs (frame.free (.lengths .debugAttrs))

def errFreeDebugAttrs (frame : Frame) : Outcome Frame :=
  freeArray .debugAttrs frame >>= errFreeDebugAttrsLen

/-! ## The collection -/

/-- Collecting either goes on or has jumped to a label, with what became of it there. -/
abbrev Collected := Except (Outcome Frame) Frame

def request (fails block : Block) (label : Frame → Outcome Frame)
    (frame : Frame) : Collected :=
  if block = fails then .error (label frame) else .ok (frame.got block)

@[simp] theorem Collected.ok_bind (frame : Frame) (rest : Frame → Collected) :
    ((Except.ok frame : Collected) >>= rest) = rest frame := rfl

@[simp] theorem Collected.error_bind (outcome : Outcome Frame)
    (rest : Frame → Collected) :
    ((Except.error outcome : Collected) >>= rest) = .error outcome := rfl

theorem request_ok {fails block : Block} (obtains : block ≠ fails)
    (label : Frame → Outcome Frame) (frame : Frame) :
    request fails block label frame = .ok (frame.got block) := if_neg obtains

theorem request_failed (block : Block) (label : Frame → Outcome Frame) (frame : Frame) :
    request block block label frame = .error (label frame) := if_pos rfl

def collectStrings (fails : Block) (array : StringArray) (label : Frame → Outcome Frame) :
    Nat → Frame → Collected
  | 0, frame => .ok frame
  | passes + 1, frame => do
      let index := frame.counters array.counter
      let frame ← request fails (.string array index) label frame
      let frame := frame.store array index (.string array index)
      collectStrings fails array label passes
        (frame.setCounter array.counter ((index + 1) % 2 ^ 32))

def collectArray (fails : Block) (counts : Counts) (array : StringArray)
    (lengthsLabel stringsLabel stringLabel : Frame → Outcome Frame) (frame : Frame) :
    Collected := do
  let frame ← request fails (.lengths array) lengthsLabel frame
  let frame ← request fails (.strings array) stringsLabel frame
  collectStrings fails array stringLabel (counts.of array)
    (frame.setCounter array.counter 0)

/-- The requests up to the memory of the result. The first one returns without a label. -/
def iioDeviceGetXmlBlocks (fails : Block) (counts : Counts)
    (frame : Frame) : Collected := do
  let frame ← collectArray fails counts .attrs .ok errFreeAttrsLen errFreeAttrs frame
  let frame ← collectArray fails counts .channels
    errFreeAttrs errFreeChannelsLen errFreeChannels frame
  let frame ← collectArray fails counts .bufferAttrs
    errFreeChannels errFreeBufferAttrsLen errFreeBufferAttrs frame
  let frame ← collectArray fails counts .debugAttrs
    errFreeBufferAttrs errFreeDebugAttrsLen errFreeDebugAttrs frame
  request fails .result errFreeDebugAttrs frame

/-- The counters are not initialised. -/
def entry (counters : Counter → Nat) : Frame := ⟨counters, fun _ _ => none, [], []⟩

/-! ## What is collected -/

def strings (array : StringArray) (count : Nat) : List Block :=
  (List.range count).map (Block.string array)

def blocks (array : StringArray) (count : Nat) : List Block :=
  .lengths array :: .strings array :: strings array count

theorem strings_succ (array : StringArray) (count : Nat) :
    strings array (count + 1) = strings array count ++ [.string array count] := by
  simp [strings, List.range_succ]

def Frame.holding (frame : Frame) (array : StringArray) (count : Nat) : Frame where
  counters other := if other = array.counter then count else frame.counters other
  slots other position :=
    if other = array ∧ position < count then some (.string array position)
    else frame.slots other position
  obtained := frame.obtained ++ strings array count
  released := frame.released

theorem holding_succ (frame : Frame) (array : StringArray) (count : Nat) :
    ((((frame.holding array count).got (.string array count)).store array count
      (.string array count)).setCounter array.counter (count + 1)) =
        frame.holding array (count + 1) := by
  simp only [Frame.holding, Frame.got, Frame.store, Frame.setCounter, strings_succ,
    List.append_assoc, Frame.mk.injEq, and_true]
  constructor
  · funext other
    split <;> rfl
  · funext other position
    by_cases same : other = array
    · subst same
      by_cases last : position = count
      · subst last
        simp
      · have before : position < count + 1 ↔ position < count := by omega
        simp [last, before]
    · simp [same]

theorem counter_holding (frame : Frame) (array : StringArray) (count : Nat) :
    (frame.holding array count).counters array.counter = count := if_pos rfl

section Collection

variable {fails : Block} {array : StringArray}
  {label : Frame → Outcome Frame} {frame : Frame}

theorem collectStrings_ok {start passes : Nat} (bounded : start + passes < 2 ^ 32)
    (succeeds : ∀ index, index < start + passes → Block.string array index ≠ fails) :
    collectStrings fails array label passes (frame.holding array start) =
      .ok (frame.holding array (start + passes)) := by
  induction passes generalizing start with
  | zero => rfl
  | succ passes induction =>
      have together : start + (passes + 1) = start + 1 + passes := by omega
      rw [together] at bounded succeeds ⊢
      rw [collectStrings, counter_holding]
      simp only [request_ok (succeeds start (by omega)), Collected.ok_bind,
        Nat.mod_eq_of_lt (show start + 1 < 2 ^ 32 by omega), holding_succ]
      exact induction bounded succeeds

theorem collectStrings_failed {start passes index : Nat}
    (bounded : start + passes < 2 ^ 32) (reached : start ≤ index)
    (inside : index < start + passes) :
    collectStrings (.string array index) array label passes (frame.holding array start) =
      .error (label (frame.holding array index)) := by
  induction passes generalizing start with
  | zero => omega
  | succ passes induction =>
      rw [collectStrings, counter_holding]
      by_cases here : start = index
      · subst here
        rw [request_failed]
        rfl
      · have obtains : Block.string array start ≠ .string array index := by
          simpa using here
        simp only [request_ok obtains, Collected.ok_bind,
          Nat.mod_eq_of_lt (show start + 1 < 2 ^ 32 by omega), holding_succ]
        exact induction (by omega) (by omega) (by omega)

variable {counts : Counts} {lengthsLabel stringsLabel stringLabel : Frame → Outcome Frame}

def Frame.collecting (frame : Frame) (array : StringArray) (count : Nat) : Frame :=
  ((frame.got (.lengths array)).got (.strings array)).holding array count

theorem setCounter_eq_holding (frame : Frame) (array : StringArray) :
    frame.setCounter array.counter 0 = frame.holding array 0 := by
  simp [Frame.setCounter, Frame.holding, strings]

theorem collectArray_ok (succeeds : fails ∉ blocks array (counts.of array)) :
    collectArray fails counts array lengthsLabel stringsLabel stringLabel frame =
      .ok (frame.collecting array (counts.of array)) := by
  have lengths : Block.lengths array ≠ fails := by
    rintro rfl
    exact succeeds List.mem_cons_self
  have pointers : Block.strings array ≠ fails := by
    rintro rfl
    exact succeeds (List.mem_cons_of_mem _ List.mem_cons_self)
  have elements : ∀ index, index < 0 + counts.of array →
      Block.string array index ≠ fails := by
    rintro index inside rfl
    apply succeeds
    simpa [blocks, strings] using inside
  have bounded : 0 + counts.of array < 2 ^ 32 := by
    have bound := counts.of_lt array
    omega
  rw [collectArray, request_ok lengths, Collected.ok_bind,
    request_ok pointers, Collected.ok_bind, setCounter_eq_holding,
    collectStrings_ok bounded elements, Nat.zero_add]
  rfl

theorem collectArray_lengths :
    collectArray (.lengths array) counts array lengthsLabel stringsLabel stringLabel frame =
      .error (lengthsLabel frame) := by
  rw [collectArray, request_failed]
  rfl

theorem collectArray_strings :
    collectArray (.strings array) counts array lengthsLabel stringsLabel stringLabel frame =
      .error (stringsLabel (frame.got (.lengths array))) := by
  rw [collectArray, request_ok (by simp), Collected.ok_bind, request_failed]
  rfl

theorem collectArray_string {index : Nat} (inside : index < counts.of array) :
    collectArray (.string array index) counts array lengthsLabel
      stringsLabel stringLabel frame =
      .error (stringLabel (frame.collecting array index)) := by
  have bounded : 0 + counts.of array < 2 ^ 32 := by
    have bound := counts.of_lt array
    omega
  rw [collectArray, request_ok (by simp), Collected.ok_bind, request_ok (by simp),
    Collected.ok_bind, setCounter_eq_holding,
    collectStrings_failed bounded (Nat.zero_le _) (by omega)]
  rfl

end Collection

/-! ## Where the labels are entered from -/

section Points

variable (counts : Counts) (frame : Frame)

def Frame.withAttrs : Frame := frame.collecting .attrs (counts.of .attrs)

def Frame.withChannels : Frame :=
  (frame.withAttrs counts).collecting .channels (counts.of .channels)

def Frame.withBufferAttrs : Frame :=
  (frame.withChannels counts).collecting .bufferAttrs (counts.of .bufferAttrs)

def Frame.withDebugAttrs : Frame :=
  (frame.withBufferAttrs counts).collecting .debugAttrs (counts.of .debugAttrs)

def points : List Block :=
  blocks .attrs (counts.of .attrs) ++ blocks .channels (counts.of .channels) ++
    blocks .bufferAttrs (counts.of .bufferAttrs) ++
    blocks .debugAttrs (counts.of .debugAttrs) ++
    [.result]

/-- The label that a failed request jumps to, with the frame at the jump. -/
def jump : Block → Outcome Frame
  | .lengths .attrs => .ok frame
  | .strings .attrs => errFreeAttrsLen (frame.got (.lengths .attrs))
  | .string .attrs index => errFreeAttrs (frame.collecting .attrs index)
  | .lengths .channels => errFreeAttrs (frame.withAttrs counts)
  | .strings .channels =>
    errFreeChannelsLen ((frame.withAttrs counts).got (.lengths .channels))
  | .string .channels index =>
    errFreeChannels ((frame.withAttrs counts).collecting .channels index)
  | .lengths .bufferAttrs => errFreeChannels (frame.withChannels counts)
  | .strings .bufferAttrs =>
      errFreeBufferAttrsLen ((frame.withChannels counts).got (.lengths .bufferAttrs))
  | .string .bufferAttrs index =>
      errFreeBufferAttrs ((frame.withChannels counts).collecting .bufferAttrs index)
  | .lengths .debugAttrs => errFreeBufferAttrs (frame.withBufferAttrs counts)
  | .strings .debugAttrs =>
      errFreeDebugAttrsLen ((frame.withBufferAttrs counts).got (.lengths .debugAttrs))
  | .string .debugAttrs index =>
      errFreeDebugAttrs ((frame.withBufferAttrs counts).collecting .debugAttrs index)
  | .result => errFreeDebugAttrs (frame.withDebugAttrs counts)

variable {counts}

theorem mem_blocks {array : StringArray} {count : Nat} {block : Block} :
    block ∈ blocks array count ↔ block = .lengths array ∨ block = .strings array ∨
      ∃ index, index < count ∧ block = .string array index := by
  simp [blocks, strings, eq_comm]

theorem not_mem_blocks {array other : StringArray}
    (different : array ≠ other) {count : Nat} {block : Block}
    (member : ∃ size, block ∈ blocks array size) : block ∉ blocks other count := by
  rcases member with ⟨size, member⟩
  rcases mem_blocks.mp member with rfl | rfl | ⟨index, _, rfl⟩ <;>
    simp [mem_blocks, different]

section Failed

variable {frame : Frame} {fails : Block} {outcome : Outcome Frame}

theorem failed_in_attrs
    (failed : collectArray fails counts .attrs .ok errFreeAttrsLen errFreeAttrs frame =
      .error outcome) : iioDeviceGetXmlBlocks fails counts frame = .error outcome := by
  rw [iioDeviceGetXmlBlocks, failed]
  rfl

theorem failed_in_channels (member : ∃ size, fails ∈ blocks .channels size)
    (failed : collectArray fails counts .channels errFreeAttrs errFreeChannelsLen
      errFreeChannels (frame.withAttrs counts) = .error outcome) :
    iioDeviceGetXmlBlocks fails counts frame = .error outcome := by
  rw [iioDeviceGetXmlBlocks, collectArray_ok (not_mem_blocks (by decide) member),
    Collected.ok_bind]
  rw [Frame.withAttrs] at failed
  rw [failed]
  rfl

theorem failed_in_bufferAttrs (member : ∃ size, fails ∈ blocks .bufferAttrs size)
    (failed : collectArray fails counts .bufferAttrs errFreeChannels errFreeBufferAttrsLen
      errFreeBufferAttrs (frame.withChannels counts) = .error outcome) :
    iioDeviceGetXmlBlocks fails counts frame = .error outcome := by
  rw [iioDeviceGetXmlBlocks, collectArray_ok (not_mem_blocks (by decide) member),
    Collected.ok_bind,
    collectArray_ok (not_mem_blocks (by decide) member), Collected.ok_bind]
  rw [Frame.withChannels, Frame.withAttrs] at failed
  rw [failed]
  rfl

theorem failed_in_debugAttrs (member : ∃ size, fails ∈ blocks .debugAttrs size)
    (failed : collectArray fails counts .debugAttrs errFreeBufferAttrs errFreeDebugAttrsLen
      errFreeDebugAttrs (frame.withBufferAttrs counts) = .error outcome) :
    iioDeviceGetXmlBlocks fails counts frame = .error outcome := by
  rw [iioDeviceGetXmlBlocks, collectArray_ok (not_mem_blocks (by decide) member),
    Collected.ok_bind,
    collectArray_ok (not_mem_blocks (by decide) member), Collected.ok_bind,
    collectArray_ok (not_mem_blocks (by decide) member), Collected.ok_bind]
  rw [Frame.withBufferAttrs, Frame.withChannels, Frame.withAttrs] at failed
  rw [failed]
  rfl

theorem failed_in_array {array : StringArray} {block : Block}
    (member : block ∈ blocks array (counts.of array)) :
    iioDeviceGetXmlBlocks block counts frame = .error (jump counts frame block) := by
  have size : ∃ size, block ∈ blocks array size := ⟨_, member⟩
  rcases mem_blocks.mp member with rfl | rfl | ⟨index, inside, rfl⟩
  · cases array with
    | attrs => exact failed_in_attrs collectArray_lengths
    | channels => exact failed_in_channels size collectArray_lengths
    | bufferAttrs => exact failed_in_bufferAttrs size collectArray_lengths
    | debugAttrs => exact failed_in_debugAttrs size collectArray_lengths
  · cases array with
    | attrs => exact failed_in_attrs collectArray_strings
    | channels => exact failed_in_channels size collectArray_strings
    | bufferAttrs => exact failed_in_bufferAttrs size collectArray_strings
    | debugAttrs => exact failed_in_debugAttrs size collectArray_strings
  · cases array with
    | attrs => exact failed_in_attrs (collectArray_string inside)
    | channels => exact failed_in_channels size (collectArray_string inside)
    | bufferAttrs => exact failed_in_bufferAttrs size (collectArray_string inside)
    | debugAttrs => exact failed_in_debugAttrs size (collectArray_string inside)

theorem iioDeviceGetXmlBlocks_ok (succeeds : fails ∉ points counts) :
    iioDeviceGetXmlBlocks fails counts frame =
      .ok ((frame.withDebugAttrs counts).got .result) := by
  simp only [points, List.mem_append, List.mem_singleton, not_or] at succeeds
  rcases succeeds with ⟨⟨⟨⟨attrs, channels⟩, bufferAttrs⟩, debugAttrs⟩, result⟩
  rw [iioDeviceGetXmlBlocks, collectArray_ok attrs, Collected.ok_bind,
    collectArray_ok channels, Collected.ok_bind,
    collectArray_ok bufferAttrs, Collected.ok_bind,
    collectArray_ok debugAttrs, Collected.ok_bind, request_ok (Ne.symm result)]
  rfl

theorem failed_at_result :
    iioDeviceGetXmlBlocks .result counts frame = .error (jump counts frame .result) := by
  have elsewhere (array : StringArray) (count : Nat) :
      Block.result ∉ blocks array count := by
    simp [mem_blocks]
  rw [iioDeviceGetXmlBlocks, collectArray_ok (elsewhere _ _), Collected.ok_bind,
    collectArray_ok (elsewhere _ _), Collected.ok_bind, collectArray_ok (elsewhere _ _),
    Collected.ok_bind, collectArray_ok (elsewhere _ _), Collected.ok_bind, request_failed]
  rfl

theorem iioDeviceGetXmlBlocks_failed (point : fails ∈ points counts) :
    iioDeviceGetXmlBlocks fails counts frame = .error (jump counts frame fails) := by
  simp only [points, List.mem_append, List.mem_singleton] at point
  rcases point with (((attrs | channels) | bufferAttrs) | debugAttrs) | rfl
  · exact failed_in_array attrs
  · exact failed_in_array channels
  · exact failed_in_array bufferAttrs
  · exact failed_in_array debugAttrs
  · exact failed_at_result

end Failed

end Points

/-! ## What a label releases -/

structure Frame.Has (frame : Frame) (array : StringArray) (count : Nat) : Prop where
  counter : frame.counters array.counter = count
  slots : ∀ position, position < count →
    frame.slots array position = some (.string array position)

def Releases (label : Frame → Outcome Frame) (frame : Frame)
    (freed : List Block) : Prop :=
  ∃ next, label frame = .ok next ∧ next.obtained = frame.obtained ∧
    next.released = frame.released ++ freed

section Releasing

variable {frame : Frame} {array : StringArray} {count : Nat}
  {label : Frame → Outcome Frame}
  {freed : List Block}

theorem freeStrings_eq (stored : ∀ position, position < count →
      frame.slots array position = some (.string array position)) :
    freeStrings array count frame =
      .ok { frame with released := frame.released ++ (strings array count).reverse } := by
  induction count generalizing frame with
  | zero => simp [freeStrings, strings]
  | succ count induction =>
      have rest := @induction (frame.free (.string array count))
        (fun position inside => stored position (by omega))
      rw [freeStrings, stored count (by omega)]
      simp only [rest, strings_succ]
      simp [Frame.free]

theorem freeStrings_missing (positive : 0 < count)
    (missing : frame.slots array (count - 1) = none) :
    freeStrings array count frame = .error .outOfBounds := by
  cases count with
  | zero => omega
  | succ count =>
      rw [freeStrings, show frame.slots array count = none from missing]

def Frame.without (frame : Frame) (array : StringArray) (count : Nat) : Frame :=
  ({ frame with
      released := frame.released ++ (strings array count).reverse }.setCounter array.counter
        exhausted).free (.strings array)

theorem freeArray_eq (has : frame.Has array count) :
    freeArray array frame = .ok (frame.without array count) := by
  rw [freeArray, has.counter, freeStrings_eq has.slots]
  rfl

theorem Frame.Has.free (has : frame.Has array count) (block : Block) :
    (frame.free block).Has array count := ⟨has.counter, has.slots⟩

theorem Frame.Has.got (has : frame.Has array count) (block : Block) :
    (frame.got block).Has array count := ⟨has.counter, has.slots⟩

theorem Frame.Has.without (has : frame.Has array count) {other : StringArray}
    (different : array.counter ≠ other.counter) (size : Nat) :
    (frame.without other size).Has array count := by
  refine ⟨?_, has.slots⟩
  rw [← has.counter]
  exact if_neg different

theorem Releases.afterFree {block : Block}
    (releases : Releases label (frame.free block) freed) :
    Releases (fun frame => label (frame.free block)) frame (block :: freed) := by
  rcases releases with ⟨next, returned, obtained, released⟩
  refine ⟨next, returned, obtained, ?_⟩
  rw [released]
  simp [Frame.free]

theorem Releases.afterArray (has : frame.Has array count)
    (releases : Releases label (frame.without array count) freed) :
    Releases (fun frame => freeArray array frame >>= label) frame
      ((strings array count).reverse ++ .strings array :: freed) := by
  rcases releases with ⟨next, returned, obtained, released⟩
  refine ⟨next, ?_, obtained, ?_⟩
  · simp only [freeArray_eq has, Outcome.ok_bind, returned]
  · rw [released]
    simp [Frame.without, Frame.setCounter, Frame.free]

theorem reverse_blocks_append (array : StringArray) (count : Nat) (freed : List Block) :
    (blocks array count).reverse ++ freed =
      (strings array count).reverse ++ .strings array :: .lengths array :: freed := by
  simp [blocks]

variable {attrs channels bufferAttrs : Nat}

theorem errFreeAttrsLen_releases : Releases errFreeAttrsLen frame [.lengths .attrs] :=
  ⟨_, rfl, rfl, rfl⟩

theorem errFreeAttrs_releases (hasAttrs : frame.Has .attrs attrs) :
    Releases errFreeAttrs frame (blocks .attrs attrs).reverse := by
  have releases := Releases.afterArray hasAttrs errFreeAttrsLen_releases
  rwa [← reverse_blocks_append, List.append_nil] at releases

theorem errFreeChannelsLen_releases (hasAttrs : frame.Has .attrs attrs) :
    Releases errFreeChannelsLen frame
      (.lengths .channels :: (blocks .attrs attrs).reverse) :=
  Releases.afterFree (errFreeAttrs_releases (hasAttrs.free _))

theorem errFreeChannels_releases (hasAttrs : frame.Has .attrs attrs)
    (hasChannels : frame.Has .channels channels) :
    Releases errFreeChannels frame
      ((blocks .channels channels).reverse ++ (blocks .attrs attrs).reverse) := by
  rw [reverse_blocks_append]
  exact Releases.afterArray hasChannels
    (errFreeChannelsLen_releases (hasAttrs.without (by decide) channels))

theorem errFreeBufferAttrsLen_releases (hasAttrs : frame.Has .attrs attrs)
    (hasChannels : frame.Has .channels channels) :
    Releases errFreeBufferAttrsLen frame (.lengths .bufferAttrs ::
      ((blocks .channels channels).reverse ++ (blocks .attrs attrs).reverse)) :=
  Releases.afterFree (errFreeChannels_releases (hasAttrs.free _) (hasChannels.free _))

theorem errFreeBufferAttrs_releases (hasAttrs : frame.Has .attrs attrs)
    (hasChannels : frame.Has .channels channels)
    (hasBufferAttrs : frame.Has .bufferAttrs bufferAttrs) :
    Releases errFreeBufferAttrs frame ((blocks .bufferAttrs bufferAttrs).reverse ++
      ((blocks .channels channels).reverse ++ (blocks .attrs attrs).reverse)) := by
  rw [reverse_blocks_append]
  exact Releases.afterArray hasBufferAttrs (errFreeBufferAttrsLen_releases
    (hasAttrs.without (by decide) bufferAttrs)
      (hasChannels.without (by decide) bufferAttrs))

theorem errFreeDebugAttrsLen_releases (hasAttrs : frame.Has .attrs attrs)
    (hasChannels : frame.Has .channels channels)
    (hasBufferAttrs : frame.Has .bufferAttrs bufferAttrs) :
    Releases errFreeDebugAttrsLen frame (.lengths .debugAttrs ::
      ((blocks .bufferAttrs bufferAttrs).reverse ++
        ((blocks .channels channels).reverse ++ (blocks .attrs attrs).reverse))) :=
  Releases.afterFree (errFreeBufferAttrs_releases (hasAttrs.free _) (hasChannels.free _)
    (hasBufferAttrs.free _))

/-- The loop over the debug attributes leaves the shared counter behind zero, so that the next
loop starts at the largest number of buffer attributes there can be. -/
theorem errFreeDebugAttrs_releases {debugAttrs : Nat} (hasAttrs : frame.Has .attrs attrs)
    (hasChannels : frame.Has .channels channels)
    (bufferAttrs : ∀ position, position < exhausted →
      frame.slots .bufferAttrs position = some (.string .bufferAttrs position))
    (hasDebugAttrs : frame.Has .debugAttrs debugAttrs) :
    Releases errFreeDebugAttrs frame ((blocks .debugAttrs debugAttrs).reverse ++
      ((blocks .bufferAttrs exhausted).reverse ++
        ((blocks .channels channels).reverse ++ (blocks .attrs attrs).reverse))) := by
  have wrapped : (frame.without .debugAttrs debugAttrs).Has .bufferAttrs exhausted :=
    ⟨rfl, bufferAttrs⟩
  rw [reverse_blocks_append]
  exact Releases.afterArray hasDebugAttrs (errFreeDebugAttrsLen_releases
    (hasAttrs.without (by decide) debugAttrs) (hasChannels.without (by decide) debugAttrs)
    wrapped)

theorem errFreeDebugAttrs_missing {debugAttrs : Nat}
    (hasDebugAttrs : frame.Has .debugAttrs debugAttrs)
    (missing : frame.slots .bufferAttrs (exhausted - 1) = none) :
    errFreeDebugAttrs frame = .error .outOfBounds := by
  have positive : 0 < exhausted := by
    rw [exhausted]
    omega
  have wrapped :
      ((frame.without .debugAttrs debugAttrs).free (.lengths .debugAttrs)).counters
      StringArray.bufferAttrs.counter = exhausted := rfl
  have firstRead := @freeStrings_missing
    ((frame.without .debugAttrs debugAttrs).free (.lengths .debugAttrs))
      .bufferAttrs exhausted
    positive missing
  rw [errFreeDebugAttrs, freeArray_eq hasDebugAttrs, Outcome.ok_bind,
    errFreeDebugAttrsLen, errFreeBufferAttrs, freeArray, wrapped, firstRead]
  rfl

end Releasing

/-! ## Frames at the jumps -/

section Jumps

variable {frame : Frame} {array other : StringArray} {count : Nat}

theorem obtained_collecting (frame : Frame) (array : StringArray) (count : Nat) :
    (frame.collecting array count).obtained = frame.obtained ++ blocks array count := by
  simp [Frame.collecting, Frame.holding, Frame.got, blocks]

theorem has_collecting (frame : Frame) (array : StringArray) (count : Nat) :
    (frame.collecting array count).Has array count :=
  ⟨if_pos rfl, fun _ inside => if_pos ⟨rfl, inside⟩⟩

theorem slots_collecting_of_ne (different : array ≠ other) (size position : Nat) :
    (frame.collecting other size).slots array position = frame.slots array position :=
  if_neg fun both => different both.1

theorem Frame.Has.collecting (has : frame.Has array count)
    (different : array.counter ≠ other.counter) (size : Nat) :
    (frame.collecting other size).Has array count := by
  constructor
  · rw [← has.counter]
    exact if_neg different
  · intro position inside
    rw [slots_collecting_of_ne (fun same => different (congrArg _ same)),
      has.slots position inside]

variable (counts : Counts) (counters : Counter → Nat)

theorem obtained_withAttrs :
    ((entry counters).withAttrs counts).obtained = blocks .attrs (counts.of .attrs) :=
  obtained_collecting _ _ _

theorem obtained_withChannels :
    ((entry counters).withChannels counts).obtained =
      blocks .attrs (counts.of .attrs) ++ blocks .channels (counts.of .channels) := by
  rw [Frame.withChannels, obtained_collecting, obtained_withAttrs]

theorem obtained_withBufferAttrs :
    ((entry counters).withBufferAttrs counts).obtained =
      blocks .attrs (counts.of .attrs) ++ (blocks .channels (counts.of .channels) ++
        blocks .bufferAttrs (counts.of .bufferAttrs)) := by
  rw [Frame.withBufferAttrs, obtained_collecting,
    obtained_withChannels, List.append_assoc]

theorem has_attrs_withAttrs :
    ((entry counters).withAttrs counts).Has .attrs (counts.of .attrs) :=
      has_collecting _ _ _

theorem has_attrs_withChannels :
    ((entry counters).withChannels counts).Has .attrs (counts.of .attrs) :=
  (has_attrs_withAttrs counts counters).collecting (by decide) _

theorem has_attrs_withBufferAttrs :
    ((entry counters).withBufferAttrs counts).Has .attrs (counts.of .attrs) :=
  (has_attrs_withChannels counts counters).collecting (by decide) _

theorem has_channels_withChannels :
    ((entry counters).withChannels counts).Has .channels (counts.of .channels) :=
  has_collecting _ _ _

theorem has_channels_withBufferAttrs :
    ((entry counters).withBufferAttrs counts).Has .channels (counts.of .channels) :=
  (has_channels_withChannels counts counters).collecting (by decide) _

theorem has_bufferAttrs_withBufferAttrs :
    ((entry counters).withBufferAttrs counts).Has .bufferAttrs (counts.of .bufferAttrs) :=
  has_collecting _ _ _

theorem slots_withBufferAttrs {position : Nat}
    (beyond : counts.of .bufferAttrs ≤ position) :
    ((entry counters).withBufferAttrs counts).slots .bufferAttrs position = none := by
  have outside : ¬ (StringArray.bufferAttrs = .bufferAttrs ∧
      position < counts.of .bufferAttrs) := by
    rintro ⟨_, inside⟩
    omega
  have earlier : ((entry counters).withChannels counts).slots .bufferAttrs
      position = none := by
    rw [Frame.withChannels, slots_collecting_of_ne (by decide), Frame.withAttrs,
      slots_collecting_of_ne (by decide)]
    rfl
  rw [← earlier]
  exact if_neg outside

theorem nodup_blocks (array : StringArray) (count : Nat) :
    (blocks array count).Nodup := by
  have different : (strings array count).Nodup := by
    apply List.nodup_range.map
    intro index other equal
    simpa using equal
  have elsewhere : Block.strings array ∉ strings array count := by simp [strings]
  have outside :
    Block.lengths array ∉ .strings array :: strings array count := by simp [strings]
  exact List.nodup_cons.mpr ⟨outside, List.nodup_cons.mpr ⟨elsewhere, different⟩⟩

theorem disjoint_blocks (different : array ≠ other) (count size : Nat) :
    (blocks array count).Disjoint (blocks other size) :=
  fun _ member also => not_mem_blocks different ⟨_, member⟩ also

theorem nodup_requests (attrs channels bufferAttrs debugAttrs : Nat) :
    (blocks .attrs attrs ++
      (blocks .channels channels ++ (blocks .bufferAttrs bufferAttrs ++
      blocks .debugAttrs debugAttrs))).Nodup := by
  have last :=
    (nodup_blocks .bufferAttrs bufferAttrs).append (nodup_blocks .debugAttrs debugAttrs)
    (disjoint_blocks (by decide) _ _)
  have middle :=
    (nodup_blocks .channels channels).append last (List.disjoint_append_right.mpr
    ⟨disjoint_blocks (by decide) _ _, disjoint_blocks (by decide) _ _⟩)
  exact (nodup_blocks .attrs attrs).append middle (List.disjoint_append_right.mpr
    ⟨disjoint_blocks (by decide) _ _, List.disjoint_append_right.mpr
      ⟨disjoint_blocks (by decide) _ _, disjoint_blocks (by decide) _ _⟩⟩)

end Jumps

/-! ## Every single failure -/

section Failures

/-- A failed request has everything released that was obtained before it, exactly once, and no
element is read that was not stored. -/
def Unwinds (counts : Counts) (fails : Block) (counters : Counter → Nat) : Prop :=
  ∃ next, iioDeviceGetXmlBlocks fails counts (entry counters) = .error (.ok next) ∧
    next.obtained.Nodup ∧ next.released.Perm next.obtained

def Block.AfterDebugArray : Block → Prop
  | .string .debugAttrs _ | .result => True
  | _ => False

variable {counts : Counts} {fails : Block} {counters : Counter → Nat}

theorem unwinds_of_releases (point : fails ∈ points counts)
    {label : Frame → Outcome Frame} {frame : Frame} {obtained : List Block}
    (releases : Releases label frame obtained.reverse)
    (jumps : jump counts (entry counters) fails = label frame)
    (has : frame.obtained = obtained) (fresh : frame.released = [])
    (nodup : obtained.Nodup) :
    Unwinds counts fails counters := by
  rcases releases with ⟨next, returned, kept, released⟩
  refine ⟨next, ?_, ?_, ?_⟩
  · rw [iioDeviceGetXmlBlocks_failed point, jumps, returned]
  · rw [kept, has]
    exact nodup
  · rw [released, fresh, List.nil_append, kept, has]
    exact List.reverse_perm _

theorem unwinds_in_array {array : StringArray} {before : Frame}
    {label : Frame → Outcome Frame} (member : fails ∈ blocks array (counts.of array))
    (point : fails ∈ points counts)
    (lengths : jump counts (entry counters) (.lengths array) = label before)
    (strings : jump counts (entry counters) (.strings array) =
      label ((before.got (.lengths array)).free (.lengths array)))
    (string : ∀ index, jump counts (entry counters) (.string array index) =
      freeArray array (before.collecting array index) >>= fun frame =>
        label (frame.free (.lengths array)))
    (releases : ∀ frame : Frame,
      (∀ other count, other.counter ≠ array.counter → before.Has other count →
        frame.Has other count) → Releases label frame before.obtained.reverse)
    (fresh : before.released = [])
    (nodup : ∀ count, (before.obtained ++ blocks array count).Nodup) :
    Unwinds counts fails counters := by
  have freed (frame : Frame) (keeps : ∀ other count, other.counter ≠ array.counter →
      before.Has other count → frame.Has other count) :
      Releases (fun frame => label (frame.free (.lengths array))) frame
        (.lengths array :: before.obtained.reverse) :=
    Releases.afterFree (releases _ fun other count different has =>
      (keeps other count different has).free _)
  rcases mem_blocks.mp member with rfl | rfl | ⟨index, _, rfl⟩
  · exact unwinds_of_releases point (releases before fun _ _ _ has => has) lengths rfl fresh
      (nodup 0).of_append_left
  · have collected := freed (before.got (.lengths array)) fun _ _ _ has => has.got _
    rw [← List.reverse_concat] at collected
    have part : [Block.lengths array].Sublist (blocks array 0) := by simp [blocks]
    exact unwinds_of_releases point collected strings rfl fresh
      ((nodup 0).sublist (part.append_left _))
  · have collected := Releases.afterArray (has_collecting before array index)
      (freed _ fun _ _ different has =>
        (has.collecting different index).without different index)
    rw [← reverse_blocks_append, ← List.reverse_append] at collected
    exact unwinds_of_releases point collected (string index)
      (obtained_collecting _ _ _) fresh
      (nodup index)

theorem unwinds_attrs (member : fails ∈ blocks .attrs (counts.of .attrs)) :
    Unwinds counts fails counters := by
  have point : fails ∈ points counts := by simp [points, member]
  apply unwinds_in_array member point rfl rfl (fun _ => rfl) _ rfl
  · intro count
    exact nodup_blocks .attrs count
  · intro frame _
    exact ⟨frame, rfl, rfl, (List.append_nil _).symm⟩

theorem unwinds_channels (member : fails ∈ blocks .channels (counts.of .channels)) :
    Unwinds counts fails counters := by
  have point : fails ∈ points counts := by simp [points, member]
  have obtained := obtained_withAttrs counts counters
  apply unwinds_in_array member point rfl rfl (fun _ => rfl) _ rfl
  · intro count
    rw [obtained]
    exact (nodup_requests _ count 0 0).sublist
      ((List.sublist_append_left _ _).append_left _)
  · intro frame keeps
    rw [obtained]
    exact errFreeAttrs_releases
      (keeps .attrs _ (by decide) (has_attrs_withAttrs counts counters))

theorem unwinds_bufferAttrs
    (member : fails ∈ blocks .bufferAttrs (counts.of .bufferAttrs)) :
    Unwinds counts fails counters := by
  have point : fails ∈ points counts := by simp [points, member]
  have obtained := obtained_withChannels counts counters
  apply unwinds_in_array member point rfl rfl (fun _ => rfl) _ rfl
  · intro count
    rw [obtained, List.append_assoc]
    exact (nodup_requests _ _ count 0).sublist
      (((List.sublist_append_left _ _).append_left _).append_left _)
  · intro frame keeps
    rw [obtained, List.reverse_append]
    exact errFreeChannels_releases
      (keeps .attrs _ (by decide) (has_attrs_withChannels counts counters))
      (keeps .channels _ (by decide) (has_channels_withChannels counts counters))

/-! ### The last array -/

section DebugAttrs

variable (counts counters)

theorem obtainedBefore_reverse :
    ((entry counters).withBufferAttrs counts).obtained.reverse =
      (blocks .bufferAttrs (counts.of .bufferAttrs)).reverse ++
        ((blocks .channels (counts.of .channels)).reverse ++
          (blocks .attrs (counts.of .attrs)).reverse) := by
  rw [obtained_withBufferAttrs, List.reverse_append,
    List.reverse_append, List.append_assoc]

theorem nodup_before {collected : List Block} {count : Nat}
    (part : collected.Sublist (blocks .debugAttrs count)) :
    (((entry counters).withBufferAttrs counts).obtained ++ collected).Nodup := by
  rw [obtained_withBufferAttrs, List.append_assoc, List.append_assoc]
  exact (nodup_requests _ _ _ count).sublist
    (((part.append_left _).append_left _).append_left _)

variable {counts counters}

theorem unwinds_debugArrays
    (is : fails = .lengths .debugAttrs ∨ fails = .strings .debugAttrs) :
    Unwinds counts fails counters := by
  have point : fails ∈ points counts := by
    rcases is with rfl | rfl <;> simp [points, mem_blocks]
  have hasAttrs := has_attrs_withBufferAttrs counts counters
  have hasChannels := has_channels_withBufferAttrs counts counters
  have hasBufferAttrs := has_bufferAttrs_withBufferAttrs counts counters
  have reversed := obtainedBefore_reverse counts counters
  rcases is with rfl | rfl
  · have releases := errFreeBufferAttrs_releases hasAttrs hasChannels hasBufferAttrs
    rw [← reversed] at releases
    exact unwinds_of_releases point releases rfl rfl rfl
      (by simpa using nodup_before counts counters (List.nil_sublist (blocks .debugAttrs 0)))
  · have releases := errFreeDebugAttrsLen_releases (hasAttrs.got (.lengths .debugAttrs))
      (hasChannels.got _) (hasBufferAttrs.got _)
    rw [← reversed, ← List.reverse_concat] at releases
    have part : [Block.lengths .debugAttrs].Sublist (blocks .debugAttrs 0) := by simp [blocks]
    exact unwinds_of_releases point releases rfl rfl rfl
      (nodup_before counts counters part)

/-- With so many debug attributes stored, the loops of two labels share the counter. -/
theorem unwinds_errFreeDebugAttrs_iff (point : fails ∈ points counts) {count : Nat}
    (jumps : jump counts (entry counters) fails =
      errFreeDebugAttrs
        (((entry counters).withBufferAttrs counts).collecting .debugAttrs count)) :
    Unwinds counts fails counters ↔ counts.bufferAttrs = 4294967295 := by
  have bound := counts.of_lt .bufferAttrs
  have largest : counts.bufferAttrs = 4294967295 ↔
      counts.of .bufferAttrs = exhausted := by
    rw [← UInt32.toNat_inj]
    exact Iff.rfl
  have hasDebugAttrs :=
    has_collecting ((entry counters).withBufferAttrs counts) .debugAttrs count
  rw [largest]
  constructor
  · rintro ⟨next, returned, _⟩
    by_contra fewer
    have missing := slots_withBufferAttrs counts counters
      (show counts.of .bufferAttrs ≤ exhausted - 1 by rw [exhausted] at fewer ⊢; omega)
    rw [iioDeviceGetXmlBlocks_failed point, jumps,
      errFreeDebugAttrs_missing hasDebugAttrs missing] at returned
    cases returned
  · intro full
    have hasBufferAttrs := has_bufferAttrs_withBufferAttrs counts counters
    have releases := errFreeDebugAttrs_releases
      ((has_attrs_withBufferAttrs counts counters).collecting (by decide) count)
      ((has_channels_withBufferAttrs counts counters).collecting (by decide) count)
      (by rw [← full]; exact hasBufferAttrs.slots) hasDebugAttrs
    rw [← full, ← obtainedBefore_reverse counts counters,
      ← List.reverse_append] at releases
    exact unwinds_of_releases point releases jumps (obtained_collecting _ _ _) rfl
      (nodup_before counts counters (List.Sublist.refl _))

end DebugAttrs

/-- Every single failure is unwound exactly, except that of a debug attribute or of the memory
for the result in a device with fewer buffer attributes than there can be. -/
theorem unwinds_iff (counts : Counts) (counters : Counter → Nat) (fails : Block)
    (point : fails ∈ points counts) :
    Unwinds counts fails counters ↔
      ¬ fails.AfterDebugArray ∨ counts.bufferAttrs = 4294967295 := by
  have early (unwinds : Unwinds counts fails counters)
      (before : ¬ fails.AfterDebugArray) :
      Unwinds counts fails counters ↔
        ¬ fails.AfterDebugArray ∨ counts.bufferAttrs = 4294967295 :=
    iff_of_true unwinds (Or.inl before)
  have late (after : fails.AfterDebugArray) {count : Nat}
      (jumps : jump counts (entry counters) fails = errFreeDebugAttrs
        (((entry counters).withBufferAttrs counts).collecting .debugAttrs count)) :
      Unwinds counts fails counters ↔
        ¬ fails.AfterDebugArray ∨ counts.bufferAttrs = 4294967295 := by
    rw [unwinds_errFreeDebugAttrs_iff point jumps, or_iff_right (not_not_intro after)]
  have member := point
  simp only [points, List.mem_append, List.mem_singleton] at member
  rcases member with (((attrs | channels) | bufferAttrs) | debugAttrs) | rfl
  · refine early (unwinds_attrs attrs) ?_
    rcases mem_blocks.mp attrs with rfl | rfl | ⟨_, _, rfl⟩ <;> exact not_false
  · refine early (unwinds_channels channels) ?_
    rcases mem_blocks.mp channels with rfl | rfl | ⟨_, _, rfl⟩ <;> exact not_false
  · refine early (unwinds_bufferAttrs bufferAttrs) ?_
    rcases mem_blocks.mp bufferAttrs with rfl | rfl | ⟨_, _, rfl⟩ <;> exact not_false
  · rcases mem_blocks.mp debugAttrs with rfl | rfl | ⟨index, _, rfl⟩
    · exact early (unwinds_debugArrays (Or.inl rfl)) not_false
    · exact early (unwinds_debugArrays (Or.inr rfl)) not_false
    · exact late trivial rfl
  · exact late trivial rfl

theorem second_channel_unwinds :
    Block.string .channels 1 ∈ points ⟨2, 3, 1, 1⟩ ∧
      Unwinds ⟨2, 3, 1, 1⟩ (.string .channels 1) (fun _ => 0) := by
  have point : Block.string .channels 1 ∈ points ⟨2, 3, 1, 1⟩ := by decide
  exact ⟨point, (unwinds_iff ⟨2, 3, 1, 1⟩ (fun _ => 0) _ point).mpr (Or.inl not_false)⟩

theorem debug_attribute_does_not_unwind :
    Block.string .debugAttrs 0 ∈ points ⟨1, 1, 1, 1⟩ ∧
      ¬ Unwinds ⟨1, 1, 1, 1⟩ (.string .debugAttrs 0) (fun _ => 0) := by
  have point : Block.string .debugAttrs 0 ∈ points ⟨1, 1, 1, 1⟩ := by decide
  refine ⟨point, fun unwinds => ?_⟩
  have largest := (unwinds_errFreeDebugAttrs_iff point rfl).mp unwinds
  revert largest
  decide

end Failures

end IioEmu.GenXml
