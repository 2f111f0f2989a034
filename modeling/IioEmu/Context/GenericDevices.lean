import IioEmu.Context.GenericXmlContext
import IioEmu.Context.ScanChannels
import IioEmu.Devices.Generic.GenericDevice
import IioEmu.Utils.InputParser

/-! # The devices of a generic context

The constructor makes a device for each argument that names a streamed device of the document.
A device copies its identifier into fresh memory, as many characters as it has and no
terminator. -/

namespace IioEmu

inductive GenericDevice
  | tx (deviceId : CharArray) (device : GenericTXDevice)
  | rx (deviceId : CharArray) (device : GenericRXDevice)
  deriving DecidableEq

namespace GenericDevice

def getDeviceId : GenericDevice → CharArray
  | .tx deviceId _ => deviceId
  | .rx deviceId _ => deviceId

def isLinked (device : GenericDevice) (output : Bool) (filePath : String) : Prop :=
  match device with
  | .tx _ device => output = true ∧ device.filePath = filePath
  | .rx _ device => output = false ∧ device.filePath = filePath

/-- The array of the constructors. Fresh memory holds what it was left with. -/
def copyDeviceId (prior : Nat → Char) (deviceId : String) : Outcome CharArray :=
  let tmpArray := (List.range (deviceId.length + 1)).map fun offset => some (prior offset)
  strncpy tmpArray deviceId deviceId.length

end GenericDevice

def GenericTXDevice.construct (prior : Nat → Char) (deviceId filePath : String) :
    Outcome GenericDevice := do
  let tmpArray ← GenericDevice.copyDeviceId prior deviceId
  return .tx tmpArray ⟨filePath⟩

def GenericRXDevice.construct (prior : Nat → Char) (deviceId filePath : String) :
    Outcome GenericDevice := do
  let tmpArray ← GenericDevice.copyDeviceId prior deviceId
  return .rx tmpArray ⟨filePath⟩

def newDevice (doc : Option XmlDoc) (prior : Nat → Char) (devInfo : String × String) :
    Outcome GenericDevice :=
  if isOutputChannel doc devInfo.1 then GenericTXDevice.construct prior devInfo.1 devInfo.2
  else GenericRXDevice.construct prior devInfo.1 devInfo.2

/-- The loop of the constructor over the devices of the command line. Each of the arrays has
memory of its own. -/
def addDevices (doc : Option XmlDoc) (prior : Nat → Nat → Char) :
    List (String × String) → Outcome (List GenericDevice)
  | [] => .ok []
  | devInfo :: devices =>
      if isScanChannel doc devInfo.1 then do
        let dev ← newDevice doc (prior 0) devInfo
        let rest ← addDevices doc (fun allocation => prior (allocation + 1)) devices
        return dev :: rest
      else addDevices doc prior devices

def getDeviceFrom (deviceId : String) : List GenericDevice → Nat → Outcome (Option Nat)
  | [], _ => .ok none
  | dev :: devices, position => do
      if ← sameString dev.getDeviceId (terminated deviceId) then return some position
      else getDeviceFrom deviceId devices (position + 1)

/-! ## The arrays -/

def idArray (prior : Nat → Char) (deviceId : String) : CharArray :=
  (deviceId.toList ++ [prior deviceId.length]).map some

theorem copyDeviceId_eq (prior : Nat → Char) (deviceId : String) :
    GenericDevice.copyDeviceId prior deviceId = .ok (idArray prior deviceId) := by
  have whole : deviceId.toList.take deviceId.length = deviceId.toList := by
    rw [← String.length_toList, List.take_length]
  have behind :
      ((List.range (deviceId.length + 1)).map fun offset => some (prior offset)).drop
      deviceId.length = [some (prior deviceId.length)] := by
    rw [List.range_succ, List.map_append, List.drop_append_of_le_length (by simp),
      List.drop_of_length_le (by simp)]
    rfl
  rw [GenericDevice.copyDeviceId, strncpy, whole, Nat.sub_self, List.replicate_zero,
    List.append_nil, store_of_le (by simp [String.length_toList]), List.length_map,
    String.length_toList, behind]
  simp [idArray]

def deviceOf (doc : Option XmlDoc) (prior : Nat → Char) (devInfo : String × String) :
    GenericDevice :=
  if isOutputChannel doc devInfo.1 then .tx (idArray prior devInfo.1) ⟨devInfo.2⟩
  else .rx (idArray prior devInfo.1) ⟨devInfo.2⟩

def devicesOf (doc : Option XmlDoc) :
    (prior : Nat → Nat → Char) → List (String × String) → List GenericDevice
  | _, [] => []
  | prior, devInfo :: devices =>
      deviceOf doc (prior 0) devInfo ::
        devicesOf doc (fun allocation => prior (allocation + 1)) devices

theorem getDeviceId_deviceOf (doc : Option XmlDoc) (prior : Nat → Char)
    (devInfo : String × String) :
    (deviceOf doc prior devInfo).getDeviceId = idArray prior devInfo.1 := by
  rw [deviceOf]
  split <;> rfl

theorem isLinked_deviceOf (doc : Option XmlDoc) (prior : Nat → Char)
    (devInfo : String × String) :
    (deviceOf doc prior devInfo).isLinked (isOutputChannel doc devInfo.1) devInfo.2 := by
  rw [deviceOf]
  split
  case isTrue output => exact ⟨output, rfl⟩
  case isFalse input => exact ⟨by simpa using input, rfl⟩

theorem newDevice_eq (doc : Option XmlDoc) (prior : Nat → Char)
    (devInfo : String × String) :
    newDevice doc prior devInfo = .ok (deviceOf doc prior devInfo) := by
  rw [newDevice, GenericTXDevice.construct, GenericRXDevice.construct,
    copyDeviceId_eq, deviceOf]
  split <;> rfl

theorem addDevices_eq {doc : Option XmlDoc} {devices : List (String × String)}
    (scanned : ∀ devInfo ∈ devices, isScanChannel doc devInfo.1 = true)
    (prior : Nat → Nat → Char) :
    addDevices doc prior devices = .ok (devicesOf doc prior devices) := by
  induction devices generalizing prior with
  | nil => rfl
  | cons devInfo devices induction =>
      have rest := induction (fun later member => scanned later (by simp [member]))
        fun allocation => prior (allocation + 1)
      rw [addDevices, if_pos (scanned devInfo (by simp)), newDevice_eq,
        Outcome.ok_bind, rest]
      rfl

/-! ## Devices that are found again -/

/-- A search for a device gives the one made of the first argument that has the identifier, and
nothing where no argument has it. -/
def FoundAgain (doc : Option XmlDoc) (prior : Nat → Nat → Char)
    (bindings : List (String × String)) : Prop :=
  ∃ devices, addDevices doc prior bindings = .ok devices ∧
    List.Forall₂ (fun device devInfo =>
      GenericDevice.isLinked device (isOutputChannel doc devInfo.1)
        devInfo.2) devices bindings ∧
    ∀ deviceId, NulFree deviceId → getDeviceFrom deviceId devices 0 =
      .ok (bindings.findIdx? fun devInfo => devInfo.1 == deviceId)

def Terminates (prior : Nat → Nat → Char) (bindings : List (String × String)) : Prop :=
  ∀ position devInfo, bindings[position]? = some devInfo →
    prior position devInfo.1.length = nul

section Found

variable {doc : Option XmlDoc} {bindings : List (String × String)}

theorem isLinked_devicesOf (doc : Option XmlDoc) (prior : Nat → Nat → Char)
    (bindings : List (String × String)) :
    List.Forall₂ (fun device devInfo =>
      GenericDevice.isLinked device (isOutputChannel doc devInfo.1) devInfo.2)
      (devicesOf doc prior bindings) bindings := by
  induction bindings generalizing prior with
  | nil => exact .nil
  | cons devInfo bindings induction => exact .cons (isLinked_deviceOf _ _ _) (induction _)

theorem idArray_of_terminator {prior : Nat → Char} {deviceId : String}
    (ends : prior deviceId.length = nul) :
    idArray prior deviceId = terminated deviceId := by
  simp [idArray, terminated, ends]

theorem getDeviceFrom_eq (free : ∀ devInfo ∈ bindings, NulFree devInfo.1)
    {prior : Nat → Nat → Char}
    (terminates : Terminates prior bindings) {deviceId : String}
    (queried : NulFree deviceId) (start : Nat) :
    getDeviceFrom deviceId (devicesOf doc prior bindings) start =
      .ok ((bindings.findIdx? fun devInfo => devInfo.1 == deviceId).map (· + start)) := by
  induction bindings generalizing prior start with
  | nil => rfl
  | cons devInfo bindings induction =>
      have ends : prior 0 devInfo.1.length = nul := terminates 0 devInfo rfl
      have later : Terminates (fun allocation => prior (allocation + 1)) bindings :=
        fun position other located => terminates (position + 1) other located
      have rest :=
        induction (fun other member => free other (by simp [member])) later (start + 1)
      rw [devicesOf, getDeviceFrom, getDeviceId_deviceOf, idArray_of_terminator ends,
        sameString_terminated (free devInfo (by simp)) queried, Outcome.ok_bind,
        List.findIdx?_cons]
      by_cases same : devInfo.1 = deviceId
      · simp [same]
      · simp only [beq_eq_false_iff_ne.mpr same, Bool.false_eq_true, if_false, rest,
          Option.map_map]
        congr 2
        funext position
        simp only [Function.comp_apply]
        omega

theorem getDeviceFrom_eq_getDevice (free : ∀ devInfo ∈ bindings, NulFree devInfo.1)
    {prior : Nat → Nat → Char} (terminates : Terminates prior bindings)
    {context : GenericXmlContext}
    (names : context.devices.map AbstractDevice.deviceId = bindings.map Prod.fst)
    {deviceId : String} (queried : NulFree deviceId) :
    getDeviceFrom deviceId (devicesOf doc prior bindings) 0 =
      .ok (context.getDevice deviceId) := by
  have inTable := congrArg (List.findIdx? (· == deviceId)) names
  rw [List.findIdx?_map, List.findIdx?_map] at inTable
  rw [getDeviceFrom_eq free terminates queried 0, GenericXmlContext.getDevice]
  simpa [Function.comp_def] using inTable.symm

/-- A search that goes past an unterminated array for a longer identifier does not return
null. -/
theorem getDeviceFrom_ne_none {prior : Nat → Nat → Char} {position : Nat}
    {devInfo : String × String} (located : bindings[position]? = some devInfo)
    (free : NulFree devInfo.1) (open_end : prior position devInfo.1.length ≠ nul)
    {deviceId : String} {more : List Char}
    (longer : deviceId.toList = devInfo.1.toList ++
      [prior position devInfo.1.length] ++ more)
    (start : Nat) :
    getDeviceFrom deviceId (devicesOf doc prior bindings) start ≠ .ok none := by
  induction bindings generalizing prior position start with
  | nil => cases located
  | cons first bindings induction =>
      rw [devicesOf, getDeviceFrom, getDeviceId_deviceOf]
      cases position with
      | zero =>
          cases located
          have unended : nul ∉ devInfo.1.toList ++ [prior 0 devInfo.1.length] := by
            rw [List.mem_append, List.mem_singleton]
            rintro (inside | atEnd)
            · exact free inside
            · exact open_end atEnd.symm
          have past := sameString_unterminated unended (more.map some ++ [some nul])
          have queried : terminated deviceId =
              (devInfo.1.toList ++ [prior 0 devInfo.1.length]).map some ++
                (more.map some ++ [some nul]) := by
            rw [terminated, longer, List.map_append, List.append_assoc]
          rw [idArray, queried, past, Outcome.error_bind]
          intro impossible
          cases impossible
      | succ position =>
          have later : getDeviceFrom deviceId
              (devicesOf doc (fun allocation => prior (allocation + 1))
                bindings) (start + 1) ≠
                .ok none := induction located open_end longer (start + 1)
          cases sameString (idArray (prior 0) first.1) (terminated deviceId) with
          | error fault => simp
          | ok same =>
              cases same with
              | false => simpa using later
              | true => simp

theorem exists_length_gt (bindings : List (String × String)) :
    ∃ length, ∀ devInfo ∈ bindings, devInfo.1.length < length := by
  induction bindings with
  | nil => exact ⟨0, by simp⟩
  | cons devInfo bindings induction =>
      rcases induction with ⟨length, longest⟩
      refine ⟨max length (devInfo.1.length + 1), List.forall_mem_cons.mpr ⟨by omega, ?_⟩⟩
      intro other member
      exact Nat.lt_of_lt_of_le (longest other member) (Nat.le_max_left _ _)

theorem foundAgain_iff_terminates (free : ∀ devInfo ∈ bindings, NulFree devInfo.1)
    (scanned : ∀ devInfo ∈ bindings, isScanChannel doc devInfo.1 = true)
    (prior : Nat → Nat → Char) :
    FoundAgain doc prior bindings ↔ Terminates prior bindings := by
  have built := addDevices_eq scanned prior
  constructor
  · rintro ⟨devices, made, _, found⟩ position devInfo located
    rw [built, Except.ok.injEq] at made
    subst made
    by_contra open_end
    -- a name that goes on after the character behind the identifier, longer than any argument's
    rcases exists_length_gt bindings with ⟨length, longest⟩
    have named := free devInfo (List.mem_of_getElem? located)
    have unlisted : (bindings.findIdx? fun other => other.1 ==
        String.ofList (devInfo.1.toList ++ [prior position devInfo.1.length] ++
          List.replicate length 'x')) = none := by
      rw [List.findIdx?_eq_none_iff]
      intro other member
      rw [beq_eq_false_iff_ne]
      intro equal
      have shorter := longest other member
      rw [equal, String.length_ofList, List.length_append,
        List.length_replicate] at shorter
      omega
    have queried : NulFree (String.ofList (devInfo.1.toList ++
        [prior position devInfo.1.length] ++ List.replicate length 'x')) := by
      rw [NulFree, String.toList_ofList, List.mem_append,
        List.mem_append, List.mem_singleton]
      rintro ((inside | atEnd) | padding)
      · exact named inside
      · exact open_end atEnd.symm
      · exact absurd (List.eq_of_mem_replicate padding) (by decide)
    have searched := found _ queried
    rw [unlisted] at searched
    exact getDeviceFrom_ne_none located named open_end String.toList_ofList 0 searched
  · intro terminates
    refine ⟨_, built, isLinked_devicesOf _ _ _, fun deviceId queried => ?_⟩
    rw [getDeviceFrom_eq free terminates queried 0]
    simp

theorem nulFree_of_getDevices {args : List String} (strings : ∀ arg ∈ args, NulFree arg)
    {devInfo : String × String} (bound : devInfo ∈ InputParser.getDevices args) :
    NulFree devInfo.1 := by
  rw [InputParser.getDevices, List.mem_filterMap] at bound
  rcases bound with ⟨arg, member, split⟩
  rw [Option.map_eq_some_iff] at split
  rcases split with ⟨index, _, rfl⟩
  intro inside
  rw [substr, String.toList_ofList, List.drop_zero] at inside
  exact strings arg member (List.mem_of_mem_take inside)

/-- Every bound device is found again, and nothing else, exactly when the memory behind each
identifier holds a terminator. -/
theorem found_again_iff {args : List String} (strings : ∀ arg ∈ args, NulFree arg)
    (scanned : ∀ devInfo ∈ InputParser.getDevices args,
      isScanChannel doc devInfo.1 = true)
    (prior : Nat → Nat → Char) :
    FoundAgain doc prior (InputParser.getDevices args) ↔
      Terminates prior (InputParser.getDevices args) :=
  foundAgain_iff_terminates (fun _ => nulFree_of_getDevices strings) scanned prior

end Found

section Examples

def receiverArgs : List String := ["pluto.xml", "iio:device0@data.bin"]

theorem found_in_cleared_memory :
    FoundAgain adjustableReceiver (fun _ _ => nul)
      (InputParser.getDevices receiverArgs) :=
  (found_again_iff (by decide) (by decide) _).mpr fun _ _ _ => rfl

/-- In memory that was used before the identifier goes on. -/
theorem not_found_in_used_memory :
    ¬ ∀ (doc : Option XmlDoc) (args : List String) (prior : Nat → Nat → Char),
      (∀ arg ∈ args, NulFree arg) →
      (∀ devInfo ∈ InputParser.getDevices args, isScanChannel doc devInfo.1 = true) →
      FoundAgain doc prior (InputParser.getDevices args) := by
  intro found
  rcases found adjustableReceiver receiverArgs (fun _ _ => 'x')
      (by decide) (by decide) with
    ⟨devices, made, _, searched⟩
  have built : addDevices adjustableReceiver (fun _ _ => 'x')
      (InputParser.getDevices receiverArgs) =
        .ok [.rx ("iio:device0x".toList.map some) ⟨"data.bin"⟩] := by decide
  rw [built, Except.ok.injEq] at made
  have missed := searched "iio:device0" (by decide)
  rw [← made] at missed
  exact absurd missed (by decide)

end Examples

end IioEmu
