import IioEmu.Context.GenericStore
import IioEmu.Foundation.Components
import IioEmu.Utils.AgreeingDocuments

/-! # A generic context is a store

The search through the arrays, the document behind the attributes and the temporary file all
disappear: seen by its clients, a context whose identifiers are terminated is the store. -/

namespace IioEmu

open Execution

/-! ## The table of devices -/

def boundDevices (doc : Option XmlDoc) (args : List String) : List (String × String) :=
  (InputParser.getDevices args).filter fun devInfo => isScanChannel doc devInfo.1

def linkedBy (doc : Option XmlDoc) (bindings : List (String × String))
    (deviceId : String) :
    Option Linked :=
  (bindings.find? fun devInfo => devInfo.1 == deviceId).map fun devInfo =>
    ⟨isOutputChannel doc devInfo.1, devInfo.2⟩

def placeOf (bindings : List (String × String)) (deviceId : String) : Option Nat :=
  bindings.findIdx? fun devInfo => devInfo.1 == deviceId

structure Depicts (place : String → Option Nat) (linked : String → Option Linked)
    (devices : List GenericDevice) : Prop where
  searched : ∀ deviceId, NulFree deviceId →
    getDeviceFrom deviceId devices 0 = .ok (place deviceId)
  missing : ∀ deviceId, place deviceId = none → linked deviceId = none
  present : ∀ deviceId position, place deviceId = some position →
    ∃ device entry, devices[position]? = some device ∧ linked deviceId = some entry ∧
      device.isLinked entry.output entry.filePath ∧ entry.filePath ≠ tmpFilePath
  distinct : ∀ deviceId other position, place deviceId = some position →
    place other = some position → deviceId = other

section Table

variable {doc : Option XmlDoc} {prior : Nat → Nat → Char}
  {bindings : List (String × String)}

/-- What is no streamed device of the document gets no memory either. -/
theorem addDevices_filter (doc : Option XmlDoc) (prior : Nat → Nat → Char)
    (devices : List (String × String)) :
    addDevices doc prior devices =
      addDevices doc prior (devices.filter fun devInfo => isScanChannel doc devInfo.1) := by
  induction devices generalizing prior with
  | nil => rfl
  | cons devInfo devices induction =>
      by_cases scanned : isScanChannel doc devInfo.1 = true
      · simp only [List.filter_cons, scanned, if_true, addDevices,
          induction fun allocation => prior (allocation + 1)]
      · simp only [List.filter_cons, scanned, if_false, addDevices,
          Bool.false_eq_true, induction]

theorem represents_devicesOf (free : ∀ devInfo ∈ bindings, NulFree devInfo.1)
    (terminates : Terminates prior bindings)
    (apart : ∀ devInfo ∈ bindings, devInfo.2 ≠ tmpFilePath) :
    Depicts (placeOf bindings) (linkedBy doc bindings)
      (devicesOf doc prior bindings) := by
  constructor
  · intro deviceId queried
    rw [getDeviceFrom_eq free terminates queried]
    simp [placeOf]
  · intro deviceId absent
    rw [linkedBy, Option.map_eq_none_iff, List.find?_eq_none]
    intro devInfo member
    have differs := List.findIdx?_eq_none_iff.mp absent devInfo member
    simpa using differs
  · intro deviceId position found
    rw [placeOf, List.findIdx?_eq_some_iff_getElem] at found
    rcases found with ⟨inside, named, earlier⟩
    have at_position : bindings[position]? = some bindings[position] :=
      List.getElem?_eq_getElem inside
    have first : bindings.find? (fun devInfo => devInfo.1 == deviceId) =
        some bindings[position] := by
      rw [List.find?_eq_some_iff_getElem]
      exact ⟨named, position, inside, rfl,
        fun other before => by simpa using earlier other before⟩
    have matched := isLinked_devicesOf doc prior bindings
    rw [List.forall₂_iff_get] at matched
    rcases matched with ⟨sameLength, linked⟩
    have insideDevices : position < (devicesOf doc prior bindings).length := by
      rw [sameLength]
      exact inside
    refine ⟨(devicesOf doc prior bindings)[position],
      ⟨isOutputChannel doc bindings[position].1, bindings[position].2⟩,
      List.getElem?_eq_getElem insideDevices, ?_, linked position insideDevices inside,
      apart _ (List.getElem_mem inside)⟩
    rw [linkedBy, first, Option.map_some]
  · intro deviceId other position found otherFound
    rw [placeOf, List.findIdx?_eq_some_iff_getElem] at found otherFound
    rcases found with ⟨_, named, _⟩
    rcases otherFound with ⟨_, otherNamed, _⟩
    exact (beq_iff_eq.mp named).symm.trans (beq_iff_eq.mp otherNamed)

end Table

namespace GenericEmulator

/-! ## Seen by the clients -/

def view [LibXml2] (place : String → Option Nat) (emulator : GenericEmulator) :
    GenericStore where
  value := contents emulator.doc
  description := (emulator.xmlSize, emulator.ctxXml)
  mask deviceId := (place deviceId).elim 0 emulator.mask
  file := emulator.files

structure Stands [LibXml2] (place : String → Option Nat) (linked : String → Option Linked)
    (emulator : GenericEmulator) : Prop where
  depicts : Depicts place linked emulator.devices
  separates : Separates emulator.doc
  removed : emulator.files tmpFilePath = none

def Action.Spelled (action : Action) : Prop :=
  ∀ fd around command, action = .serve fd around command →
    ∀ device ∈ command.device?, NulFree device

section Found

variable {place : String → Option Nat} {linked : String → Option Linked}
  {emulator : GenericEmulator} (depicts : Depicts place linked emulator.devices)
  {device : String} (spelled : NulFree device)

include depicts

include spelled in
theorem getDevice_eq : emulator.getDevice device = .ok (place device) :=
  depicts.searched device spelled

theorem known_eq :
    GenericStore.known (linked device) = GenericStore.known (place device) := by
  cases found : place device with
  | none => rw [depicts.missing device found]; rfl
  | some position =>
      rcases depicts.present device position found with ⟨_, entry, _, entered, _⟩
      rw [entered]
      rfl

theorem casts_eq :
    (place device).bind emulator.receiver =
        (GenericStore.fileOf linked false device).map GenericRXDevice.mk ∧
      (place device).bind emulator.transmitter =
        (GenericStore.fileOf linked true device).map GenericTXDevice.mk := by
  cases found : place device with
  | none => simp [GenericStore.fileOf, depicts.missing device found]
  | some position =>
      rcases depicts.present device position found with
        ⟨bound, entry, located, entered, isLinked, _⟩
      simp only [Option.bind_some, receiver, transmitter, located,
        GenericStore.fileOf, entered]
      cases bound with
      | tx deviceId tx =>
          rcases isLinked with ⟨output, same⟩
          simp [GenericDevice.deviceIn, GenericDevice.deviceOut, output, ← same]
      | rx deviceId rx =>
          rcases isLinked with ⟨input, same⟩
          simp [GenericDevice.deviceIn, GenericDevice.deviceOut, input, ← same]

theorem apart_of_fileOf {output : Bool} {path : String}
    (found : GenericStore.fileOf linked output device = some path) :
    path ≠ tmpFilePath := by
  rw [GenericStore.fileOf, Option.bind_eq_some_iff] at found
  rcases found with ⟨entry, entered, chosen⟩
  split at chosen
  · cases chosen
    cases located : place device with
    | none => rw [depicts.missing device located] at entered; cases entered
    | some position =>
        rcases depicts.present device position located with ⟨_, other, _, found, _, apart⟩
        rw [entered] at found
        cases found
        exact apart
  · cases chosen

end Found

/-! ## One call -/

section Calls

variable [LibXml2] {place : String → Option Nat} {linked : String → Option Linked}
  {emulator : GenericEmulator}

theorem view_readAttr (key : AttributeKey) (buf : CharArray) (len : Nat) :
    (emulator.view place).readAttr key buf len = key.read emulator.doc buf len :=
  (AttributeKey.read_eq emulator.doc key buf len).symm

theorem view_writeAttr (separates : Separates emulator.doc) (key : AttributeKey)
    (buf : CharArray) (len : Nat) :
    (emulator.view place).writeAttr key buf len =
      key.write emulator.doc buf len >>= fun answer =>
        .ok (answer.1, view place { emulator with doc := answer.2 }) := by
  rw [GenericStore.writeAttr, AttributeKey.write_eq]
  simp only [view, contents]
  cases located : key.lookup emulator.doc with
  | error fault => rfl
  | ok found =>
      cases found with
      | none => rfl
      | some nodeAttr =>
          have stored (text : String) := contents_setValue separates located text
          simp only [Outcome.ok_bind, Option.map_some]
          cases cString buf with
          | error fault => rfl
          | ok text =>
              cases strnlen buf len with
              | error fault => rfl
              | ok length =>
                  simp only [Outcome.ok_bind, stored]

theorem view_openAt (depicts : Depicts place linked emulator.devices) {device : String}
    {position : Nat} (found : place device = some position) (mask : Nat) :
    view place (emulator.openAt mask position) =
      (emulator.view place).openDev linked device mask := by
  rcases depicts.present device position found with ⟨_, entry, _, entered, _⟩
  have masks :
      (fun other => (place other).elim 0 (Function.update emulator.mask position mask)) =
      Function.update (fun other => (place other).elim 0 emulator.mask) device mask := by
    funext other
    by_cases same : other = device
    · rw [same, found, Function.update_self, Option.elim_some, Function.update_self]
    · rw [Function.update_of_ne same]
      cases elsewhere : place other with
      | none => rfl
      | some otherPosition =>
          have apart : otherPosition ≠ position := by
            intro equal
            rw [equal] at elsewhere
            exact same (depicts.distinct other device position elsewhere found)
          rw [Option.elim_some, Option.elim_some, Function.update_of_ne apart]
  rw [GenericStore.openDev, entered]
  simp only [view, openAt, masks]

theorem perform_commutes (stands : Stands place linked emulator) (around : Surroundings)
    {command : Command} (spelled : ∀ device ∈ command.device?, NulFree device) :
    (emulator.view place).perform linked around command =
      abstracted (view place) (emulator.perform around command) := by
  have search {device : String} (named : device ∈ command.device?) :=
    getDevice_eq stands.depicts (spelled device named)
  have known (device : String) :
      GenericStore.known (linked device) = GenericStore.known (place device) :=
    known_eq stands.depicts
  cases command with
  | readAttr deviceId attr buf len type =>
      simp only [GenericStore.perform, view_readAttr, perform,
        readAttr, AttributeKey.read]
      cases readDeviceAttr emulator.doc deviceId attr buf len type <;> rfl
  | chReadAttr deviceId channel chOut attr buf len =>
      simp only [GenericStore.perform, view_readAttr, perform,
        chReadAttr, AttributeKey.read]
      cases readChannelAttr emulator.doc deviceId channel chOut attr buf len <;> rfl
  | writeAttr deviceId attr buf len type =>
      simp only [GenericStore.perform,
        view_writeAttr stands.separates, perform, writeAttr, AttributeKey.write]
      cases writeDevAttr emulator.doc deviceId attr buf len type <;> rfl
  | chWriteAttr deviceId channel chOut attr buf len =>
      simp only [GenericStore.perform, view_writeAttr stands.separates,
        perform, chWriteAttr, AttributeKey.write]
      cases writeChannelAttr emulator.doc deviceId channel chOut attr buf len <;> rfl
  | openDev device sampleSize mask cyclic =>
      simp only [GenericStore.perform, perform, openDev, search rfl,
        Outcome.ok_bind, known]
      cases found : place device with
      | none =>
          rw [GenericStore.openDev, stands.depicts.missing device found]
          rfl
      | some position =>
          rw [← view_openAt stands.depicts found]
          rfl
  | closeDev device =>
      simp only [GenericStore.perform, perform, closeDev, search rfl,
        Outcome.ok_bind, known]
      cases place device <;> rfl
  | setBuffersCount device buffersCount =>
      simp only [GenericStore.perform, perform, setBuffersCount,
        search rfl, Outcome.ok_bind, known]
      cases place device <;> rfl
  | getMask device mask =>
      simp only [GenericStore.perform, perform, getMask, search rfl,
        Outcome.ok_bind, known]
      cases found : place device with
      | none =>
          rw [GenericStore.getMask, stands.depicts.missing device found]
          rfl
      | some position =>
          rcases stands.depicts.present device position found with
            ⟨_, entry, _, entered, _⟩
          rw [GenericStore.getMask, entered]
          simp only [Option.isSome_some, if_true, view, found]
          rfl
  | transferDevToMem device bytesCount =>
      simp only [GenericStore.perform, perform, transferDevToMem,
        search rfl, Outcome.ok_bind, (casts_eq stands.depicts).1]
      cases GenericStore.fileOf linked false device <;> rfl
  | transferMemToDev device bytesCount =>
      simp only [GenericStore.perform, perform, transferMemToDev,
        search rfl, Outcome.ok_bind, (casts_eq stands.depicts).2]
      cases GenericStore.fileOf linked true device <;> rfl
  | readDev device offset bytesCount =>
      simp only [GenericStore.perform, GenericStore.readDev, perform, readDev, search rfl,
        Outcome.ok_bind, (casts_eq stands.depicts).1]
      cases found : GenericStore.fileOf linked false device with
      | none => rfl
      | some path =>
          have apart := apart_of_fileOf stands.depicts found
          simp only [Option.map_some, readDev_eq_readContent apart stands.removed]
          simp only [view]
          cases GenericRXDevice.readContent around.reading around.pbuf bytesCount
            (emulator.files path) <;> rfl
  | writeDev device buf offset bytesCount =>
      simp only [GenericStore.perform, GenericStore.writeDev, perform,
        writeDev, search rfl, Outcome.ok_bind, (casts_eq stands.depicts).2]
      cases found : GenericStore.fileOf linked true device with
      | none => rfl
      | some path =>
          simp only [Option.map_some, writeDev_eq_writeContent]
          simp only [view]
          cases GenericTXDevice.writeContent around.writing buf bytesCount
            (emulator.files path) <;> rfl
  | getTrigger | setTrigger => rfl
  | getXml outxml => cases outxml <;> rfl

/-- What a call changes: one attribute, the mask and descriptor of one device, or one linked
file. -/
theorem perform_cases (stands : Stands place linked emulator) {around : Surroundings}
    {command : Command} (spelled : ∀ device ∈ command.device?,
      NulFree device) {reply : Reply}
    {next : GenericEmulator}
    (performed : emulator.perform around command = .ok (reply, next)) :
    next = emulator ∨
      (∃ key buf len ret doc,
      AttributeKey.write emulator.doc buf len key = .ok (ret, doc) ∧
        next = { emulator with doc := doc }) ∨
      (∃ mask position, next = emulator.openAt mask position) ∨
      ∃ path content, path ≠ tmpFilePath ∧
        next = { emulator with
          files := Function.update emulator.files path content } := by
  have search {device : String} (named : device ∈ command.device?) :=
    getDevice_eq stands.depicts (spelled device named)
  cases command with
  | writeAttr deviceId attr buf len type =>
      simp only [perform, writeAttr, Outcome.bind_eq_ok,
        Outcome.pure_eq_ok, Except.ok.injEq, Prod.mk.injEq, Prod.exists] at performed
      rcases performed with ⟨_, _, ⟨ret, doc, written, rfl, rfl⟩, _, rfl⟩
      exact Or.inr (Or.inl ⟨.device deviceId type attr, buf, len, ret, doc, written, rfl⟩)
  | chWriteAttr deviceId channel chOut attr buf len =>
      simp only [perform, chWriteAttr, Outcome.bind_eq_ok,
        Outcome.pure_eq_ok, Except.ok.injEq, Prod.mk.injEq, Prod.exists] at performed
      rcases performed with ⟨_, _, ⟨ret, doc, written, rfl, rfl⟩, _, rfl⟩
      exact Or.inr (Or.inl ⟨.channel deviceId channel chOut attr, buf, len,
        ret, doc, written, rfl⟩)
  | openDev device sampleSize mask cyclic =>
      simp only [perform, openDev, search rfl, Outcome.ok_bind] at performed
      cases found : place device with
      | none =>
          rw [found] at performed
          cases performed
          exact Or.inl rfl
      | some position =>
          rw [found] at performed
          cases performed
          exact Or.inr (Or.inr (Or.inl ⟨mask, position, rfl⟩))
  | readDev device offset bytesCount =>
      simp only [perform, readDev, search rfl, Outcome.ok_bind,
        (casts_eq stands.depicts).1]
        at performed
      cases found : GenericStore.fileOf linked false device with
      | none =>
          rw [found] at performed
          cases performed
          exact Or.inl rfl
      | some path =>
          have apart := apart_of_fileOf stands.depicts found
          simp only [found, Option.map_some, readDev_eq_readContent apart stands.removed,
            Outcome.bind_eq_ok, Outcome.pure_eq_ok, Except.ok.injEq,
            Prod.mk.injEq, Prod.exists]
            at performed
          rcases performed with
            ⟨_, _, _, ⟨_, _, _, ⟨_, _, content, _, _, _, rfl⟩, _, _, rfl⟩, _, rfl⟩
          exact Or.inr (Or.inr (Or.inr ⟨path, content, apart, rfl⟩))
  | writeDev device buf offset bytesCount =>
      simp only [perform, writeDev, search rfl, Outcome.ok_bind,
        (casts_eq stands.depicts).2]
        at performed
      cases found : GenericStore.fileOf linked true device with
      | none =>
          rw [found] at performed
          cases performed
          exact Or.inl rfl
      | some path =>
          have apart := apart_of_fileOf stands.depicts found
          simp only [found, Option.map_some, writeDev_eq_writeContent, Outcome.bind_eq_ok,
            Outcome.pure_eq_ok, Except.ok.injEq, Prod.mk.injEq, Prod.exists] at performed
          rcases performed with ⟨_, _, ⟨_, _, ⟨_, content, _, _, rfl⟩, _, rfl⟩, _, rfl⟩
          exact Or.inr (Or.inr (Or.inr ⟨path, content, apart, rfl⟩))
  | getTrigger | setTrigger | getXml =>
      cases performed
      exact Or.inl rfl
  | readAttr | chReadAttr | closeDev | transferDevToMem | transferMemToDev | getMask
  | setBuffersCount =>
      simp only [perform, Outcome.bind_eq_ok, Outcome.pure_eq_ok, Except.ok.injEq,
        Prod.mk.injEq] at performed
      rcases performed with ⟨_, _, _, rfl⟩
      exact Or.inl rfl

theorem Stands.perform (stands : Stands place linked emulator) {around : Surroundings}
    {command : Command} (spelled : ∀ device ∈ command.device?,
      NulFree device) {reply : Reply}
    {next : GenericEmulator}
    (performed : emulator.perform around command = .ok (reply, next)) :
    Stands place linked next := by
  rcases perform_cases stands spelled performed with rfl |
    ⟨key, buf, len, ret, doc, written, rfl⟩ | ⟨mask, position, rfl⟩ | ⟨path,
      content, apart, rfl⟩
  · exact stands
  · have separates := (AttributeKey.agreeOn_of_write stands.separates written).2
    exact ⟨stands.depicts, separates, stands.removed⟩
  · exact ⟨stands.depicts, stands.separates, stands.removed⟩
  · refine ⟨stands.depicts, stands.separates, ?_⟩
    have kept : Function.update emulator.files path content tmpFilePath =
        emulator.files tmpFilePath := Function.update_of_ne (Ne.symm apart) _ _
    exact kept.trans stands.removed

end Calls

/-! ## Whole runs -/

section Runs

variable [LibXml2] {place : String → Option Nat} {linked : String → Option Linked}

omit [LibXml2] in
theorem socketDisconnected_eq (emulator : GenericEmulator) (fd : Int) :
    emulator.socketDisconnected fd = emulator := by
  rw [socketDisconnected]
  split <;> rfl

theorem abstracts : Abstracts step (GenericStore.step linked) (view place) Action.Spelled
    (Stands place linked) := by
  constructor
  · intro emulator action reply next spelled stands stepped
    have socketed (fd : Int) : Stands place linked (emulator.setCurrentSocket fd) :=
      ⟨stands.depicts, stands.separates, stands.removed⟩
    cases action with
    | serve fd around command =>
        exact (socketed fd).perform (spelled fd around command rfl) stepped
    | disconnect fd =>
        rw [step, socketDisconnected_eq] at stepped
        cases stepped
        exact socketed fd
  · intro emulator action spelled stands
    have socketed (fd : Int) : Stands place linked (emulator.setCurrentSocket fd) :=
      ⟨stands.depicts, stands.separates, stands.removed⟩
    cases action with
    | serve fd around command =>
        exact perform_commutes (socketed fd) around (spelled fd around command rfl)
    | disconnect fd =>
        rw [step, socketDisconnected_eq]
        rfl

variable [LibXml2Text] {doc : Option XmlDoc} {args : List String}
  {prior : Nat → Nat → Char}
  {memory initial : GenericEmulator}

/-- The arguments are C strings, every array happens to be terminated, and neither the
command line nor the file system knows the temporary file. -/
structure Prepared (doc : Option XmlDoc) (args : List String) (prior : Nat → Nat → Char)
    (files : Files) : Prop where
  strings : ∀ arg ∈ args, NulFree arg
  terminates : Terminates prior (boundDevices doc args)
  wellFormed : WellFormed doc
  apart : ∀ devInfo ∈ boundDevices doc args, devInfo.2 ≠ tmpFilePath
  removed : files tmpFilePath = none

omit [LibXml2] in
theorem construct_eq (doc : Option XmlDoc) (args : List String) (prior : Nat → Nat → Char)
    (memory : GenericEmulator) :
    construct doc args prior memory = .ok { memory with
      doc := doc
      ctxXml := (IioEmu.getXml doc).2
      xmlSize := (IioEmu.getXml doc).1
      devices := devicesOf doc prior (boundDevices doc args) } := by
  have scanned : ∀ devInfo ∈ boundDevices doc args, isScanChannel doc devInfo.1 = true :=
    fun devInfo member => (List.mem_filter.mp member).2
  have added : addDevices doc prior (InputParser.getDevices args) =
      .ok (devicesOf doc prior (boundDevices doc args)) := by
    rw [addDevices_filter]
    exact addDevices_eq scanned prior
  rw [construct, added]
  rfl

theorem stands_of_construct (prepared : Prepared doc args prior memory.files)
    (constructed : construct doc args prior memory = .ok initial) :
    Stands (placeOf (boundDevices doc args))
      (linkedBy doc (boundDevices doc args)) initial := by
  rw [construct_eq] at constructed
  cases constructed
  refine ⟨represents_devicesOf ?_ prepared.terminates prepared.apart,
    separates_of_wellFormed prepared.wellFormed, prepared.removed⟩
  intro devInfo member
  exact nulFree_of_getDevices prepared.strings (List.mem_filter.mp member).1

/-- Whatever clients ask and whatever opens fail, a generic context answers as the store it is
for: an attribute is a register, a linked file a queue of bytes while its opens succeed, and no
call reaches past its own register, mask or file. -/
theorem serves_as_store (prepared : Prepared doc args prior memory.files)
    (constructed : construct doc args prior memory = .ok initial)
    {actions : List Action} (spelled : ∀ action ∈ actions, action.Spelled) :
    record (GenericStore.step (linkedBy doc (boundDevices doc args)))
        (initial.view (placeOf (boundDevices doc args))) actions =
        abstracted (view (placeOf (boundDevices doc args)))
          (record step initial actions) ∧
      GenericStore.QueuesWhereOpened (linkedBy doc (boundDevices doc args)) :=
  ⟨abstracts.record_eq spelled (stands_of_construct prepared constructed),
    GenericStore.queuesWhereOpened _⟩

end Runs

section Examples

open scoped Reference

def loopDocument : Option XmlDoc :=
  some ⟨some (.node ⟨"context", [⟨"name", "local"⟩], ""⟩ [
    .node ⟨"device", [⟨"id", "iio:device0"⟩], ""⟩ [
      channelOf "voltage0" "input" [scanElement],
      .node ⟨"attribute", [⟨"name", "raw"⟩, ⟨"value", "1"⟩], ""⟩ []],
    .node ⟨"device", [⟨"id", "iio:device1"⟩], ""⟩ [
      channelOf "voltage0" "output" [scanElement]]])⟩

def loopArgs : List String := ["pluto.xml", "iio:device0@data.bin",
      "iio:device1@data.bin"]

def emptyFiles : GenericEmulator where
  doc := none
  ctxXml := none
  xmlSize := 0
  devices := []
  mask _ := 0
  descriptor _ := 0
  currentSocket := 0
  files path := if path = "data.bin" then some [] else none

def calm (size : Nat) : Surroundings := ⟨List.replicate size 0#8, .succeed, true⟩

def loopSession : List Action :=
  [.serve 5 (calm 0) (.writeDev "iio:device1" [1, 2, 3] 0 3),
    .serve 4 (calm 4) (.writeAttr "iio:device0" "raw" (terminated "7") 2 .device),
    .serve 4 (calm 2) (.readDev "iio:device0" 0 2),
    .disconnect 5,
    .serve 4 (calm 2) (.readDev "iio:device0" 0 2)]

theorem loop_prepared :
    Prepared loopDocument loopArgs (fun _ _ => nul) emptyFiles.files where
  strings := by decide
  terminates _ _ _ := rfl
  wellFormed := by decide +kernel
  apart := by decide +kernel
  removed := rfl

theorem loopSession_spelled : ∀ action ∈ loopSession, action.Spelled := by
  simp only [loopSession, List.forall_mem_cons, Action.Spelled, List.not_mem_nil,
    false_implies, implies_true, and_true]
  refine ⟨?_, ?_, ?_, ?_, ?_⟩
  all_goals
    intro fd around command equal
    cases equal
  all_goals decide

theorem loop_session_serves_as_store :
    ∃ initial, construct loopDocument loopArgs (fun _ _ => nul) emptyFiles = .ok initial ∧
      record (GenericStore.step (linkedBy loopDocument (boundDevices loopDocument loopArgs)))
          (initial.view (placeOf (boundDevices loopDocument loopArgs))) loopSession =
        abstracted (view (placeOf (boundDevices loopDocument loopArgs)))
          (record step initial loopSession) ∧
      (record step initial loopSession).map (fun result => result.1.map Prod.snd) =
        .ok [.returned 3, .returned 2, .samples 2 [1, 2], .returned 0,
        .samples 2 [3, 0]] := by
  have constructed := construct_eq loopDocument loopArgs (fun _ _ => nul) emptyFiles
  refine ⟨_, constructed,
    (serves_as_store loop_prepared constructed loopSession_spelled).1, ?_⟩
  decide +kernel

end Examples

end GenericEmulator

end IioEmu
