import IioEmu.Context.GenericRefinement
import IioEmu.Foundation.Noninterference

/-! # Clients of different files

All reads of a generic context pass through one temporary file. The clients of devices that
are linked to different files still do not see each other: what they see is proved of the
store, and holds of the context because it answers as the store. -/

namespace IioEmu

open Execution

structure Division (Domain : Type) where
  ofClient : Int → Domain
  ofDevice : String → Domain
  ofFile : String → Domain

section Isolation

variable {Domain : Type} (division : Division Domain)

def Division.Respects (linked : String → Option Linked) : Prop :=
  ∀ device entry, linked device = some entry →
    division.ofFile entry.filePath = division.ofDevice device

namespace GenericEmulator

def Action.domain (action : Action) : Domain := division.ofClient action.fd

def Action.Keeps (action : Action) : Prop :=
  ∀ fd around command, action = .serve fd around command →
    ∀ device ∈ command.device?, division.ofDevice device = division.ofClient fd

end GenericEmulator

namespace GenericStore

structure Agrees (d : Domain) (store other : GenericStore) : Prop where
  value : ∀ key : AttributeKey, division.ofDevice key.deviceId = d →
    other.value key = store.value key
  description : other.description = store.description
  mask : ∀ device, division.ofDevice device = d → other.mask device = store.mask device
  file : ∀ path, division.ofFile path = d → other.file path = store.file path

theorem agrees_equivalence (d : Domain) : Equivalence (Agrees division d) := by
  constructor
  · intro store
    exact ⟨fun _ _ => rfl, rfl, fun _ _ => rfl, fun _ _ => rfl⟩
  · intro store other agrees
    exact ⟨fun key inside => (agrees.value key inside).symm, agrees.description.symm,
      fun device inside => (agrees.mask device inside).symm,
      fun path inside => (agrees.file path inside).symm⟩
  · intro store middle other first second
    exact ⟨fun key inside => (second.value key inside).trans (first.value key inside),
      second.description.trans first.description,
      fun device inside => (second.mask device inside).trans (first.mask device inside),
      fun path inside => (second.file path inside).trans (first.file path inside)⟩

variable {division} {linked : String → Option Linked} {store other next : GenericStore}
  {d : Domain}

theorem ofFile_of_fileOf (respects : division.Respects linked) {output : Bool}
    {device path : String} (found : fileOf linked output device = some path) :
    division.ofFile path = division.ofDevice device := by
  rw [fileOf, Option.bind_eq_some_iff] at found
  rcases found with ⟨entry, entered, chosen⟩
  split at chosen
  · cases chosen
    exact respects device entry entered
  · cases chosen

/-! ## What a change shows -/

theorem Agrees.of_value {key : AttributeKey}
    (elsewhere : d ≠ division.ofDevice key.deviceId)
    (cell : Outcome (Option (Option String))) :
    Agrees division d store
      { store with value := Function.update store.value key cell } := by
  refine ⟨?_, rfl, fun _ _ => rfl, fun _ _ => rfl⟩
  intro asked inside
  apply Function.update_of_ne
  intro same
  rw [same] at inside
  exact elsewhere inside.symm

theorem Agrees.of_mask {device : String} (elsewhere : d ≠ division.ofDevice device)
    (mask : Nat) :
    Agrees division d store
      { store with mask := Function.update store.mask device mask } := by
  refine ⟨fun _ _ => rfl, rfl, ?_, fun _ _ => rfl⟩
  intro asked inside
  apply Function.update_of_ne
  intro same
  rw [same] at inside
  exact elsewhere inside.symm

theorem Agrees.of_file {path : String} (elsewhere : d ≠ division.ofFile path)
    (content : Option (List Byte)) :
    Agrees division d store
      { store with file := Function.update store.file path content } := by
  refine ⟨fun _ _ => rfl, rfl, fun _ _ => rfl, ?_⟩
  intro asked inside
  apply Function.update_of_ne
  intro same
  rw [same] at inside
  exact elsewhere inside.symm

theorem update_agrees {α β : Type} [DecidableEq α] {inside : α → Prop}
    {first second : α → β} (same : ∀ place, inside place → second place = first place)
    (place : α) (value : β) :
    ∀ asked, inside asked →
      Function.update second place value asked =
      Function.update first place value asked := by
  intro asked member
  by_cases equal : asked = place
  · rw [equal, Function.update_self, Function.update_self]
  · rw [Function.update_of_ne equal, Function.update_of_ne equal, same asked member]

/-! ## One call -/

section Calls

variable {around : Surroundings} {command : Command} {reply : Reply}

theorem agrees_of_perform (respects : division.Respects linked)
    (elsewhere : ∀ device ∈ command.device?, d ≠ division.ofDevice device)
    (performed : store.perform linked around command = .ok (reply, next)) :
    Agrees division d store next := by
  have reflexive := (agrees_equivalence division d).refl store
  have register {key : AttributeKey} {buf : CharArray} {len : Nat} {ret : Int}
      {after : GenericStore} (named : key.deviceId ∈ command.device?)
      (written : store.writeAttr key buf len = .ok (ret, after)) :
      Agrees division d store after := by
    rw [writeAttr, Outcome.bind_eq_ok] at written
    rcases written with ⟨cell, _, stored⟩
    cases cell with
    | none =>
        cases stored
        exact reflexive
    | some value =>
        simp only [Outcome.bind_eq_ok, Except.ok.injEq, Prod.mk.injEq] at stored
        rcases stored with ⟨text, _, length, _, _, rfl⟩
        exact Agrees.of_value (elsewhere _ named) _
  cases command with
  | writeAttr deviceId attr buf len type =>
      simp only [perform, Outcome.bind_eq_ok, Except.ok.injEq, Prod.mk.injEq] at performed
      rcases performed with ⟨⟨ret, after⟩, written, _, rfl⟩
      exact register rfl written
  | chWriteAttr deviceId channel chOut attr buf len =>
      simp only [perform, Outcome.bind_eq_ok, Except.ok.injEq, Prod.mk.injEq] at performed
      rcases performed with ⟨⟨ret, after⟩, written, _, rfl⟩
      exact register rfl written
  | openDev device sampleSize mask cyclic =>
      cases performed
      rw [openDev]
      split
      · exact Agrees.of_mask (elsewhere device rfl) mask
      · exact reflexive
  | readDev device offset bytesCount =>
      simp only [perform, readDev] at performed
      cases found : fileOf linked false device with
      | none =>
          rw [found] at performed
          cases performed
          exact reflexive
      | some path =>
          rw [found] at performed
          simp only [Outcome.bind_eq_ok, Except.ok.injEq, Prod.mk.injEq] at performed
          rcases performed with ⟨_, ⟨answer, _, rfl⟩, _, rfl⟩
          apply Agrees.of_file
          rw [ofFile_of_fileOf respects found]
          exact elsewhere device rfl
  | writeDev device buf offset bytesCount =>
      simp only [perform, writeDev] at performed
      cases found : fileOf linked true device with
      | none =>
          rw [found] at performed
          cases performed
          exact reflexive
      | some path =>
          rw [found] at performed
          simp only [Outcome.bind_eq_ok, Except.ok.injEq, Prod.mk.injEq] at performed
          rcases performed with ⟨_, ⟨answer, _, rfl⟩, _, rfl⟩
          apply Agrees.of_file
          rw [ofFile_of_fileOf respects found]
          exact elsewhere device rfl
  | readAttr | chReadAttr =>
      simp only [perform, Outcome.bind_eq_ok, Except.ok.injEq, Prod.mk.injEq] at performed
      rcases performed with ⟨_, _, _, rfl⟩
      exact reflexive
  | closeDev | transferDevToMem | transferMemToDev | getMask | getTrigger | setTrigger
  | setBuffersCount | getXml =>
      cases performed
      exact reflexive

theorem perform_consistent (respects : division.Respects linked)
    (agrees : Agrees division d store other)
    (keeps : ∀ device ∈ command.device?, division.ofDevice device = d)
    (performed : store.perform linked around command = .ok (reply, next)) :
    ∃ after, other.perform linked around command = .ok (reply, after) ∧
      Agrees division d next after := by
  have file {output : Bool} {device path : String} (named : device ∈ command.device?)
      (found : fileOf linked output device = some path) :
        other.file path = store.file path :=
    agrees.file path ((ofFile_of_fileOf respects found).trans (keeps device named))
  have register {key : AttributeKey} {buf : CharArray} {len : Nat} {ret : Int}
      {after : GenericStore} (named : key.deviceId ∈ command.device?)
      (written : store.writeAttr key buf len = .ok (ret, after)) :
      ∃ otherAfter, other.writeAttr key buf len = .ok (ret, otherAfter) ∧
        Agrees division d after otherAfter := by
    rw [writeAttr, Outcome.bind_eq_ok] at written
    rcases written with ⟨cell, held, stored⟩
    rw [writeAttr, agrees.value key (keeps _ named), held, Outcome.ok_bind]
    cases cell with
    | none =>
        cases stored
        exact ⟨other, rfl, agrees⟩
    | some value =>
        simp only [Outcome.bind_eq_ok, Except.ok.injEq, Prod.mk.injEq] at stored
        rcases stored with ⟨text, spelled, length, counted, rfl, rfl⟩
        simp only [spelled, counted, Outcome.ok_bind]
        exact ⟨_, rfl, update_agrees agrees.value _ _, agrees.description, agrees.mask,
          agrees.file⟩
  cases command with
  | readAttr deviceId attr buf len type =>
      simp only [perform, readAttr] at performed ⊢
      rw [agrees.value (.device deviceId type attr) (keeps deviceId rfl)]
      rw [Outcome.bind_eq_ok] at performed
      rcases performed with ⟨answer, read, equal⟩
      cases equal
      exact ⟨other, by rw [read, Outcome.ok_bind], agrees⟩
  | chReadAttr deviceId channel chOut attr buf len =>
      simp only [perform, readAttr] at performed ⊢
      rw [agrees.value (.channel deviceId channel chOut attr) (keeps deviceId rfl)]
      rw [Outcome.bind_eq_ok] at performed
      rcases performed with ⟨answer, read, equal⟩
      cases equal
      exact ⟨other, by rw [read, Outcome.ok_bind], agrees⟩
  | writeAttr deviceId attr buf len type =>
      simp only [perform, Outcome.bind_eq_ok, Except.ok.injEq, Prod.mk.injEq] at performed
      rcases performed with ⟨⟨ret, after⟩, written, rfl, rfl⟩
      rcases register rfl written with ⟨otherAfter, otherWritten, kept⟩
      exact ⟨otherAfter, by rw [perform, otherWritten, Outcome.ok_bind], kept⟩
  | chWriteAttr deviceId channel chOut attr buf len =>
      simp only [perform, Outcome.bind_eq_ok, Except.ok.injEq, Prod.mk.injEq] at performed
      rcases performed with ⟨⟨ret, after⟩, written, rfl, rfl⟩
      rcases register rfl written with ⟨otherAfter, otherWritten, kept⟩
      exact ⟨otherAfter, by rw [perform, otherWritten, Outcome.ok_bind], kept⟩
  | openDev device sampleSize mask cyclic =>
      cases performed
      refine ⟨_, rfl, ?_⟩
      rw [openDev, openDev]
      split
      · exact ⟨agrees.value, agrees.description,
          update_agrees agrees.mask _ _, agrees.file⟩
      · exact agrees
  | readDev device offset bytesCount =>
      simp only [perform, readDev] at performed ⊢
      cases found : fileOf linked false device with
      | none =>
          rw [found] at performed
          cases performed
          exact ⟨other, rfl, agrees⟩
      | some path =>
          rw [found] at performed
          simp only [Outcome.bind_eq_ok, Except.ok.injEq, Prod.mk.injEq] at performed
          rcases performed with ⟨_, ⟨answer, read, rfl⟩, rfl, rfl⟩
          simp only [file rfl found, read, Outcome.ok_bind]
          exact ⟨_, rfl, agrees.value, agrees.description, agrees.mask,
            update_agrees agrees.file _ _⟩
  | writeDev device buf offset bytesCount =>
      simp only [perform, writeDev] at performed ⊢
      cases found : fileOf linked true device with
      | none =>
          rw [found] at performed
          cases performed
          exact ⟨other, rfl, agrees⟩
      | some path =>
          rw [found] at performed
          simp only [Outcome.bind_eq_ok, Except.ok.injEq, Prod.mk.injEq] at performed
          rcases performed with ⟨_, ⟨answer, written, rfl⟩, rfl, rfl⟩
          simp only [file rfl found, written, Outcome.ok_bind]
          exact ⟨_, rfl, agrees.value, agrees.description, agrees.mask,
            update_agrees agrees.file _ _⟩
  | getMask device mask =>
      cases performed
      refine ⟨other, ?_, agrees⟩
      simp only [perform, getMask, agrees.mask device (keeps device rfl)]
  | getXml outxml =>
      cases performed
      refine ⟨other, ?_, agrees⟩
      simp only [perform, getXml, agrees.description]
  | closeDev | transferDevToMem | transferMemToDev | getTrigger | setTrigger
  | setBuffersCount =>
      cases performed
      exact ⟨other, rfl, agrees⟩

end Calls

theorem unwinds (respects : division.Respects linked) :
    Unwinds (GenericStore.step linked) (GenericEmulator.Action.domain division)
      (GenericEmulator.Action.Keeps division) (fun _ => True) (Agrees division) := by
  refine ⟨agrees_equivalence division, fun _ _ _ => trivial, ?_, ?_⟩
  · intro store action reply next d keeps _ stepped elsewhere
    cases action with
    | serve fd around command =>
        refine agrees_of_perform respects ?_ stepped
        intro device named
        rw [keeps fd around command rfl device named]
        exact elsewhere
    | disconnect fd =>
        cases stepped
        exact (agrees_equivalence division d).refl store
  · intro store other action reply next keeps _ _ agrees stepped
    cases action with
    | serve fd around command =>
        exact perform_consistent respects agrees (keeps fd around command rfl) stepped
    | disconnect fd =>
        cases stepped
        exact ⟨other, rfl, agrees⟩

end GenericStore

/-! ## Whole runs -/

namespace GenericEmulator

variable [LibXml2] [LibXml2Text] [DecidableEq Domain] {division : Division Domain}
  {doc : Option XmlDoc} {args : List String} {prior : Nat → Nat → Char}
  {memory initial : GenericEmulator} {actions : List Action}

omit [LibXml2] [LibXml2Text] [DecidableEq Domain] in
theorem respects_of_bindings {bindings : List (String × String)}
    (respects : ∀ devInfo ∈ bindings,
      division.ofFile devInfo.2 = division.ofDevice devInfo.1) :
    division.Respects (linkedBy doc bindings) := by
  intro device entry found
  rw [linkedBy, Option.map_eq_some_iff] at found
  rcases found with ⟨devInfo, first, rfl⟩
  have named : devInfo.1 = device := by simpa using List.find?_some first
  rw [← named]
  exact respects devInfo (List.mem_of_find?_eq_some first)

/-- A session returns exactly when the part of every domain does by itself, and then every
domain is answered, and finds its attributes, masks and files, as if it had been alone:
whatever opens fail, and although all reads share one temporary file. -/
theorem served_as_if_alone (prepared : Prepared doc args prior memory.files)
    (constructed : construct doc args prior memory = .ok initial)
    (respects : ∀ devInfo ∈ boundDevices doc args,
      division.ofFile devInfo.2 = division.ofDevice devInfo.1)
    (spelled : ∀ action ∈ actions, action.Spelled)
    (keeps : ∀ action ∈ actions, action.Keeps division) :
    ((∃ result, record step initial actions = .ok result) ↔ ∀ d, ∃ result,
        record step initial (purge (Action.domain division) d actions) = .ok result) ∧
      ∀ outputs final, record step initial actions = .ok (outputs, final) → ∀ d, ∃ after,
        record step initial (purge (Action.domain division) d actions) =
            .ok (told (Action.domain division) d outputs, after) ∧
          GenericStore.Agrees division d (final.view (placeOf (boundDevices doc args)))
            (after.view (placeOf (boundDevices doc args))) := by
  exact abstracts.keeps_apart
    (GenericStore.unwinds (respects_of_bindings respects)) spelled
    keeps (stands_of_construct prepared constructed) trivial

end GenericEmulator

end Isolation

namespace GenericEmulator

section Examples

open scoped Reference

def receiversDocument : Option XmlDoc :=
  some ⟨some (.node ⟨"context", [⟨"name", "local"⟩], ""⟩ [
    .node ⟨"device", [⟨"id", "iio:device0"⟩],
      ""⟩ [channelOf "voltage0" "input" [scanElement]],
    .node ⟨"device", [⟨"id", "iio:device1"⟩],
      ""⟩ [channelOf "voltage0" "input" [scanElement]]])⟩

def receiversArgs : List String := ["pluto.xml", "iio:device0@a.bin", "iio:device1@b.bin"]

def recordings : GenericEmulator :=
  { emptyFiles with files := fun path =>
      if path = "a.bin" then some [1, 2, 3]
      else if path = "b.bin" then some [4, 5, 6] else none }

def twoReceivers : Division Bool where
  ofClient fd := fd = 5
  ofDevice device := device = "iio:device1"
  ofFile path := path = "b.bin"

def lossySession : List Action :=
  [.serve 4 ⟨[0, 0], ⟨true, false, true, true, true⟩, true⟩ (.readDev "iio:device0" 0 2),
    .serve 5 (calm 2) (.readDev "iio:device1" 0 2),
    .serve 4 (calm 1) (.readDev "iio:device0" 0 1),
    .serve 5 (calm 1) (.readDev "iio:device1" 0 1)]

theorem recordings_prepared :
    Prepared receiversDocument receiversArgs (fun _ _ => nul) recordings.files where
  strings := by decide
  terminates _ _ _ := rfl
  wellFormed := by decide +kernel
  apart := by decide +kernel
  removed := rfl

theorem lossySession_spelled : ∀ action ∈ lossySession, action.Spelled := by
  simp only [lossySession, List.forall_mem_cons, Action.Spelled, List.not_mem_nil,
    false_implies, implies_true, and_true]
  refine ⟨?_, ?_, ?_, ?_⟩
  all_goals
    intro fd around command equal
    cases equal
    decide

theorem lossySession_keeps : ∀ action ∈ lossySession, action.Keeps twoReceivers := by
  simp only [lossySession, List.forall_mem_cons, Action.Keeps, List.not_mem_nil,
    false_implies, implies_true, and_true]
  refine ⟨?_, ?_, ?_, ?_⟩
  all_goals
    intro fd around command equal
    cases equal
    decide

theorem second_receiver_alone :
    ∃ initial outputs final after,
      construct receiversDocument receiversArgs (fun _ _ => nul) recordings = .ok initial ∧
      record step initial lossySession = .ok (outputs, final) ∧
      outputs.map Prod.snd = [.samples 2 [1, 2], .samples 2 [4, 5],
      .samples 1 [0], .samples 1 [6]] ∧
      record step initial (purge (Action.domain twoReceivers) true lossySession) =
        .ok (told (Action.domain twoReceivers) true outputs, after) := by
  have ran : (construct receiversDocument receiversArgs (fun _ _ => nul) recordings >>=
      fun initial => record step initial lossySession).map
        (fun result => result.1.map Prod.snd) =
      .ok [.samples 2 [1, 2], .samples 2 [4, 5], .samples 1 [0], .samples 1 [6]] := by
    decide +kernel
  rcases Outcome.map_eq_ok.mp ran with ⟨⟨outputs, final⟩, returned, answers⟩
  rcases Outcome.bind_eq_ok.mp returned with ⟨initial, constructed, recorded⟩
  have respects : ∀ devInfo ∈ boundDevices receiversDocument receiversArgs,
      twoReceivers.ofFile devInfo.2 = twoReceivers.ofDevice devInfo.1 := by decide +kernel
  rcases (served_as_if_alone recordings_prepared constructed respects lossySession_spelled
    lossySession_keeps).2 outputs final recorded true with ⟨after, alone, _⟩
  exact ⟨initial, outputs, final, after, constructed, recorded, answers, alone⟩

end Examples

end GenericEmulator

end IioEmu
