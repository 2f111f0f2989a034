import IioEmu.Context.GenericXmlContext
import IioEmu.Foundation.Execution
import Mathlib.Logic.Function.Basic

/-! # Disconnected clients

A run of the server with its history kept beside it: every accepted connection
has a number of its own, and a device belongs to the connection that opened it
last until it is closed. The program only keeps descriptors, and the kernel
gives out the descriptor of a closed connection again. -/

namespace IioEmu.TcpServer

open Execution

inductive Event
  | accept (fd : Int)
  | openDev (fd : Int) (device : String)
  | closeDev (fd : Int) (device : String)
  | disconnect (fd : Int)

/-- The context, and the history: the number of the connection on a descriptor,
how many were accepted, and the connection each device belongs to. -/
structure Server where
  context : GenericXmlContext
  connection : Int → Option Nat
  acceptedCount : Nat
  owner : Nat → Option Nat

def initial (devices : List AbstractDevice) : Server where
  context := ⟨devices, ⟨-1, false⟩⟩
  connection := fun _ => none
  acceptedCount := 0
  owner := fun _ => none

def serve (server : Server) (fd : Int) : GenericXmlContext :=
  server.context.setCurrentSocket (SocketUnix.construct fd)

/-- An event is refused when it cannot happen: the kernel gives out descriptors
that are not open, and a client needs a connection. -/
def step (server : Server) : Event → Except Unit Server
  | .accept fd =>
      match server.connection fd with
      | some _ => .error ()
      | none => .ok { server with
          connection := Function.update server.connection fd (some server.acceptedCount)
          acceptedCount := server.acceptedCount + 1 }
  | .openDev fd device =>
      match server.connection fd with
      | none => .error ()
      | some number =>
          let context := serve server fd
          .ok { server with
            context := (context.openDev device).2
            owner := match context.getDevice device with
              | some position => Function.update server.owner position (some number)
              | none => server.owner }
  | .closeDev fd device =>
      match server.connection fd with
      | none => .error ()
      | some _ =>
          let context := serve server fd
          .ok { server with
            context := context
            owner := match context.getDevice device with
              | some position => Function.update server.owner position none
              | none => server.owner }
  | .disconnect fd =>
      match server.connection fd with
      | none => .error ()
      | some _ => .ok { server with
          context := serve server fd
          connection := Function.update server.connection fd none }

/-! ## What each event does -/

section Events

variable {server next : Server} {fd : Int} {device : String}

theorem step_accept :
    step server (.accept fd) = .ok next ↔ server.connection fd = none ∧
      next = { server with
        connection := Function.update server.connection fd (some server.acceptedCount)
        acceptedCount := server.acceptedCount + 1 } := by
  cases connected : server.connection fd <;> simp [step, connected, eq_comm]

theorem step_openDev :
    step server (.openDev fd device) = .ok next ↔
      ∃ number, server.connection fd = some number ∧
        next = match server.context.getDevice device with
          | some position => { server with
              context := { serve server fd with
                devices := server.context.devices.modify position
                  (AbstractDevice.setDescriptor fd) }
              owner := Function.update server.owner position (some number) }
          | none => { server with context := serve server fd } := by
  cases connected : server.connection fd with
  | none => simp [step, connected]
  | some number =>
      have same : (serve server fd).getDevice device =
        server.context.getDevice device := rfl
      cases found : server.context.getDevice device with
      | none =>
          have refused := GenericXmlContext.openDev_of_none (same.trans found)
          simp [step, connected, same, found, refused, eq_comm]
      | some position =>
          have opened := GenericXmlContext.openDev_of_some (same.trans found)
          have socket : (serve server fd).currentSocket.fd = fd := rfl
          rw [socket] at opened
          simp only [step, connected, same, found, opened, Except.ok.injEq,
            Option.some.injEq, exists_eq_left']
          exact eq_comm

theorem step_closeDev :
    step server (.closeDev fd device) = .ok next ↔
      ∃ number, server.connection fd = some number ∧
        next = match server.context.getDevice device with
          | some position => { server with
              context := serve server fd
              owner := Function.update server.owner position none }
          | none => { server with context := serve server fd } := by
  have same : (serve server fd).getDevice device = server.context.getDevice device := rfl
  cases connected : server.connection fd <;>
    cases found : server.context.getDevice device <;>
    simp [step, connected, same, found, eq_comm]

theorem step_disconnect :
    step server (.disconnect fd) = .ok next ↔
      ∃ number, server.connection fd = some number ∧
        next = { server with
          context := serve server fd
          connection := Function.update server.connection fd none } := by
  cases connected : server.connection fd <;> simp [step, connected, eq_comm]

end Events

/-! ## Tags -/

structure Tagged (server : Server) : Prop where
  counted : ∀ fd number, server.connection fd = some number →
    number < server.acceptedCount
  ownerCounted : ∀ position number, server.owner position = some number →
    number < server.acceptedCount
  single : ∀ fd other number, server.connection fd = some number →
    server.connection other = some number → fd = other
  carried : ∀ fd number position, server.connection fd = some number →
    server.owner position = some number →
      ∃ device, server.context.devices[position]? = some device ∧ device.fd = fd

theorem tagged_initial (devices : List AbstractDevice) : Tagged (initial devices) := by
  refine ⟨?_, ?_, ?_, ?_⟩ <;> simp [initial]

theorem Tagged.accept {server : Server} (tagged : Tagged server) {fd : Int} :
    Tagged { server with
      connection := Function.update server.connection fd (some server.acceptedCount)
      acceptedCount := server.acceptedCount + 1 } := by
  have cases_of_connected : ∀ other number,
      Function.update server.connection fd (some server.acceptedCount) other = some number →
        (other = fd ∧ number = server.acceptedCount) ∨
        (server.connection other = some number ∧ number < server.acceptedCount) := by
    intro other number connected
    rcases eq_or_ne other fd with rfl | different
    · rw [Function.update_self, Option.some.injEq] at connected
      exact .inl ⟨rfl, connected.symm⟩
    · rw [Function.update_of_ne different] at connected
      exact .inr ⟨connected, tagged.counted other number connected⟩
  refine ⟨?_, ?_, ?_, ?_⟩
  · intro other number connected
    rcases cases_of_connected other number connected with ⟨_, equal⟩ | ⟨_, earlier⟩
    · exact Nat.lt_succ_of_le (Nat.le_of_eq equal)
    · exact Nat.lt_succ_of_lt earlier
  · intro position number owned
    exact Nat.lt_succ_of_lt (tagged.ownerCounted position number owned)
  · intro first second number firstConnected secondConnected
    rcases cases_of_connected first number firstConnected with
      ⟨isNew, new⟩ | ⟨old, earlier⟩
    · rcases cases_of_connected second number secondConnected with ⟨same, _⟩ | ⟨_, older⟩
      · rw [isNew, same]
      · omega
    · rcases cases_of_connected second number secondConnected with ⟨_, new⟩ | ⟨other, _⟩
      · omega
      · exact tagged.single first second number old other
  · intro other number position connected owned
    have earlier := tagged.ownerCounted position number owned
    rcases cases_of_connected other number connected with ⟨_, new⟩ | ⟨old, _⟩
    · omega
    · exact tagged.carried other number position old owned

theorem Tagged.disconnect {server : Server} (tagged : Tagged server)
    (context : GenericXmlContext) (same : context.devices = server.context.devices)
    (fd : Int) :
    Tagged { server with
      context := context
      connection := Function.update server.connection fd none } := by
  have connected_before : ∀ other number,
      Function.update server.connection fd none other = some number →
        server.connection other = some number := by
    intro other number connected
    rcases eq_or_ne other fd with rfl | different
    · rw [Function.update_self] at connected
      cases connected
    · rwa [Function.update_of_ne different] at connected
  refine ⟨?_, tagged.ownerCounted, ?_, ?_⟩
  · intro other number connected
    exact tagged.counted other number (connected_before other number connected)
  · intro first second number firstConnected secondConnected
    exact tagged.single first second number (connected_before first number firstConnected)
      (connected_before second number secondConnected)
  · intro other number position connected owned
    simp only [same]
    exact tagged.carried other number position
      (connected_before other number connected) owned

theorem Tagged.disown {server : Server} (tagged : Tagged server)
    (context : GenericXmlContext) (same : context.devices = server.context.devices)
    (owner : Nat → Option Nat)
    (fewer : ∀ position number, owner position = some number →
      server.owner position = some number) :
    Tagged { server with context := context, owner := owner } := by
  refine ⟨tagged.counted, ?_, tagged.single, ?_⟩
  · intro position number owned
    exact tagged.ownerCounted position number (fewer position number owned)
  · intro fd number position connected owned
    simp only [same]
    exact tagged.carried fd number position connected (fewer position number owned)

theorem Tagged.openDev {server : Server} (tagged : Tagged server) {fd : Int}
    {number position : Nat} (connected : server.connection fd = some number)
    (exists_device : position < server.context.devices.length)
    (context : GenericXmlContext)
    (devices : context.devices = server.context.devices.modify position
      (AbstractDevice.setDescriptor fd)) :
    Tagged { server with
      context := context
      owner := Function.update server.owner position (some number) } := by
  refine ⟨tagged.counted, ?_, tagged.single, ?_⟩
  · intro other owned ownedBy
    rcases eq_or_ne other position with rfl | different
    · simp only [Function.update_self, Option.some.injEq] at ownedBy
      rw [← ownedBy]
      exact tagged.counted fd number connected
    · simp only [Function.update_of_ne different] at ownedBy
      exact tagged.ownerCounted other owned ownedBy
  · intro other owned place otherConnected ownedBy
    simp only [devices]
    rcases eq_or_ne place position with rfl | different
    · simp only [Function.update_self, Option.some.injEq] at ownedBy
      subst ownedBy
      have same := tagged.single other fd number otherConnected connected
      refine ⟨(server.context.devices[place]).setDescriptor fd, ?_, same.symm⟩
      simp [exists_device]
    · simp only [Function.update_of_ne different] at ownedBy
      rcases tagged.carried other owned place otherConnected ownedBy with
        ⟨device, at_place, carries⟩
      refine ⟨device, ?_, carries⟩
      rw [List.getElem?_modify_ne _ _ (Ne.symm different)]
      exact at_place

theorem Tagged.step {server next : Server} {event : Event} (tagged : Tagged server)
    (stepped : TcpServer.step server event = .ok next) : Tagged next := by
  cases event with
  | accept fd =>
      rw [(step_accept.mp stepped).2]
      exact tagged.accept
  | openDev fd device =>
      rcases step_openDev.mp stepped with ⟨number, connected, opened⟩
      cases found : server.context.getDevice device with
      | none =>
          rw [opened, found]
          exact tagged.disown (serve server fd) rfl server.owner (fun _ _ owned => owned)
      | some position =>
          rw [opened, found]
          exact tagged.openDev connected
            (List.findIdx?_eq_some_iff_getElem.mp found).1 _ rfl
  | closeDev fd device =>
      rcases step_closeDev.mp stepped with ⟨number, connected, closed⟩
      cases found : server.context.getDevice device with
      | none =>
          rw [closed, found]
          exact tagged.disown (serve server fd) rfl server.owner (fun _ _ owned => owned)
      | some position =>
          rw [closed, found]
          refine tagged.disown (serve server fd) rfl _ ?_
          intro other number owned
          rcases eq_or_ne other position with rfl | different
          · rw [Function.update_self] at owned
            cases owned
          · rwa [Function.update_of_ne different] at owned
  | disconnect fd =>
      rcases step_disconnect.mp stepped with ⟨number, connected, rfl⟩
      exact tagged.disconnect (serve server fd) rfl fd

/-! ## Cleaning up -/

/-- The disconnect on a descriptor cancels exactly the devices that belong to
the connection. -/
def CancelsOwned (server : Server) (fd : Int) (number : Nat) : Prop :=
  ∀ position, server.context.socketDisconnected fd = some position ↔
    server.owner position = some number

/-- At most one device belongs to the connection, and it stands before every
other device that carries its descriptor. -/
structure FirstOwner (server : Server) (fd : Int) (number : Nat) : Prop where
  single : ∀ first second, server.owner first = some number →
    server.owner second = some number → first = second
  before : ∀ position device, server.context.devices[position]? = some device →
    device.fd = fd → server.owner position ≠ some number →
      ∃ first < position, server.owner first = some number

theorem socketDisconnected_eq_some_iff {context : GenericXmlContext} {fd : Int}
    {position : Nat} :
    context.socketDisconnected fd = some position ↔
      (∃ device, context.devices[position]? = some device ∧ device.fd = fd) ∧
        ∀ earlier < position, ∀ device, context.devices[earlier]? = some device →
          device.fd ≠ fd := by
  rw [GenericXmlContext.socketDisconnected, GenericXmlContext.getDeviceByDescriptor,
    List.findIdx?_eq_some_iff_getElem]
  constructor
  · rintro ⟨bound, carries, earlier⟩
    refine ⟨⟨_, List.getElem?_eq_getElem bound, by simpa using carries⟩, ?_⟩
    intro place before device at_place carried
    rw [List.getElem?_eq_getElem (by omega), Option.some.injEq] at at_place
    have other := earlier place before
    rw [at_place] at other
    simp [carried] at other
  · rintro ⟨⟨device, at_position, carries⟩, earlier⟩
    rcases List.getElem?_eq_some_iff.mp at_position with ⟨bound, equal⟩
    refine ⟨bound, by simp [equal, carries], ?_⟩
    intro place before
    have other := earlier place before _ (List.getElem?_eq_getElem (by omega))
    simp [other]

theorem cancelsOwned_iff_firstOwner {server : Server} (tagged : Tagged server) {fd : Int}
    {number : Nat} (connected : server.connection fd = some number) :
    CancelsOwned server fd number ↔ FirstOwner server fd number := by
  constructor
  · intro cancels
    refine ⟨?_, ?_⟩
    · intro first second firstOwned secondOwned
      have one := (cancels first).mpr firstOwned
      have two := (cancels second).mpr secondOwned
      exact Option.some.inj (one.symm.trans two)
    · intro position device at_position carries unowned
      cases found : server.context.socketDisconnected fd with
      | none =>
          have nowhere := List.findIdx?_eq_none_iff.mp found device
            (List.mem_of_getElem? at_position)
          simp [carries] at nowhere
      | some first =>
          have owned := (cancels first).mp found
          refine ⟨first, ?_, owned⟩
          have different : first ≠ position := fun equal => unowned (equal ▸ owned)
          rcases Nat.lt_or_gt_of_ne different with before | after
          · exact before
          · have none_earlier := (socketDisconnected_eq_some_iff.mp found).2
            exact absurd carries (none_earlier position after device at_position)
  · intro firstOwner position
    rw [socketDisconnected_eq_some_iff]
    constructor
    · rintro ⟨⟨device, at_position, carries⟩, earlier⟩
      by_contra unowned
      rcases firstOwner.before position device at_position carries unowned with
        ⟨first, before, owned⟩
      rcases tagged.carried fd number first connected owned with
        ⟨other, at_first, otherCarries⟩
      exact earlier first before other at_first otherCarries
    · intro owned
      refine ⟨tagged.carried fd number position connected owned, ?_⟩
      intro place before device at_place carries
      by_cases placeOwned : server.owner place = some number
      · have same := firstOwner.single place position placeOwned owned
        omega
      · rcases firstOwner.before place device at_place carries placeOwned with
          ⟨first, earlier, firstOwned⟩
        have same := firstOwner.single first position firstOwned owned
        omega

/-! ## Whole runs -/

theorem tagged_of_reached {devices : List AbstractDevice} {events : List Event}
    {server : Server} (reached : Reached step (initial devices) events server) :
    Tagged server :=
  reached_invariant step Tagged (tagged_initial devices)
    (fun _ _ _ _ stepped tagged => tagged.step stepped) server reached

/-- Over whole runs, every disconnect cancels exactly the devices of its
connection when, and only when, each finds its connection with at most one
device, standing before all others that carry the descriptor. -/
theorem disconnects_clean_iff_first_owner (devices : List AbstractDevice)
    (events : List Event) :
    (∀ server fd number, Taken step (initial devices) events server (.disconnect fd) →
        server.connection fd = some number → CancelsOwned server fd number) ↔
      ∀ server fd number, Taken step (initial devices) events server (.disconnect fd) →
        server.connection fd = some number → FirstOwner server fd number := by
  constructor
  · intro clean server fd number taken connected
    exact (cancelsOwned_iff_firstOwner (tagged_of_reached (taken.reached step)) connected).mp
      (clean server fd number taken connected)
  · intro first server fd number taken connected
    exact (cancelsOwned_iff_firstOwner (tagged_of_reached (taken.reached step)) connected).mpr
      (first server fd number taken connected)

/-- One connection opens both channels of the converter: only the first is
cancelled. -/
theorem second_device_not_cancelled :
    ¬ ∀ (devices : List AbstractDevice) (events : List Event) (server : Server) (fd : Int)
      (number : Nat), Taken step (initial devices) events server (.disconnect fd) →
        server.connection fd = some number → CancelsOwned server fd number := by
  intro clean
  let devices : List AbstractDevice := [⟨"iio:device6", -1⟩, ⟨"iio:device7", -1⟩]
  have opened : ∃ server, run step (initial devices)
      [.accept 5, .openDev 5 "iio:device6", .openDev 5 "iio:device7"] = .ok server ∧
        server.connection 5 = some 0 ∧ server.owner 1 = some 0 ∧
        server.context.socketDisconnected 5 = some 0 :=
    ⟨_, rfl, rfl, rfl, rfl⟩
  rcases opened with ⟨server, ran, connected, owned, cancelled⟩
  have taken : Taken step (initial devices)
      [.accept 5, .openDev 5 "iio:device6", .openDev 5 "iio:device7", .disconnect 5]
      server (.disconnect 5) := ⟨_, List.prefix_rfl, ran⟩
  have second := (clean devices _ server 5 0 taken connected 1).mpr owned
  rw [cancelled] at second
  cases second

end IioEmu.TcpServer
