import Mathlib.Data.List.Basic

/-! # The generic command line

The path of the document is the first argument without a `:`, and every argument with an `@`
binds a device to a file. The identifiers of devices have a `:`, but so may a path. -/

namespace IioEmu

def find (text : String) (char : Char) : Option Nat := text.toList.findIdx? (· == char)

def substr (text : String) (position count : Nat) : String :=
  String.ofList ((text.toList.drop position).take count)

namespace InputParser

def getXMLPath (args : List String) : Option String :=
  args.find? fun arg => (find arg ':').isNone

def getDevices (args : List String) : List (String × String) :=
  args.filterMap fun arg =>
    (find arg '@').map fun index =>
      (substr arg 0 index, substr arg (index + 1) (arg.length - index))

def binding (device : String × String) : String := device.1 ++ "@" ++ device.2

/-- The documented argument list is parsed into what it was put together from. -/
def RoundTrips (path : String) (devices : List (String × String)) : Prop :=
  getXMLPath (path :: devices.map binding) = some path ∧
    getDevices (path :: devices.map binding) = devices

theorem find_isNone_iff {text : String} {char : Char} :
    (find text char).isNone ↔ char ∉ text.toList := by
  rw [find, Option.isNone_iff_eq_none, List.findIdx?_eq_none_iff]
  simp only [beq_eq_false_iff_ne]
  exact ⟨fun differs member => differs char member rfl, fun absent other member equal =>
    absent (equal ▸ member)⟩

section Binding

variable {device : String × String}

theorem toList_binding : (binding device).toList =
    device.1.toList ++ '@' :: device.2.toList := by
  simp [binding]

theorem find_binding (plain : '@' ∉ device.1.toList) :
    find (binding device) '@' = some device.1.toList.length := by
  have none : device.1.toList.findIdx? (· == '@') = none := by
    rw [← Option.isNone_iff_eq_none]
    exact find_isNone_iff.mpr plain
  rw [find, toList_binding, List.findIdx?_append, none, List.findIdx?_cons]
  simp

theorem substr_binding :
    substr (binding device) 0 device.1.toList.length = device.1 ∧
      substr (binding device) (device.1.toList.length + 1)
        ((binding device).length - device.1.toList.length) = device.2 := by
  rw [substr, substr, ← String.length_toList, toList_binding]
  constructor
  · rw [List.drop_zero, List.take_left, String.ofList_toList]
  · have behind : (device.1.toList ++ '@' :: device.2.toList).drop
        (device.1.toList.length + 1) = device.2.toList := by
      rw [← List.drop_drop, List.drop_left]
      rfl
    rw [behind, List.take_of_length_le, String.ofList_toList]
    rw [List.length_append, List.length_cons]
    omega

end Binding

theorem getDevices_eq {path : String} (plainPath : '@' ∉ path.toList)
    {devices : List (String × String)} (plain : ∀ device ∈ devices,
      '@' ∉ device.1.toList) :
    getDevices (path :: devices.map binding) = devices := by
  have bound : getDevices (devices.map binding) = devices := by
    induction devices with
    | nil => rfl
    | cons device devices induction =>
        have rest := induction fun later member => plain later (by simp [member])
        have first := find_binding (plain device (by simp))
        rw [List.map_cons, getDevices, List.filterMap_cons, first, ← getDevices, rest]
        simp only [Option.map_some, substr_binding]
  have missing : find path '@' = none := by
    rw [← Option.isNone_iff_eq_none]
    exact find_isNone_iff.mpr plainPath
  rw [getDevices, List.filterMap_cons, missing, ← getDevices, bound]
  rfl

/-- The documented argument list round-trips exactly when the path has no `:`. -/
theorem round_trips_iff {path : String} (plainPath : '@' ∉ path.toList)
    {devices : List (String × String)} (plain : ∀ device ∈ devices,
      '@' ∉ device.1.toList) :
    RoundTrips path devices ↔ ':' ∉ path.toList := by
  rw [RoundTrips, and_iff_left (getDevices_eq plainPath plain),
    getXMLPath, ← find_isNone_iff]
  by_cases first : (find path ':').isNone
  · simp [first]
  · simp only [List.find?_cons, first, Bool.false_eq_true, iff_false]
    -- a later argument has an `@`, so it is not the path
    intro found
    have member := List.mem_of_find?_eq_some found
    rw [List.mem_map] at member
    rcases member with ⟨device, _, equal⟩
    apply plainPath
    rw [← equal, toList_binding]
    simp

/-- A path that names a drive is not the one the parser finds. -/
theorem path_with_colon_is_not_found :
    ¬ ∀ (path : String) (devices : List (String × String)), '@' ∉ path.toList →
      (∀ device ∈ devices, device.1 ≠ "" ∧ '@' ∉ device.1.toList) →
      RoundTrips path devices := by
  intro roundTrips
  have found := (roundTrips "C:/pluto.xml" [("iio:device2", "data.bin")] (by decide)
    (by decide)).1
  exact absurd found (by decide)

theorem pluto_round_trips :
    RoundTrips "pluto.xml" [("iio:device2", "data.bin"), ("iio:device3", "data.bin")] :=
  (round_trips_iff (by decide) (by decide)).mpr (by decide)

end InputParser

end IioEmu
