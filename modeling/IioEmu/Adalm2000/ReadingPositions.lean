import IioEmu.Adalm2000.DeviceRuns
import IioEmu.Devices.M2kDAC.CursorSafety
import IioEmu.Devices.M2kLogicTX.CursorSafety

/-! # Reading positions in a whole context

Any number of clients open, write, read, close and disconnect in any order. The transmitters
are read in range as long as no converter is closed, and the logic transmitter is not
cancelled, while its reader stands behind the start. -/

namespace IioEmu.Emulator

open Execution

section Positions

variable {δ : Type} [Double δ] [LibXml2] [TinyIIOD]

structure ReadsInRange (emulator : Emulator δ) : Prop where
  dac : ∀ channel, (emulator.dac channel).ReadsInRange
  tx : emulator.logicTX.ReadsInRange

structure CursorsValid (emulator : Emulator δ) : Prop where
  dac : ∀ channel, (emulator.dac channel).CursorValid
  tx : emulator.logicTX.CursorValid

omit [LibXml2] [TinyIIOD] in
theorem readsInRange_iff_cursorsValid (emulator : Emulator δ) :
    emulator.ReadsInRange ↔ emulator.CursorsValid := by
  constructor
  · intro inRange
    exact ⟨fun channel => (M2kDAC.readsInRange_iff_cursorValid _).mp (inRange.dac channel),
      (M2kLogicTX.readsInRange_iff_cursorValid _).mp inRange.tx⟩
  · intro valid
    exact ⟨fun channel => (M2kDAC.readsInRange_iff_cursorValid _).mpr (valid.dac channel),
      (M2kLogicTX.readsInRange_iff_cursorValid _).mpr valid.tx⟩

def Closes (emulator : Emulator δ) (channel : Bool) (action : Action) : Prop :=
  ∃ fd device, action = .serve fd (.closeDev device) ∧
    emulator.getDevice device = some (dacSlot channel)

def Cancels (emulator : Emulator δ) (action : Action) : Prop :=
  ∃ fd, action = .disconnect fd ∧ emulator.getDeviceByDescriptor fd = some .logicTX

variable {emulator next : Emulator δ} {action : Action} {reply : Reply}

theorem dacActions_cases (emulator : Emulator δ) (channel : Bool) (action : Action) :
    dacActions channel emulator action = [] ∨ ∃ dacAction,
      dacActions channel emulator action = [dacAction] ∧
        (dacAction = .closeDev → Closes emulator channel action) := by
  cases action with
  | disconnect fd =>
      simp only [dacActions]
      split
      · exact .inr ⟨_, rfl, fun equal => by cases equal⟩
      · exact .inl rfl
  | serve fd command =>
      cases command with
      | closeDev device =>
          simp only [dacActions, dacCommand]
          split
          · rename_i found
            exact .inr ⟨_, rfl, fun _ => ⟨fd, device, rfl, found⟩⟩
          · exact .inl rfl
      | openDev | writeDev | transferMemToDev =>
          simp only [dacActions, dacCommand]
          split
          · exact .inr ⟨_, rfl, fun equal => by cases equal⟩
          · exact .inl rfl
      | readDev =>
          simp only [dacActions, dacCommand]
          split
          · exact .inr ⟨_, rfl, fun equal => by cases equal⟩
          · exact .inl rfl
      | _ => exact .inl rfl

theorem txActions_cases (emulator : Emulator δ) (action : Action) :
    txActions emulator action = [] ∨ ∃ txAction, txActions emulator action = [txAction] ∧
      (txAction = .cancelBuffer → Cancels emulator action) := by
  cases action with
  | disconnect fd =>
      simp only [txActions]
      split
      · rename_i found
        exact .inr ⟨_, rfl, fun _ => ⟨fd, rfl, found⟩⟩
      · exact .inl rfl
  | serve fd command =>
      cases command with
      | openDev | closeDev | writeDev | transferMemToDev | readDev =>
          simp only [txActions, txCommand]
          split
          · exact .inr ⟨_, rfl, fun equal => by cases equal⟩
          · exact .inl rfl
      | _ => exact .inl rfl

theorem CursorsValid.step (valid : CursorsValid emulator)
    (closes : ∀ channel,
      Closes emulator channel action → (emulator.dac channel).currentIndex = 0)
    (cancels : Cancels emulator action → emulator.logicTX.currentIndex = 0)
    (stepped : emulator.step action = .ok (reply, next)) : CursorsValid next := by
  have projects := step_projects stepped
  constructor
  · intro channel
    have ran := projects.dac channel
    rcases dacActions_cases emulator channel action with none | ⟨dacAction, one, asked⟩
    · rw [none] at ran
      exact (Except.ok.inj ran) ▸ valid.dac channel
    · rw [one, run_singleton] at ran
      exact (valid.dac channel).step (fun closed => closes channel (asked closed)) ran
  · have ran := projects.tx
    rcases txActions_cases emulator action with none | ⟨txAction, one, asked⟩
    · rw [none] at ran
      exact (Except.ok.inj ran) ▸ valid.tx
    · rw [one, run_singleton] at ran
      exact valid.tx.step (fun cancelled => cancels (asked cancelled)) ran

theorem advance_closes {channel : Bool} (closes : Closes emulator channel action) :
    ∃ next, advance step emulator action = .ok next ∧
      next.dac channel = { emulator.dac channel with samples := [] } := by
  rcases closes with ⟨fd, device, rfl, found⟩
  have same : (emulator.setCurrentSocket fd).getDevice device =
    some (dacSlot channel) := found
  cases channel with
  | false =>
      have stepped : emulator.step (.serve fd (.closeDev device)) = .ok (.returned 0,
          { emulator.setCurrentSocket fd with
            dacA := { emulator.dacA with samples := [] } }) := by
        simp only [step, perform, closeDev, same]
        rfl
      exact ⟨_, (advance_eq_ok_iff step).mpr ⟨_, stepped⟩, rfl⟩
  | true =>
      have stepped : emulator.step (.serve fd (.closeDev device)) = .ok (.returned 0,
          { emulator.setCurrentSocket fd with
            dacB := { emulator.dacB with samples := [] } }) := by
        simp only [step, perform, closeDev, same]
        rfl
      exact ⟨_, (advance_eq_ok_iff step).mpr ⟨_, stepped⟩, rfl⟩

theorem advance_cancels (cancels : Cancels emulator action) :
    ∃ next, advance step emulator action = .ok next ∧
      next.logicTX = { emulator.logicTX with samples := [] } := by
  rcases cancels with ⟨fd, rfl, found⟩
  have same : (emulator.setCurrentSocket fd).getDeviceByDescriptor fd = some .logicTX := found
  have stepped : emulator.step (.disconnect fd) = .ok (.returned 0,
      { emulator.setCurrentSocket fd with
        logicTX := { emulator.logicTX with samples := [] } }) := by
    simp only [step, socketDisconnected, same]
    rfl
  exact ⟨_, (advance_eq_ok_iff step).mpr ⟨_, stepped⟩, rfl⟩

/-- Whatever the clients do, every state reads in range exactly when each closing finds the
reader of its converter at the start, and so does each cancelling of the logic transmitter. -/
theorem context_reads_in_range_iff {initial : Emulator δ} (valid : initial.CursorsValid)
    (actions : List Action) :
    (∀ emulator, Reached (advance step) initial actions emulator →
      emulator.ReadsInRange) ↔
      ∀ emulator action, Taken (advance step) initial actions emulator action →
        (∀ channel, Closes emulator channel action →
          (emulator.dac channel).currentIndex = 0) ∧
        (Cancels emulator action → emulator.logicTX.currentIndex = 0) := by
  constructor
  · intro inRange emulator action taken
    constructor
    · intro channel closes
      rcases advance_closes closes with ⟨next, stepped, emptied⟩
      have after := inRange next (taken.next_reached (advance step) stepped)
      have positions := ((readsInRange_iff_cursorsValid next).mp after).dac channel
      rw [emptied] at positions
      rcases positions with inside | ⟨_, start⟩
      · cases inside
      · exact start
    · intro cancels
      rcases advance_cancels cancels with ⟨next, stepped, emptied⟩
      have after := inRange next (taken.next_reached (advance step) stepped)
      have position := ((readsInRange_iff_cursorsValid next).mp after).tx
      rw [emptied] at position
      rcases position with inside | ⟨_, start⟩
      · cases inside
      · exact start
  · intro atStart emulator reached
    rw [readsInRange_iff_cursorsValid]
    apply reached_invariant (advance step) CursorsValid valid ?_ emulator reached
    intro state action next taken stepped held
    rcases (advance_eq_ok_iff step).mp stepped with ⟨reply, stepped⟩
    rcases atStart state action taken with ⟨closes, cancels⟩
    exact held.step closes cancels stepped

theorem cursorsValid_of_construct [LibXml2Text] {memory initial : Emulator δ}
    (constructed : construct memory = .ok initial) : initial.CursorsValid := by
  rw [construct, Outcome.bind_eq_ok] at constructed
  rcases constructed with ⟨context, _, equal⟩
  cases equal
  constructor
  · intro channel
    cases channel with
    | false => exact .inr ⟨rfl, rfl⟩
    | true => exact .inr ⟨rfl, rfl⟩
  · exact .inr ⟨rfl, rfl⟩

end Positions

section Examples

open scoped Reference

theorem session_reads_in_range_iff :
    ∃ initial : Emulator Rat, construct zeroed = .ok initial ∧
      ((∀ emulator, Reached (advance step) initial session emulator → emulator.ReadsInRange) ↔
        ∀ emulator action, Taken (advance step) initial session emulator action →
          (∀ channel, Closes emulator channel action →
            (emulator.dac channel).currentIndex = 0) ∧
          (Cancels emulator action → emulator.logicTX.currentIndex = 0)) := by
  rcases session_returns with ⟨initial, constructed, _⟩
  exact ⟨initial, constructed,
    context_reads_in_range_iff (cursorsValid_of_construct constructed) session⟩

end Examples

end IioEmu.Emulator
