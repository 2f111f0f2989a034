import IioEmu.Devices.M2kDAC.CancelBuffer
import IioEmu.Devices.M2kLogicTX.FrameIsolation

/-! # Upsampling a buffer again

A transfer upsamples whatever is stored and does not remember that it did, so a
second transfer of the same frame stretches it once more. -/

namespace IioEmu

open Execution

/-! ## Systems that upsample what they store -/

section Stretching

variable {State Action Sample : Type} (step : State → Action → Outcome State)
  (stored : State → List Sample) (transfers : Action → Bool)
  (upsample : List Sample → Outcome (List Sample)) (Holds : State → List Action → Prop)

def StretchesOnTransfer : Prop :=
  ∀ state action actions next, Holds state (action :: actions) →
    step state action = .ok next → Holds next actions ∧
      if transfers action then upsample (stored state) = .ok (stored next)
      else stored next = stored state

variable {step stored transfers upsample Holds}

theorem StretchesOnTransfer.length_le
    (stretches : StretchesOnTransfer step stored transfers upsample Holds)
    (longer : ∀ source dest, upsample source = .ok dest → source.length ≤ dest.length)
    {state final : State} {actions : List Action} (holds : Holds state actions)
    (ran : run step state actions = .ok final) :
    (stored state).length ≤ (stored final).length := by
  induction actions generalizing state with
  | nil =>
      cases ran
      exact Nat.le_refl _
  | cons action actions induction =>
      rw [run_cons_eq_ok_iff] at ran
      rcases ran with ⟨next, stepped, rest⟩
      have once := stretches state action actions next holds stepped
      apply Nat.le_trans ?_ (induction once.1 rest)
      cases transferred : transfers action with
      | true =>
          rw [transferred, if_pos rfl] at once
          exact longer _ _ once.2
      | false =>
          rw [transferred, if_neg (by decide)] at once
          rw [once.2]

theorem StretchesOnTransfer.stored_kept_iff
    (stretches : StretchesOnTransfer step stored transfers upsample Holds)
    (longer : ∀ source dest, upsample source = .ok dest → source.length ≤ dest.length)
    {state final : State} {actions : List Action} {Still : Prop}
    (keeps : Still → upsample (stored state) = .ok (stored state))
    (grows : ¬ Still → ∀ dest, upsample (stored state) = .ok dest →
      (stored state).length < dest.length)
    (holds : Holds state actions) (ran : run step state actions = .ok final) :
    stored final = stored state ↔
      (∀ action ∈ actions, transfers action = false) ∨ Still := by
  induction actions generalizing state with
  | nil =>
      cases ran
      simp
  | cons action actions induction =>
      rw [run_cons_eq_ok_iff] at ran
      rcases ran with ⟨next, stepped, rest⟩
      have once := stretches state action actions next holds stepped
      have goesOn (same : stored next = stored state) :
          stored final = stored state ↔
            (∀ action ∈ actions, transfers action = false) ∨ Still := by
        rw [← same] at keeps grows ⊢
        exact induction keeps grows once.1 rest
      cases transferred : transfers action with
      | false =>
          rw [transferred, if_neg (by decide)] at once
          rw [goesOn once.2]
          simp [transferred]
      | true =>
          rw [transferred, if_pos rfl] at once
          have fails : ¬ ∀ other ∈ action :: actions, transfers other = false := by
            intro none
            have absent := none action List.mem_cons_self
            rw [transferred] at absent
            cases absent
          by_cases still : Still
          · have same : stored next = stored state := by
              have kept := keeps still
              rw [once.2] at kept
              exact Except.ok.inj kept
            rw [goesOn same]
            simp [still]
          · have grown := grows still _ once.2
            have later := stretches.length_le longer once.1 rest
            simp only [fails, still, or_self, iff_false]
            intro same
            rw [same] at later
            omega

end Stretching

/-! ## The analog transmitter -/

namespace M2kDAC

variable {δ : Type} [Double δ]

def Action.transfers : Action → Bool
  | .transferMemToDev _ _ => true
  | _ => false

/-- Calls that store no new samples while one document is in force: transfers,
reads, openings that disable the device, and writes to it while it is disabled. -/
def StoresNothing (doc : Option XmlDoc) : Bool → List Action → Prop
  | _, [] => True
  | enable, .transferMemToDev document _ :: actions =>
      document = doc ∧ StoresNothing doc enable actions
  | enable, .transferSamplesToRXDevice _ :: actions => StoresNothing doc enable actions
  | _, .openDev document _ mask _ :: actions =>
      document = doc ∧ mask = 0 ∧ StoresNothing doc false actions
  | enable, .writeDev _ _ _ :: actions => enable = false ∧
  StoresNothing doc enable actions
  | _, .closeDev :: _ => False
  | _, .cancelBuffer :: _ => False

variable [LibXml2] [TinyIIOD]

def FollowsTransfer (doc : Option XmlDoc) (dac : M2kDAC δ) : Prop :=
  ∃ deviceId cyclic enable samplerate oversamplingRatio history bytesCount,
    run step (construct deviceId cyclic enable samplerate oversamplingRatio)
      (history ++ [.transferMemToDev doc bytesCount]) = .ok dac

theorem FollowsTransfer.rated {doc : Option XmlDoc} {dac : M2kDAC δ}
    (follows : FollowsTransfer doc dac) : Rated doc dac := by
  rcases follows with ⟨_, _, _, _, _, history, bytesCount, ran⟩
  rw [run_append_eq_ok_iff] at ran
  rcases ran with ⟨before, _, transferred⟩
  rw [run_singleton] at transferred
  rcases step_transferMemToDev.mp transferred with ⟨loaded, samples, returned, _, rfl⟩
  have kept := eq_of_loadCalibValues returned
  have named : loaded.deviceId = before.deviceId := by rw [kept]
  exact rated_of_loaded returned named rfl rfl

structure Idle (doc : Option XmlDoc) (ratio : Nat) (dac : M2kDAC δ)
    (actions : List Action) : Prop where
  rated : Rated doc dac
  atRatio : dac.ratio = ratio
  filled : dac.samples ≠ []
  storesNothing : StoresNothing doc dac.enable actions

theorem eq_of_rated {doc : Option XmlDoc} {dac loaded : M2kDAC δ}
    (rated : Rated doc dac) (returned : dac.loadCalibValues doc = .ok loaded) :
    loaded = dac := by
  rw [rated] at returned
  exact (Except.ok.inj returned).symm

theorem stretchesOnTransfer (doc : Option XmlDoc) (ratio : Nat) :
    StretchesOnTransfer (step (δ := δ)) samples Action.transfers
      (fun source => analogicalInterpolation source ratio) (Idle doc ratio) := by
  intro dac action actions next idle stepped
  have stores := idle.storesNothing
  cases action with
  | openDev document sampleSize mask cyclic =>
      rw [StoresNothing] at stores
      rcases stores with ⟨rfl, rfl, later⟩
      rcases step_openDev.mp stepped with ⟨loaded, returned, rfl⟩
      rw [eq_of_rated idle.rated returned]
      exact ⟨⟨rated_of_loaded idle.rated rfl rfl rfl, idle.atRatio, idle.filled, later⟩, rfl⟩
  | closeDev => exact stores.elim
  | writeDev buf offset bytesCount =>
      rw [StoresNothing] at stores
      rcases step_writeDev.mp stepped with ⟨_, rfl⟩ | ⟨enabled, _⟩
      · exact ⟨⟨idle.rated, idle.atRatio, idle.filled, stores.2⟩, rfl⟩
      · rw [stores.1] at enabled
        cases enabled
  | transferMemToDev document bytesCount =>
      rw [StoresNothing] at stores
      rcases stores with ⟨rfl, later⟩
      rcases step_transferMemToDev.mp stepped with
        ⟨loaded, upsampled, returned, interpolated, rfl⟩
      rw [eq_of_rated idle.rated returned, idle.atRatio] at interpolated
      rw [eq_of_rated idle.rated returned]
      have longer := length_le_of_analogicalInterpolation interpolated
      have filled : upsampled ≠ [] := by
        rw [← List.length_pos_iff] at *
        exact Nat.lt_of_lt_of_le (List.length_pos_iff.mpr idle.filled) longer
      exact ⟨⟨rated_of_loaded idle.rated rfl rfl rfl, idle.atRatio, filled, later⟩,
        interpolated⟩
  | cancelBuffer => exact stores.elim
  | transferSamplesToRXDevice samplesCount =>
      rcases step_transferSamplesToRXDevice.mp stepped with ⟨delivered, read⟩
      rw [transferSamplesToRXDevice, Outcome.bind_eq_ok] at read
      rcases read with ⟨final, _, equal⟩
      cases equal
      have same : dac.storedForRead samplesCount = dac.samples := by
        rw [storedForRead, if_neg]
        simpa using idle.filled
      rw [same]
      exact ⟨⟨rated_of_loaded idle.rated rfl rfl rfl, idle.atRatio, idle.filled, stores⟩, rfl⟩

theorem samples_kept_iff {doc : Option XmlDoc} {dac final : M2kDAC δ}
    (follows : FollowsTransfer doc dac) (filled : dac.samples ≠ [])
    {actions : List Action} (stores : StoresNothing doc dac.enable actions)
    (ran : run step dac actions = .ok final) :
    final.samples = dac.samples ↔
      (∀ action ∈ actions, action.transfers = false) ∨
        dac.ratio < 2 ∨ dac.samples.length = 1 := by
  apply (stretchesOnTransfer doc dac.ratio).stored_kept_iff ?_ ?_ ?_
    ⟨follows.rated, rfl, filled, stores⟩ ran
  · intro source dest upsampled
    exact length_le_of_analogicalInterpolation upsampled
  · intro still
    cases still with
    | inl single => exact if_pos single
    | inr alone =>
        rcases List.length_eq_one_iff.mp alone with ⟨sample, stored⟩
        simp only [stored]
        exact analogicalInterpolation_singleton sample dac.ratio
  · intro stretched dest upsampled
    have positive := List.length_pos_iff.mpr filled
    exact length_lt_of_analogicalInterpolation (by omega) (by omega) upsampled

end M2kDAC

/-! ## The logic transmitter -/

namespace M2kLogicTX

variable {δ : Type} [Double δ] [LibXml2] [TinyIIOD]

def Action.transfers : Action → Bool
  | .transferMemToDev _ _ => true
  | _ => false

def Action.StoresNothing (doc : Option XmlDoc) : Action → Prop
  | .transferMemToDev document _ => document = doc
  | .transferSamplesToRXDevice _ => True
  | _ => False

def FollowsTransfer (doc : Option XmlDoc) (tx : M2kLogicTX δ) : Prop :=
  ∃ deviceId samplerate history bytesCount, run step (construct deviceId samplerate)
    (history ++ [.transferMemToDev doc bytesCount]) = .ok tx

structure Idle (doc : Option XmlDoc) (ratio : Nat) (tx : M2kLogicTX δ)
    (actions : List Action) : Prop where
  rated : tx.loadValues doc = .ok tx
  atRatio : tx.ratio = ratio
  filled : tx.samples ≠ []
  storesNothing : ∀ action ∈ actions, action.StoresNothing doc

theorem loadValues_again {doc : Option XmlDoc} {tx loaded next : M2kLogicTX δ}
    (returned : tx.loadValues doc = .ok loaded) (named : next.deviceId = tx.deviceId)
    (rate : next.samplerate = loaded.samplerate) : next.loadValues doc = .ok next := by
  have again := loadValues_of_deviceId returned named
  rw [← rate] at again
  exact again

theorem FollowsTransfer.rated {doc : Option XmlDoc} {tx : M2kLogicTX δ}
    (follows : FollowsTransfer doc tx) : tx.loadValues doc = .ok tx := by
  rcases follows with ⟨_, _, history, bytesCount, ran⟩
  rw [run_append_eq_ok_iff] at ran
  rcases ran with ⟨before, _, transferred⟩
  rw [run_singleton] at transferred
  rcases step_transferMemToDev.mp transferred with ⟨loaded, samples, returned, _, rfl⟩
  exact loadValues_again returned rfl rfl

theorem stretchesOnTransfer (doc : Option XmlDoc) (ratio : Nat) :
    StretchesOnTransfer (step (δ := δ)) samples Action.transfers
      (fun source => digitalInterpolation source ratio) (Idle doc ratio) := by
  intro tx action actions next idle stepped
  have stores := idle.storesNothing action List.mem_cons_self
  have later : ∀ other ∈ actions, other.StoresNothing doc := fun other member =>
    idle.storesNothing other (List.mem_cons_of_mem action member)
  cases action with
  | openDev => exact stores.elim
  | closeDev => exact stores.elim
  | writeDev => exact stores.elim
  | cancelBuffer => exact stores.elim
  | transferMemToDev document bytesCount =>
      cases stores
      rcases step_transferMemToDev.mp stepped with
        ⟨loaded, upsampled, returned, interpolated, rfl⟩
      rw [idle.rated, Except.ok.injEq] at returned
      subst returned
      rw [idle.atRatio] at interpolated
      have longer := length_le_of_digitalInterpolation interpolated
      have filled : upsampled ≠ [] := by
        rw [← List.length_pos_iff]
        exact Nat.lt_of_lt_of_le (List.length_pos_iff.mpr idle.filled) longer
      exact ⟨⟨loadValues_again idle.rated rfl rfl, idle.atRatio, filled,
        later⟩, interpolated⟩
  | transferSamplesToRXDevice samplesCount =>
      rcases step_transferSamplesToRXDevice.mp stepped with ⟨delivered, read⟩
      rw [transferSamplesToRXDevice, Outcome.bind_eq_ok] at read
      rcases read with ⟨final, _, equal⟩
      cases equal
      have same : (if tx.samples.isEmpty then List.replicate samplesCount 0#16
          else tx.samples) = tx.samples := if_neg (by simpa using idle.filled)
      rw [same]
      exact ⟨⟨loadValues_again idle.rated rfl rfl, idle.atRatio, idle.filled, later⟩, rfl⟩

theorem samples_kept_iff {doc : Option XmlDoc} {tx final : M2kLogicTX δ}
    (follows : FollowsTransfer doc tx) (filled : tx.samples ≠ []) {actions : List Action}
    (stores : ∀ action ∈ actions, action.StoresNothing doc)
    (ran : run step tx actions = .ok final) :
    final.samples = tx.samples ↔
      (∀ action ∈ actions, action.transfers = false) ∨ tx.ratio < 2 := by
  apply (stretchesOnTransfer doc tx.ratio).stored_kept_iff ?_ ?_ ?_
    ⟨follows.rated, rfl, filled, stores⟩ ran
  · intro source dest upsampled
    exact length_le_of_digitalInterpolation upsampled
  · intro single
    exact if_pos single
  · intro stretched dest upsampled
    rw [length_digitalInterpolation upsampled, if_neg stretched]
    rw [Nat.lt_mul_iff_one_lt_right (List.length_pos_iff.mpr filled)]
    omega

end M2kLogicTX

/-! ## Both transmitters -/

section Both

variable {δ : Type} [Double δ] [LibXml2] [TinyIIOD]

/-- In every state of either transmitter that directly follows a transfer and has
samples stored, a run of calls that store no others leaves the samples as they
are exactly when it has no transfer or the ratio leaves nothing to upsample. -/
theorem upsampled_once_iff (doc : Option XmlDoc) :
    (∀ (dac final : M2kDAC δ) (actions : List M2kDAC.Action),
      dac.FollowsTransfer doc → dac.samples ≠ [] →
      M2kDAC.StoresNothing doc dac.enable actions →
      run M2kDAC.step dac actions = .ok final →
        (final.samples = dac.samples ↔
          (∀ action ∈ actions, action.transfers = false) ∨
            dac.ratio < 2 ∨ dac.samples.length = 1)) ∧
    (∀ (tx final : M2kLogicTX δ) (actions : List M2kLogicTX.Action),
      tx.FollowsTransfer doc → tx.samples ≠ [] →
      (∀ action ∈ actions, action.StoresNothing doc) →
      run M2kLogicTX.step tx actions = .ok final →
        (final.samples = tx.samples ↔
          (∀ action ∈ actions, action.transfers = false) ∨ tx.ratio < 2)) := by
  constructor
  · intro dac final actions follows filled stores ran
    exact M2kDAC.samples_kept_iff follows filled stores ran
  · intro tx final actions follows filled stores ran
    exact M2kLogicTX.samples_kept_iff follows filled stores ran

end Both

section Examples

open scoped Reference

def halvedDocument : Outcome (Option XmlDoc) :=
  Prod.snd <$> writeDevAttr (some Adalm2000Document.adalm2000Xml) "iio:device9"
    "sampling_frequency" (terminated "50000000") 9 .device

/-- One word becomes two with the first transfer and four with the second. -/
theorem second_transfer_upsamples_again :
    ¬ ∀ (doc : Option XmlDoc) (tx final : M2kLogicTX Rat)
    (actions : List M2kLogicTX.Action),
      tx.FollowsTransfer doc → tx.samples ≠ [] →
      (∀ action ∈ actions, action.StoresNothing doc) →
      run M2kLogicTX.step tx actions = .ok final → final.samples = tx.samples := by
  intro kept
  have stretched : (do
      let doc ← halvedDocument
      let tx ← run M2kLogicTX.step (M2kLogicTX.construct "iio:device9" (0 : Rat))
        [.writeDev (bytesOfWords [5]) 0 2, .transferMemToDev doc 2]
      let final ← run M2kLogicTX.step tx [.transferMemToDev doc 2]
      return (tx.samples, final.samples)) = .ok ([5, 5], [5, 5, 5, 5]) := by
    decide +kernel
  simp only [Outcome.bind_eq_ok, Outcome.pure_eq_ok, Except.ok.injEq, Prod.mk.injEq]
    at stretched
  rcases stretched with ⟨doc, _, tx, ran, final, ranAgain, stored, storedAgain⟩
  have same := kept doc tx final [.transferMemToDev doc 2]
    ⟨_, _, [.writeDev (bytesOfWords [5]) 0 2], 2, ran⟩ (by simp [stored])
    (by simp [M2kLogicTX.Action.StoresNothing]) ranAgain
  rw [stored, storedAgain] at same
  exact absurd same (by decide)

theorem bundled_rates_keep_samples :
    ∃ tx final : M2kLogicTX Rat,
      run M2kLogicTX.step (M2kLogicTX.construct "iio:device9" 0)
        [.writeDev (bytesOfWords [5]) 0 2,
          .transferMemToDev (some Adalm2000Document.adalm2000Xml) 2] = .ok tx ∧
      run M2kLogicTX.step tx
        [.transferMemToDev (some Adalm2000Document.adalm2000Xml) 2,
          .transferSamplesToRXDevice 3] = .ok final ∧
      final.samples = tx.samples := by
  have played : (do
      let tx ← run M2kLogicTX.step (M2kLogicTX.construct "iio:device9" (0 : Rat))
        [.writeDev (bytesOfWords [5]) 0 2,
          .transferMemToDev (some Adalm2000Document.adalm2000Xml) 2]
      let final ← run M2kLogicTX.step tx
        [.transferMemToDev (some Adalm2000Document.adalm2000Xml) 2,
          .transferSamplesToRXDevice 3]
      return (tx.samples.isEmpty, tx.ratio, final.currentIndex)) = .ok (false, 1, 0) := by
    decide +kernel
  simp only [Outcome.bind_eq_ok, Outcome.pure_eq_ok, Except.ok.injEq,
    Prod.mk.injEq] at played
  rcases played with ⟨tx, ran, final, ranOn, filled, single, _⟩
  refine ⟨tx, final, ran, ranOn, ?_⟩
  have kept := (upsampled_once_iff (some Adalm2000Document.adalm2000Xml)).2 tx final _
    ⟨_, _, [.writeDev (bytesOfWords [5]) 0 2], 2, ran⟩ (by simpa using filled)
    (by simp [M2kLogicTX.Action.StoresNothing]) ranOn
  exact kept.mpr (.inr (by omega))

end Examples

end IioEmu
