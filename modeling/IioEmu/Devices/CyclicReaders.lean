import IioEmu.Devices.M2kDAC.M2kDAC
import IioEmu.Devices.M2kLogicTX.M2kLogicTX
import IioEmu.Foundation.Reader

/-! # The two cyclic readers

The analog transmitter copies blocks up to the end of its vector, the logic transmitter one
sample after the other. Both play the vector in a loop. -/

namespace IioEmu

variable {σ α : Type}

/-- A read that plays a vector in a loop from a cursor inside it. -/
structure CyclicReader (read : σ → Nat → Outcome (List α × σ)) (samples : σ → List α)
    (cursor : σ → Nat) : Prop where
  delivers : ∀ state count, (samples state).length < 2 ^ 32 →
    cursor state < (samples state).length →
      ∃ delivered next, read state count = .ok (delivered, next) ∧
        delivered.length = count ∧
        (∀ offset < count, delivered[offset]? =
          (samples state)[(cursor state + offset) % (samples state).length]?) ∧
        samples next = samples state ∧
        cursor next = (cursor state + count) % (samples state).length
  joins : ∀ state first second, (samples state).length < 2 ^ 32 →
    cursor state < (samples state).length →
      readMany read state [first, second] = read state (first + second)

section Windows

variable {read : σ → Nat → Outcome (List α × σ)} {samples : σ → List α} {cursor : σ → Nat}
  (moved : σ → Nat → σ)

theorem CyclicReader.of_window
    (samples_moved : ∀ state index, samples (moved state index) = samples state)
    (cursor_moved : ∀ state index, cursor (moved state index) = index)
    (moved_moved : ∀ state first second,
      moved (moved state first) second = moved state second)
    (reads : ∀ state count, (samples state).length < 2 ^ 32 →
      cursor state < (samples state).length →
        read state count = .ok (cyclicWindow (samples state) (cursor state) count,
          moved state ((cursor state + count) % (samples state).length))) :
    CyclicReader read samples cursor where
  delivers state count indexed inside := by
    have nonempty : samples state ≠ [] := List.ne_nil_of_length_pos (by omega)
    refine ⟨_, _, reads state count indexed inside, length_cyclicWindow nonempty _ _, ?_,
      samples_moved _ _, cursor_moved _ _⟩
    intro offset bound
    exact getElem?_cyclicWindow nonempty bound
  joins state first second indexed inside := by
    have middle :=
      reads (moved state ((cursor state + first) % (samples state).length)) second
    rw [samples_moved, cursor_moved, moved_moved, cyclicWindow_mod, Nat.mod_add_mod,
      Nat.add_assoc] at middle
    have within : (cursor state + first) % (samples state).length <
        (samples state).length :=
      Nat.mod_lt _ (by omega)
    rw [reads state (first + second) indexed inside, cyclicWindow_add]
    simp only [readMany, reads state first indexed inside, middle indexed within,
      Outcome.ok_bind, Outcome.pure_eq_ok, List.append_nil]

end Windows

section Devices

variable {δ : Type}

theorem M2kDAC.cyclicReader [Double δ] :
    CyclicReader (M2kDAC.transferSamplesToRXDevice : M2kDAC δ → _)
      M2kDAC.samples M2kDAC.currentIndex := by
  apply CyclicReader.of_window fun dac index => { dac with currentIndex := index }
  · intro dac index
    rfl
  · intro dac index
    rfl
  · intro dac first second
    rfl
  · intro dac count indexed inside
    exact M2kDAC.transferSamplesToRXDevice_eq indexed inside count

theorem M2kLogicTX.cyclicReader :
    CyclicReader (M2kLogicTX.transferSamplesToRXDevice : M2kLogicTX δ → _)
      M2kLogicTX.samples M2kLogicTX.currentIndex := by
  apply CyclicReader.of_window fun tx index => { tx with currentIndex := index }
  · intro tx index
    rfl
  · intro tx index
    rfl
  · intro tx first second
    rfl
  · intro tx count indexed inside
    exact M2kLogicTX.transferSamplesToRXDevice_eq (by omega) inside count

def LoopsAgree (values : List α) (index count : Nat) : Prop :=
  ∃ delivered final, readCyclic values count index = .ok (delivered, final) ∧
    (M2kDAC.transferLoop values).outcome (count + 1) ⟨[], count, index⟩ =
      .ok ⟨delivered, 0, final⟩

theorem cyclic_readers_agree [Double δ] :
    CyclicReader (M2kDAC.transferSamplesToRXDevice : M2kDAC δ → _)
        M2kDAC.samples M2kDAC.currentIndex ∧
      CyclicReader (M2kLogicTX.transferSamplesToRXDevice : M2kLogicTX δ → _)
        M2kLogicTX.samples M2kLogicTX.currentIndex ∧
      ∀ {α : Type} (values : List α) (index count : Nat), values.length < 2 ^ 32 →
        index < values.length → LoopsAgree values index count := by
  refine ⟨M2kDAC.cyclicReader, M2kLogicTX.cyclicReader, ?_⟩
  intro α values index count indexed inside
  exact ⟨_, _, readCyclic_eq (by omega) inside count,
    M2kDAC.transferLoop_outcome indexed inside count⟩

end Devices

end IioEmu
