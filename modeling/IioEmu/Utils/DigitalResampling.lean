import IioEmu.Utils.Utility

/-! # Digital resampling

Decimation undoes an interpolation of the same ratio. In general it takes a vote in every
block of words, with half the ratio, rounded down, as the number of votes that is enough. Its
loop ends where a thirty-two bit counter reaches the size of the source. -/

namespace IioEmu

/-! ## The round trip -/

/-- Samples that are repeated and then decimated are what they were. -/
theorem decimation_undoes_interpolation {src : List Word} {ratio : Nat}
    (small : src.length * ratio < 2 ^ 32) :
    (digitalInterpolation src ratio >>= fun dest =>
      digitalDecimation dest ratio) = .ok src := by
  by_cases single : ratio < 2
  · simp [digitalInterpolation, digitalDecimation, single]
  · have positive : 1 ≤ ratio := by omega
    rw [digitalInterpolation_eq (by decide) (by decide) positive small, Outcome.ok_bind]
    exact digitalDecimation_repeatEach (by decide) (by decide) src positive (Or.inl small)

theorem two_words_survive_the_round_trip :
    (digitalInterpolation [0x8001#16, 0x7ffe#16] 3 >>= fun dest => digitalDecimation dest 3) =
      .ok [0x8001#16, 0x7ffe#16] :=
  decimation_undoes_interpolation (by decide)

/-! ## The vote -/

def blockOf (src : List Word) (ratio block : Nat) : List Word :=
  (src.drop (block * ratio)).take ratio

/-- The bit of the output word is set exactly when at least half of the words of the block
have it set. -/
def MajorityVote (src : List Word) (ratio block k : Nat) : Prop :=
  ∃ dest sample, digitalDecimation src ratio = .ok dest ∧ dest[block]? = some sample ∧
    (sample.getLsbD k = true ↔ ratio ≤ 2 * bitCount (blockOf src ratio block) k)

theorem getLsbD_votedBlock (src : List Word) (ratio block : Nat)
    {k : Nat} (bit : k < 16) :
    (votedBlock src ratio block).getLsbD k = true ↔
      ratio / 2 ≤ bitCount (blockOf src ratio block) k := by
  rw [votedBlock, getLsbD_votedSample (by decide) _ ratio ⟨k, bit⟩, decide_eq_true_eq,
    Nat.shiftRight_eq_div_pow, Nat.pow_one]
  rfl

section Vote

variable {src : List Word} {ratio count block k : Nat} (several : 2 ≤ ratio)
  (whole : src.length = count * ratio) (small : src.length < 2 ^ 32)
  (inside : block < count)
  (bit : k < 16)

include several whole small inside bit

/-- The vote is the majority's unless the ratio is odd and one word more would have made it a
majority. -/
theorem majority_vote_iff :
    MajorityVote src ratio block k ↔
    2 * bitCount (blockOf src ratio block) k + 1 ≠ ratio := by
  have decimated := digitalDecimation_eq (by decide) (by decide) several whole small
  have voted : ((List.range count).map (votedBlock src ratio))[block]? =
      some (votedBlock src ratio block) := by
    rw [List.getElem?_map, List.getElem?_range inside, Option.map_some]
  have counted := getLsbD_votedBlock src ratio block bit
  constructor
  · rintro ⟨dest, sample, returned, found, majority⟩ minority
    rw [decimated, Except.ok.injEq] at returned
    rw [← returned, voted, Option.some.injEq] at found
    rw [← found, counted] at majority
    omega
  · intro noTie
    refine ⟨_, _, decimated, voted, ?_⟩
    rw [counted]
    omega

end Vote

theorem two_of_three_win : MajorityVote [1#16, 1#16, 0#16] 3 0 0 :=
  (majority_vote_iff (by decide) (show [1#16, 1#16, 0#16].length = 1 * 3 from rfl) (by decide)
    (by decide) (by decide)).mpr (by decide)

theorem one_of_three_wins :
    digitalDecimation [1#16, 0#16, 0#16] 3 = .ok [1#16] ∧
      ¬ MajorityVote [1#16, 0#16, 0#16] 3 0 0 := by
  have decimated : digitalDecimation [1#16, 0#16, 0#16] 3 = .ok [1#16] := by decide
  refine ⟨decimated, ?_⟩
  rintro ⟨dest, sample, returned, found, majority⟩
  rw [decimated, Except.ok.injEq] at returned
  subst returned
  cases found
  exact absurd (majority.mp (by decide)) (by decide)

/-! ## The end of the loop -/

structure DecimationEnds (src : List Word) (ratio : Nat) : Prop where
  ends : (decimationLoop src ratio).Ends ⟨0, []⟩
  inside : ∀ head, (decimationLoop src ratio).Heads ⟨0, []⟩ head →
    (decimationLoop src ratio).guard head = true →
      ∀ j < ratio, wrap32 (head.i + j) < src.length
  produced : ∃ dest, digitalDecimation src ratio = .ok dest ∧
    dest.length = src.length / ratio

section Whole

variable {src : List Word} {ratio : Nat} (whole : ratio ∣ src.length)

include whole

theorem blockEnd_le_of_dvd {i : Nat} (position : ratio ∣ i) (below : i < src.length) :
    i + ratio ≤ src.length := by
  have remaining : ratio ∣ src.length - i := Nat.dvd_sub whole position
  have room : ratio ≤ src.length - i := Nat.le_of_dvd (by omega) remaining
  omega

theorem decimationLoop_heads_dvd (small : src.length < 2 ^ 32) {head : DecimationState 16}
    (heads : (decimationLoop src ratio).Heads ⟨0, []⟩ head) : ratio ∣ head.i := by
  refine Loop.heads_invariant _ (fun state => ratio ∣ state.i) ?_ heads (Nat.dvd_zero ratio)
  intro state next position enters passed
  simp only [decimationLoop, decide_eq_true_eq] at enters
  simp only [decimationLoop, Outcome.bind_eq_ok, Outcome.pure_eq_ok,
    Except.ok.injEq] at passed
  rcases passed with ⟨sums, _, rfl⟩
  have blockEnd := blockEnd_le_of_dvd whole position enters
  have counter : wrap32 (state.i + ratio) = state.i + ratio := wrap32_of_lt (by omega)
  simp only [counter]
  exact Nat.dvd_add position (Nat.dvd_refl ratio)

theorem decimationLoop_reads_inside {head : DecimationState 16}
    (heads : (decimationLoop src ratio).Heads ⟨0, []⟩ head)
    (enters : (decimationLoop src ratio).guard head = true) {j : Nat}
    (offset : j < ratio) :
    wrap32 (head.i + j) < src.length := by
  by_cases small : src.length < 2 ^ 32
  · simp only [decimationLoop, decide_eq_true_eq] at enters
    have position := decimationLoop_heads_dvd whole small heads
    have blockEnd := blockEnd_le_of_dvd whole position enters
    exact Nat.lt_of_le_of_lt (wrap32_le _) (by omega)
  · exact Nat.lt_of_lt_of_le (wrap32_lt _) (by omega)

/-- Decimation ends exactly for the sources whose size the loop counter can hold. -/
theorem decimation_ends_iff (several : 2 ≤ ratio) :
    DecimationEnds src ratio ↔ src.length < 2 ^ 32 := by
  constructor
  · intro ended
    by_contra large
    exact Loop.not_ends_of_none _ (decimationLoop_never_ends (by omega) ratio) ended.ends
  · intro small
    have blocks : src.length = src.length / ratio * ratio :=
      (Nat.div_mul_cancel whole).symm
    have returned := digitalDecimation_eq (by decide) (by decide) several blocks small
    have looped := returned
    rw [digitalDecimation, if_neg (by omega)] at looped
    simp only [Outcome.bind_eq_ok] at looped
    rcases looped with ⟨_, _, final, looped, _⟩
    exact ⟨Loop.ends_of_outcome _ looped,
      fun head heads enters j => decimationLoop_reads_inside whole heads enters,
      _, returned, by simp⟩

end Whole

theorem two_blocks_of_three_end : 3 ∣ (List.replicate 6 0x8001#16).length ∧ 2 ≤ 3 ∧
    DecimationEnds (List.replicate 6 0x8001#16) 3 :=
  ⟨by decide, by decide, (decimation_ends_iff (by decide) (by decide)).mpr (by decide)⟩

/-- A read of 85900 bytes at a thousand samples a second decimates more words than the loop
counter can count. -/
theorem slow_decimation_does_not_end :
    2 ≤ 100000 ∧ 100000 < 2 ^ 32 ∧
      (List.replicate (85900 / 2 * 100000) 0#16).length = 85900 / 2 * 100000 ∧
      ¬ DecimationEnds (List.replicate (85900 / 2 * 100000) 0#16) 100000 := by
  have length : (List.replicate (85900 / 2 * 100000) 0#16).length = 85900 / 2 * 100000 :=
    List.length_replicate
  refine ⟨by decide, by decide, length, ?_⟩
  intro ended
  have large : 2 ^ 32 ≤ (List.replicate (85900 / 2 * 100000) 0#16).length := by
    rw [length]
    decide
  exact Loop.not_ends_of_none _ (decimationLoop_never_ends large 100000) ended.ends

end IioEmu
