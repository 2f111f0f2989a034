import IioEmu.Foundation.Loop
import IioEmu.Foundation.Numerals
import IioEmu.Foundation.Sampling

/-! # Resampling

The four vector transformations of the utility header. Sizes are `size_t`,
ratios and loop counters `unsigned int`; every destination starts empty. -/

namespace IioEmu

def safeStod {δ : Type} [Double δ] (text : String) : δ := Double.extract text

/-! ## Analog interpolation -/

section Analog

variable {δ : Type} [Double δ]

structure InterpolationState (δ : Type) where
  i : Nat
  dest : List δ

def rampFrom (last val : δ) : Nat → List δ
  | 0 => []
  | count + 1 => (last + val) :: rampFrom (last + val) val count

@[simp] theorem length_rampFrom (last val : δ) (count : Nat) :
    (rampFrom last val count).length = count := by
  induction count generalizing last with
  | zero => rfl
  | succ count induction => simp [rampFrom, induction]

def interpolationLoop (src : List δ) (ratio : Nat) : Loop (InterpolationState δ) where
  guard state := state.i < sub64 src.length 1
  body state := do
    let next ← vectorAt src (wrap32 (state.i + 1))
    let current ← vectorAt src state.i
    let val := (next - current) / Double.ofInt ratio
    return {
      i := wrap32 (state.i + 1)
      dest := state.dest ++ current :: rampFrom current val ratio }

def analogicalInterpolation (src : List δ) (ratio : Nat) : Outcome (List δ) :=
  if ratio < 2 then .ok src
  else do
    reserve 8 (wrap64 (sub64 src.length 1 * ratio + src.length))
    let final ← (interpolationLoop src ratio).outcome src.length ⟨0, []⟩
    match src.getLast? with
    | none => .error .outOfBounds
    | some last => return final.dest ++ [last]

theorem analogicalInterpolation_nil {ratio : Nat} (several : 2 ≤ ratio)
    (small : ratio < 2 ^ 32) :
    analogicalInterpolation ([] : List δ) ratio = .error .lengthError := by
  have request : wrap64 (sub64 0 1 * ratio + 0) = 2 ^ 64 - ratio := by
    rw [sub64_of_lt (by decide), wrap64]
    have split : (2 ^ 64 + 0 - 1) * ratio + 0 =
        2 ^ 64 - ratio + 2 ^ 64 * (ratio - 1) := by omega
    rw [split, Nat.add_mul_mod_self_left]
    exact Nat.mod_eq_of_lt (by omega)
  have tooLarge : ¬ 2 ^ 64 - ratio ≤ (2 ^ 63 - 1) / 8 := by omega
  simp only [analogicalInterpolation, show ¬ ratio < 2 by omega, if_false,
    List.length_nil, request, reserve, tooLarge]
  rfl

theorem length_of_analogicalInterpolation {src dest : List δ} {ratio : Nat}
    (several : 2 ≤ ratio) (returned : analogicalInterpolation src ratio = .ok dest) :
    1 ≤ src.length ∧ (src.length - 1) * (ratio + 1) < dest.length := by
  rw [analogicalInterpolation, if_neg (by omega)] at returned
  simp only [Outcome.bind_eq_ok] at returned
  rcases returned with ⟨_, _, final, looped, finished⟩
  have emitted : final.i * (ratio + 1) ≤ final.dest.length ∧
      (interpolationLoop src ratio).guard final = false := by
    refine Loop.outcome_invariant _ (fun state => state.i * (ratio + 1) ≤ state.dest.length)
      ?_ (by simp) looped
    intro state next holds _ passed
    simp only [interpolationLoop, Outcome.bind_eq_ok, Outcome.pure_eq_ok,
      Except.ok.injEq] at passed
    rcases passed with ⟨_, _, _, _, rfl⟩
    have counter : wrap32 (state.i + 1) * (ratio + 1) ≤ (state.i + 1) * (ratio + 1) :=
      Nat.mul_le_mul_right _ (wrap32_le _)
    have further : (state.i + 1) * (ratio + 1) = state.i * (ratio + 1) + (ratio + 1) :=
      Nat.succ_mul _ _
    simp only [List.length_append, List.length_cons, length_rampFrom]
    omega
  cases last : src.getLast? with
  | none => simp [last] at finished
  | some value =>
      simp only [last, Outcome.pure_eq_ok, Except.ok.injEq] at finished
      subst finished
      have nonempty : 1 ≤ src.length := List.length_pos_of_mem (List.mem_of_getLast? last)
      have done := emitted.2
      simp only [interpolationLoop, decide_eq_false_iff_not, Nat.not_lt] at done
      rw [sub64_of_le nonempty] at done
      have blocks : (src.length - 1) * (ratio + 1) ≤ final.i * (ratio + 1) :=
        Nat.mul_le_mul_right _ done
      apply And.intro nonempty
      rw [List.length_append, List.length_singleton]
      omega

theorem length_le_of_analogicalInterpolation {src dest : List δ} {ratio : Nat}
    (returned : analogicalInterpolation src ratio = .ok dest) :
    src.length ≤ dest.length := by
  by_cases single : ratio < 2
  · rw [analogicalInterpolation, if_pos single] at returned
    cases returned
    exact Nat.le_refl _
  · have longer := length_of_analogicalInterpolation (by omega) returned
    have spread : src.length - 1 ≤ (src.length - 1) * (ratio + 1) :=
      Nat.le_mul_of_pos_right _ (by omega)
    omega

theorem length_lt_of_analogicalInterpolation {src dest : List δ} {ratio : Nat}
    (several : 2 ≤ ratio) (neighbours : 2 ≤ src.length)
    (returned : analogicalInterpolation src ratio = .ok dest) :
    src.length < dest.length := by
  have longer := length_of_analogicalInterpolation several returned
  have doubled : (src.length - 1) * 2 ≤ (src.length - 1) * (ratio + 1) :=
    Nat.mul_le_mul_left _ (by omega)
  omega

theorem analogicalInterpolation_singleton (value : δ) (ratio : Nat) :
    analogicalInterpolation [value] ratio = .ok [value] := by
  unfold analogicalInterpolation
  split
  · rfl
  · have single : sub64 [value].length 1 = 0 := by simp [sub64]
    have looped : (interpolationLoop [value] ratio).outcome 1 ⟨0, []⟩ = .ok ⟨0, []⟩ :=
      Loop.outcome_of_run _
        (Loop.run_of_not_guard _ (by simp [interpolationLoop, sub64]) 1)
    rw [single, Nat.zero_mul, Nat.zero_add, List.length_singleton, looped]
    rfl

theorem interpolationLoop_body_returns {src : List δ} (ratio : Nat)
    {state : InterpolationState δ} (current : state.i < src.length)
    (next : wrap32 (state.i + 1) < src.length) :
    ∃ dest, (interpolationLoop src ratio).body state =
    .ok ⟨wrap32 (state.i + 1), dest⟩ := by
  simp only [interpolationLoop, vectorAt_of_lt next,
    vectorAt_of_lt current, Outcome.ok_bind]
  exact ⟨_, rfl⟩

def interpolationBlock (ratio : Nat) (current next : δ) : List δ :=
  current :: rampFrom current ((next - current) / Double.ofInt ratio) ratio

@[simp] theorem length_interpolationBlock (ratio : Nat) (current next : δ) :
    (interpolationBlock ratio current next).length = ratio + 1 := by
  simp [interpolationBlock]

theorem interpolationLoop_body_segments {src : List δ} {ratio : Nat}
    {state : InterpolationState δ} (inside : state.i + 1 < src.length)
    (indexed : src.length ≤ 2 ^ 32)
    (collected : state.dest = segments (interpolationBlock ratio) (src.take (state.i + 1))) :
    (interpolationLoop src ratio).body state = .ok ⟨state.i + 1,
      segments (interpolationBlock ratio) (src.take (state.i + 1 + 1))⟩ := by
  have counter : wrap32 (state.i + 1) = state.i + 1 := wrap32_of_lt (by omega)
  have current : src[state.i]? = some src[state.i] := List.getElem?_eq_getElem (by omega)
  have next : src[state.i + 1]? = some src[state.i + 1] := List.getElem?_eq_getElem inside
  rw [segments_take_succ current next, ← collected]
  simp only [interpolationLoop, counter, vectorAt_of_lt inside,
    vectorAt_of_lt (show state.i < src.length by omega),
    Outcome.ok_bind, Outcome.pure_eq_ok]
  rfl

theorem interpolationLoop_outcome {src : List δ} (ratio : Nat) (positive : 1 ≤ src.length)
    (indexed : src.length ≤ 2 ^ 32) :
    (interpolationLoop src ratio).outcome src.length ⟨0, []⟩ =
      .ok ⟨src.length - 1, segments (interpolationBlock ratio) src⟩ := by
  have looped := (interpolationLoop src ratio).run_total
    (fun state => state.i ≤ src.length - 1 ∧
      state.dest = segments (interpolationBlock ratio) (src.take (state.i + 1)))
    (fun state => src.length - 1 - state.i)
    (by
      rintro state ⟨within, collected⟩ enters
      simp only [interpolationLoop, sub64_of_le positive, decide_eq_true_eq] at enters
      exact ⟨_, interpolationLoop_body_segments (by omega) indexed collected,
        ⟨by simp only; omega, rfl⟩, by simp only; omega⟩)
    ⟨0, []⟩ ⟨by simp, by cases src <;> simp [segments]⟩ src.length (by simp)
  rcases looped with ⟨⟨i, dest⟩, ran, ⟨within, collected⟩, left⟩
  simp only [interpolationLoop, sub64_of_le positive, decide_eq_false_iff_not,
    Nat.not_lt] at left
  simp only at within collected
  have complete : i = src.length - 1 := by omega
  rw [complete, Nat.sub_add_cancel positive, List.take_length] at collected
  rw [Loop.outcome_of_run _ ran, complete, collected]

/-- Interpolation ends for every non-empty vector whose indices fit the loop counter and
whose result fits a vector, with a block for every two neighbours and the last sample. -/
theorem analogicalInterpolation_eq {src : List δ} {ratio : Nat} {value : δ}
    (several : 2 ≤ ratio) (last : src.getLast? = some value)
    (indexed : src.length ≤ 2 ^ 32)
    (fits : (src.length - 1) * ratio + src.length ≤ (2 ^ 63 - 1) / 8) :
    analogicalInterpolation src ratio =
      .ok (segments (interpolationBlock ratio) src ++ [value]) := by
  have positive : 1 ≤ src.length := List.length_pos_of_mem (List.mem_of_getLast? last)
  have requested :
      reserve 8 (wrap64 (sub64 src.length 1 * ratio + src.length)) = .ok () := by
    rw [sub64_of_le positive, wrap64_of_lt (by omega), reserve, if_pos fits]
  rw [analogicalInterpolation, if_neg (by omega), requested]
  simp only [Outcome.ok_bind, interpolationLoop_outcome ratio positive indexed, last,
    Outcome.pure_eq_ok]

theorem analogicalInterpolation_returns {src : List δ} {ratio : Nat}
    (nonempty : src ≠ []) (indexed : src.length ≤ 2 ^ 32)
    (fits : (src.length - 1) * ratio + src.length ≤ (2 ^ 63 - 1) / 8) :
    ∃ dest, analogicalInterpolation src ratio = .ok dest := by
  by_cases single : ratio < 2
  · exact ⟨src, by rw [analogicalInterpolation, if_pos single]⟩
  · exact ⟨_, analogicalInterpolation_eq (by omega)
      (List.getLast?_eq_some_getLast nonempty) indexed fits⟩

theorem interpolationLoop_never_ends {src : List δ} (large : 2 ^ 32 < src.length)
    (ratio limit : Nat) : (interpolationLoop src ratio).run limit ⟨0, []⟩ = none := by
  refine Loop.run_eq_none _ (fun state => state.i < 2 ^ 32) ?_ (by simp) limit
  intro state counter
  have current : state.i < src.length := Nat.lt_trans counter large
  have next : wrap32 (state.i + 1) < src.length := Nat.lt_trans (wrap32_lt _) large
  constructor
  · simp only [interpolationLoop, decide_eq_true_eq]
    rw [sub64_of_le (by omega)]
    omega
  · rcases interpolationLoop_body_returns ratio current next with ⟨dest, passed⟩
    exact ⟨_, passed, wrap32_lt _⟩

theorem indexed_of_interpolationLoop {src : List δ} {ratio passes : Nat}
    {final : InterpolationState δ}
    (looped : (interpolationLoop src ratio).outcome passes ⟨0, []⟩ = .ok final) :
    src.length ≤ 2 ^ 32 := by
  by_contra large
  rw [Loop.outcome_of_none _ (interpolationLoop_never_ends (by omega) ratio _)] at looped
  cases looped

theorem analogicalInterpolation_of_ok {src dest : List δ} {ratio : Nat}
    (several : 2 ≤ ratio) (returned : analogicalInterpolation src ratio = .ok dest) :
    ∃ value, src.getLast? = some value ∧
      dest = segments (interpolationBlock ratio) src ++ [value] := by
  have positive := (length_of_analogicalInterpolation several returned).1
  rw [analogicalInterpolation, if_neg (by omega)] at returned
  simp only [Outcome.bind_eq_ok] at returned
  rcases returned with ⟨_, _, final, looped, finished⟩
  have indexed := indexed_of_interpolationLoop looped
  rw [interpolationLoop_outcome ratio positive indexed, Except.ok.injEq] at looped
  subst looped
  cases last : src.getLast? with
  | none => simp [last] at finished
  | some value =>
      simp only [last, Outcome.pure_eq_ok, Except.ok.injEq] at finished
      exact ⟨value, rfl, finished.symm⟩

/-- Interpolation ends exactly where there is nothing to interpolate with, or a vector whose
indices fit the loop counter and whose result fits a vector. -/
theorem analogicalInterpolation_returns_iff {src : List δ} {ratio : Nat}
    (small : ratio < 2 ^ 32) :
    (∃ dest, analogicalInterpolation src ratio = .ok dest) ↔ ratio < 2 ∨
      (src ≠ [] ∧ src.length ≤ 2 ^ 32 ∧
        (src.length - 1) * ratio + src.length ≤ (2 ^ 63 - 1) / 8) := by
  constructor
  · rintro ⟨dest, returned⟩
    by_cases single : ratio < 2
    · exact Or.inl single
    · have positive := (length_of_analogicalInterpolation (by omega) returned).1
      rw [analogicalInterpolation, if_neg single] at returned
      simp only [Outcome.bind_eq_ok] at returned
      rcases returned with ⟨_, reserved, final, looped, _⟩
      have indexed := indexed_of_interpolationLoop looped
      have product : (src.length - 1) * ratio ≤ (2 ^ 32 - 1) * (2 ^ 32 - 1) :=
        Nat.mul_le_mul (by omega) (by omega)
      rw [sub64_of_le positive, wrap64_of_lt (by omega), reserve] at reserved
      split at reserved
      case isTrue fits =>
        exact Or.inr ⟨List.ne_nil_of_length_pos positive, indexed, fits⟩
      case isFalse => cases reserved
  · rintro (single | ⟨nonempty, indexed, fits⟩)
    · exact ⟨src, by rw [analogicalInterpolation, if_pos single]⟩
    · exact analogicalInterpolation_returns nonempty indexed fits

/-! ## Analog decimation -/

structure AverageState (δ : Type) where
  i : Nat
  dest : List δ

def average (ratio : Nat) (block : List δ) : δ :=
  block.foldl (· + ·) (0.0 : δ) / Double.ofInt ratio

/-- The iterators `it` and `it + ratio` are positions in the source. -/
def analogicalDecimationLoop (src : List δ) (ratio : Nat) : Loop (AverageState δ) where
  guard state := state.i < src.length
  body state := do
    let block ← memcpy src state.i ratio
    return {
      i := state.i + ratio
      dest := state.dest ++ [average ratio block] }

def analogicalDecimation (src : List δ) (ratio : Nat) : Outcome (List δ) :=
  if ratio < 2 then .ok src
  else do
    reserve 8 (src.length / ratio)
    let final ← (analogicalDecimationLoop src ratio).outcome src.length ⟨0, []⟩
    return final.dest

theorem analogicalDecimation_eq {src : List δ} {ratio count : Nat} (several : 2 ≤ ratio)
    (whole : src.length = count * ratio) (stored : src.length ≤ (2 ^ 63 - 1) / 8) :
    analogicalDecimation src ratio = .ok (blockwise (average ratio) ratio count src) := by
  have reserved : reserve 8 (src.length / ratio) = .ok () := by
    have quotient : src.length / ratio ≤ src.length := Nat.div_le_self _ _
    rw [reserve, if_pos (by omega)]
  have looped := (analogicalDecimationLoop src ratio).run_total
    (fun state => ∃ block, block ≤ count ∧ state.i = block * ratio ∧
      state.dest = blockwise (average ratio) ratio block src)
    (fun state => src.length - state.i)
    (by
      rintro state ⟨block, _, position, collected⟩ enters
      simp only [analogicalDecimationLoop, decide_eq_true_eq, position, whole] at enters
      have inside : block < count := Nat.lt_of_mul_lt_mul_right enters
      have blockEnd : (block + 1) * ratio ≤ count * ratio :=
        Nat.mul_le_mul_right ratio inside
      have nextBlock : (block + 1) * ratio = block * ratio + ratio := Nat.succ_mul _ _
      refine ⟨⟨(block + 1) * ratio, state.dest ++
        [average ratio ((src.drop (block * ratio)).take ratio)]⟩, ?_,
        ⟨block + 1, by omega, rfl, ?_⟩, ?_⟩
      · simp only [analogicalDecimationLoop, position, nextBlock]
        rw [memcpy_of_le (by omega)]
        rfl
      · rw [collected, blockwise_succ]
      · simp only [position, whole]
        omega)
    ⟨0, []⟩ ⟨0, by omega, by simp, rfl⟩ src.length (by simp)
  rcases looped with ⟨final, ran, ⟨block, within, position, collected⟩, left⟩
  simp only [analogicalDecimationLoop, decide_eq_false_iff_not, Nat.not_lt, whole,
    position] at left
  have complete : block = count :=
    Nat.le_antisymm within (Nat.le_of_mul_le_mul_right left (by omega))
  subst complete
  unfold analogicalDecimation
  rw [if_neg (by omega), reserved]
  simp only [Outcome.ok_bind, Loop.outcome_of_run _ ran, collected, Outcome.pure_eq_ok]

theorem length_of_analogicalDecimation {src dest : List δ} {ratio : Nat}
    (several : 2 ≤ ratio) (returned : analogicalDecimation src ratio = .ok dest) :
    dest.length * ratio = src.length := by
  unfold analogicalDecimation at returned
  rw [if_neg (by omega)] at returned
  simp only [Outcome.bind_eq_ok, Outcome.pure_eq_ok, Except.ok.injEq] at returned
  rcases returned with ⟨_, _, final, looped, rfl⟩
  have collected : (final.dest.length * ratio = final.i ∧ final.i ≤ src.length) ∧
      (analogicalDecimationLoop src ratio).guard final = false := by
    refine Loop.outcome_invariant _
      (fun state => state.dest.length * ratio = state.i ∧ state.i ≤ src.length)
      ?_ (by simp) looped
    intro state next holds _ passed
    simp only [analogicalDecimationLoop, Outcome.bind_eq_ok, Outcome.pure_eq_ok,
      Except.ok.injEq] at passed
    rcases passed with ⟨block, read, rfl⟩
    have blockEnd : state.i + ratio ≤ src.length := by
      by_contra beyond
      rw [memcpy_of_lt (by omega)] at read
      cases read
    apply And.intro
    · rw [List.length_append, List.length_singleton, Nat.add_mul, holds.1, Nat.one_mul]
    · exact blockEnd
  have left := collected.2
  simp only [analogicalDecimationLoop, decide_eq_false_iff_not, Nat.not_lt] at left
  omega

theorem analogicalDecimation_cyclicWindow {xs : List δ} (nonempty : xs ≠ []) (start : Nat)
    {ratio count : Nat} (stored : count * ratio ≤ (2 ^ 63 - 1) / 8) :
    analogicalDecimation (cyclicWindow xs start (count * ratio)) ratio =
      .ok (decimatedWindow (average ratio) ratio xs start count) := by
  by_cases single : ratio < 2
  · rw [analogicalDecimation, if_pos single, decimatedWindow, if_pos single]
  · have length := length_cyclicWindow nonempty start (count * ratio)
    rw [analogicalDecimation_eq (by omega) length (by omega),
      decimatedWindow, if_neg single]
    rfl

end Analog

/-! ## Bits of a sample -/

section Bits

variable {w : Nat}

def getBit (number : BitVec w) (index : Nat) : Bool :=
  (number >>> index) &&& 1#w != 0#w

def setBit (number : BitVec w) (index : Nat) : BitVec w :=
  number ||| (1#32 <<< index).setWidth w

theorem getBit_eq_getLsbD (number : BitVec w) (index : Nat) :
    getBit number index = number.getLsbD index := by
  cases w with
  | zero => rw [getBit, Subsingleton.elim number 0#0]; simp
  | succ w =>
      have onlyBit : (number >>> index) &&& 1#(w + 1) =
          (BitVec.ofBool (number.getLsbD index)).setWidth (w + 1) := by
        apply BitVec.eq_of_getLsbD_eq
        intro position bound
        simp only [BitVec.getLsbD_and, BitVec.getLsbD_ushiftRight, BitVec.getLsbD_one,
          BitVec.getLsbD_setWidth, BitVec.getLsbD_ofBool]
        cases position with
        | zero => simp
        | succ position => simp
      rw [getBit, onlyBit]
      cases number.getLsbD index <;> simp

theorem getLsbD_setBit (number : BitVec w) {index : Nat} (counted : w ≤ 32)
    (inside : index < w) (position : Nat) :
    (setBit number index).getLsbD position =
      (number.getLsbD position || decide (position = index)) := by
  simp only [setBit, BitVec.getLsbD_or, BitVec.getLsbD_setWidth, BitVec.getLsbD_shiftLeft,
    BitVec.getLsbD_one]
  congr 1
  by_cases equal : position = index
  · subst equal
    simp [inside, show position < 32 by omega]
  · by_cases above : position < index
    · simp [above, equal]
    · have positive : position - index ≠ 0 := by omega
      simp [above, equal, positive]

end Bits

/-! ## Digital decimation and interpolation -/

section Digital

variable {w : Nat}

/-- How many samples of the block starting at `i` have each bit set. The
position `i + j` is an `unsigned int`. -/
def bitsSum (src : List (BitVec w)) (i ratio : Nat) : Outcome (Fin w → Nat) :=
  (List.range ratio).foldlM
    (fun sums j => vectorAt src (wrap32 (i + j)) >>= fun sample =>
      .ok fun k => wrap32 (sums k + if getBit sample k.val then 1 else 0))
    (fun _ => 0)

/-- The sample whose bits reached half the ratio, rounded down. -/
def votedSample (sums : Fin w → Nat) (ratio : Nat) : BitVec w :=
  (List.finRange w).foldl
    (fun sample k => if ratio >>> 1 ≤ sums k then setBit sample k.val else sample) 0#w

structure DecimationState (w : Nat) where
  i : Nat
  dest : List (BitVec w)

def decimationLoop (src : List (BitVec w)) (ratio : Nat) : Loop (DecimationState w) where
  guard state := state.i < src.length
  body state := do
    let sums ← bitsSum src state.i ratio
    return {
      i := wrap32 (state.i + ratio)
      dest := state.dest ++ [votedSample sums ratio] }

def digitalDecimation (src : List (BitVec w)) (ratio : Nat) : Outcome (List (BitVec w)) :=
  if ratio < 2 then .ok src
  else do
    reserve (w / 8) (src.length / ratio)
    let final ← (decimationLoop src ratio).outcome src.length ⟨0, []⟩
    return final.dest

def digitalInterpolation (src : List (BitVec w)) (ratio : Nat) :
    Outcome (List (BitVec w)) :=
  if ratio < 2 then .ok src
  else do
    reserve (w / 8) (wrap64 (src.length * ratio))
    return repeatEach ratio src

def bitCount (block : List (BitVec w)) (k : Nat) : Nat :=
  block.countP fun sample => sample.getLsbD k

theorem bitsSum_eq {src : List (BitVec w)} {i ratio : Nat}
    (inside : i + ratio ≤ src.length) (small : src.length < 2 ^ 32) :
    bitsSum src i ratio = .ok fun k => bitCount ((src.drop i).take ratio) k.val := by
  unfold bitsSum
  induction ratio with
  | zero => simp [bitCount]
  | succ ratio induction =>
      have position : wrap32 (i + ratio) = i + ratio := wrap32_of_lt (by omega)
      have added : (src.drop i).take (ratio + 1) =
          (src.drop i).take ratio ++ [src[i + ratio]] := by
        rw [List.take_succ_eq_append_getElem (by simp; omega)]
        simp
      rw [List.range_succ, List.foldlM_append, induction (by omega)]
      simp only [Outcome.ok_bind, List.foldlM_cons, List.foldlM_nil, position]
      rw [vectorAt_of_lt (by omega)]
      simp only [Outcome.ok_bind, Outcome.pure_eq_ok, Except.ok.injEq]
      funext k
      have counted : bitCount ((src.drop i).take ratio) k.val ≤ ratio := by
        refine (List.countP_le_length).trans ?_
        simp
      rw [wrap32_of_lt (by split <;> omega), added, bitCount, bitCount,
        List.countP_append, getBit_eq_getLsbD]
      simp [List.countP_cons]

theorem getLsbD_votedSample (counted : w ≤ 32) (sums : Fin w → Nat) (ratio : Nat)
    (k : Fin w) :
    (votedSample sums ratio).getLsbD k.val = decide (ratio >>> 1 ≤ sums k) := by
  have scanned : ∀ (positions : List (Fin w)) (sample : BitVec w),
      (positions.foldl (fun sample k =>
        if ratio >>> 1 ≤ sums k then setBit sample k.val else sample) sample).getLsbD k.val =
      (sample.getLsbD k.val || decide (k ∈ positions ∧ ratio >>> 1 ≤ sums k)) := by
    intro positions
    induction positions with
    | nil => simp
    | cons position positions induction =>
        intro sample
        rw [List.foldl_cons, induction]
        by_cases reached : ratio >>> 1 ≤ sums position
        · rw [if_pos reached, getLsbD_setBit _ counted position.isLt]
          by_cases same : k = position
          · subst same
            simp [reached]
          · simp [same, Fin.val_ne_of_ne same]
        · rw [if_neg reached]
          by_cases same : k = position
          · subst same
            simp [reached]
          · simp [same]
  rw [votedSample, scanned]
  simp

theorem votedSample_replicate (counted : w ≤ 32) (sample : BitVec w) {ratio : Nat}
    (several : 2 ≤ ratio) :
    votedSample (fun k => bitCount (List.replicate ratio sample) k.val) ratio = sample := by
  apply BitVec.eq_of_getLsbD_eq
  intro k bound
  rw [getLsbD_votedSample counted _ ratio ⟨k, bound⟩]
  simp only [bitCount, List.countP_replicate, Nat.shiftRight_succ, Nat.shiftRight_zero]
  cases sample.getLsbD k with
  | true => simp; omega
  | false => simp; omega

theorem reserve_of_lt (bytes : 8 ≤ w) (stored : w ≤ 32) {request : Nat}
    (small : request < 2 ^ 32) : reserve (w / 8) request = .ok () := by
  have largest : (2 ^ 63 - 1) / 4 ≤ (2 ^ 63 - 1) / (w / 8) :=
    Nat.div_le_div_left (by omega) (by omega)
  rw [reserve, if_pos (by omega)]

/-! ### Interpolation -/

theorem length_digitalInterpolation {src dest : List (BitVec w)} {ratio : Nat}
    (returned : digitalInterpolation src ratio = .ok dest) :
    dest.length = if ratio < 2 then src.length else src.length * ratio := by
  unfold digitalInterpolation at returned
  split at returned
  · rename_i single
    cases returned
    rw [if_pos single]
  · rename_i several
    simp only [Outcome.bind_eq_ok, Outcome.pure_eq_ok, Except.ok.injEq] at returned
    rcases returned with ⟨_, _, rfl⟩
    rw [length_repeatEach, if_neg several]

theorem length_le_of_digitalInterpolation {source dest : List (BitVec w)} {ratio : Nat}
    (upsampled : digitalInterpolation source ratio = .ok dest) :
    source.length ≤ dest.length := by
  rw [length_digitalInterpolation upsampled]
  split
  · exact Nat.le_refl _
  · exact Nat.le_mul_of_pos_right _ (by omega)

theorem digitalInterpolation_eq (bytes : 8 ≤ w) (stored : w ≤ 32)
    {src : List (BitVec w)} {ratio : Nat} (positive : 1 ≤ ratio)
    (small : src.length * ratio < 2 ^ 32) :
    digitalInterpolation src ratio = .ok (repeatEach ratio src) := by
  unfold digitalInterpolation
  split
  · have single : ratio = 1 := by omega
    rw [single, repeatEach_one]
  · rw [wrap64_of_lt (by omega), reserve_of_lt bytes stored small]
    rfl

/-! ### Decimation -/

def votedBlock (src : List (BitVec w)) (ratio block : Nat) : BitVec w :=
  votedSample (fun k => bitCount ((src.drop (block * ratio)).take ratio) k.val) ratio

theorem decimationLoop_body_block {src : List (BitVec w)} {ratio block : Nat}
    {state : DecimationState w} (small : src.length < 2 ^ 32)
    (position : state.i = block * ratio) (inside : (block + 1) * ratio ≤ src.length) :
    (decimationLoop src ratio).body state =
      .ok ⟨(block + 1) * ratio, state.dest ++ [votedBlock src ratio block]⟩ := by
  have nextBlock : (block + 1) * ratio = block * ratio + ratio := Nat.succ_mul _ _
  have counter : wrap32 (block * ratio + ratio) = (block + 1) * ratio := by
    rw [← nextBlock]
    exact wrap32_of_lt (by omega)
  simp only [decimationLoop, position, counter]
  rw [bitsSum_eq (by omega) small]
  rfl

/-- Decimation ends for every source of whole blocks that the loop counter can
index, with one sample for each block. -/
theorem digitalDecimation_eq (bytes : 8 ≤ w) (stored : w ≤ 32) {src : List (BitVec w)}
    {ratio count : Nat} (several : 2 ≤ ratio) (whole : src.length = count * ratio)
    (small : src.length < 2 ^ 32) :
    digitalDecimation src ratio =
    .ok ((List.range count).map (votedBlock src ratio)) := by
  have reserved : reserve (w / 8) (src.length / ratio) = .ok () := by
    have quotient : src.length / ratio ≤ src.length := Nat.div_le_self _ _
    exact reserve_of_lt bytes stored (by omega)
  have looped := (decimationLoop src ratio).run_total
    (fun state => ∃ block, block ≤ count ∧ state.i = block * ratio ∧
      state.dest = (List.range block).map (votedBlock src ratio))
    (fun state => src.length - state.i)
    (by
      rintro state ⟨block, _, position, collected⟩ enters
      simp only [decimationLoop, decide_eq_true_eq, position, whole] at enters
      have inside : block < count := Nat.lt_of_mul_lt_mul_right enters
      have blockEnd : (block + 1) * ratio ≤ count * ratio :=
        Nat.mul_le_mul_right ratio inside
      have nextBlock : (block + 1) * ratio = block * ratio + ratio := Nat.succ_mul _ _
      refine ⟨_, decimationLoop_body_block small position (by omega),
        ⟨block + 1, by omega, rfl, ?_⟩, ?_⟩
      · rw [collected, List.range_succ, List.map_append]
        rfl
      · simp only [position, whole]
        omega)
    ⟨0, []⟩ ⟨0, by omega, by simp, rfl⟩ src.length (by simp)
  rcases looped with ⟨final, ran, ⟨block, within, position, collected⟩, left⟩
  simp only [decimationLoop, decide_eq_false_iff_not, Nat.not_lt, whole, position] at left
  have complete : block = count :=
    Nat.le_antisymm within (Nat.le_of_mul_le_mul_right left (by omega))
  subst complete
  unfold digitalDecimation
  rw [if_neg (by omega), reserved]
  simp only [Outcome.ok_bind, Loop.outcome_of_run _ ran, collected, Outcome.pure_eq_ok]

def vote (ratio : Nat) (block : List (BitVec w)) : BitVec w :=
  votedSample (fun k => bitCount block k.val) ratio

theorem digitalDecimation_cyclicWindow (bytes : 8 ≤ w) (storable : w ≤ 32)
    {xs : List (BitVec w)} (nonempty : xs ≠ []) (start : Nat) {ratio count : Nat}
    (counted : count * ratio < 2 ^ 32 ∨ ratio = 1) :
    digitalDecimation (cyclicWindow xs start (count * ratio)) ratio =
      .ok (decimatedWindow (vote ratio) ratio xs start count) := by
  by_cases single : ratio < 2
  · rw [digitalDecimation, if_pos single, decimatedWindow, if_pos single]
  · have length := length_cyclicWindow nonempty start (count * ratio)
    rw [digitalDecimation_eq bytes storable (by omega) length (by omega), decimatedWindow,
      if_neg single]
    rfl

theorem digitalDecimation_repeatEach (bytes : 8 ≤ w) (stored : w ≤ 32)
    (src : List (BitVec w)) {ratio : Nat} (positive : 1 ≤ ratio)
    (small : src.length * ratio < 2 ^ 32 ∨ ratio = 1) :
    digitalDecimation (repeatEach ratio src) ratio = .ok src := by
  by_cases single : ratio = 1
  · subst single
    simp [digitalDecimation, repeatEach_one]
  · have indexed : src.length * ratio < 2 ^ 32 := by omega
    rw [digitalDecimation_eq bytes stored (by omega) (length_repeatEach src)
      (by rw [length_repeatEach]; exact indexed)]
    congr 1
    apply List.ext_getElem
    · simp
    · intro block _ inside
      rw [List.getElem_map, List.getElem_range, votedBlock,
        block_repeatEach src inside]
      exact votedSample_replicate stored _ (by omega)

theorem positions_of_bitsSum {src : List (BitVec w)} {i ratio : Nat}
    {sums : Fin w → Nat} (returned : bitsSum src i ratio = .ok sums) :
    ∀ j < ratio, wrap32 (i + j) < src.length := by
  unfold bitsSum at returned
  induction ratio generalizing sums with
  | zero => simp
  | succ ratio induction =>
      rw [List.range_succ, List.foldlM_append, Outcome.bind_eq_ok] at returned
      rcases returned with ⟨before, earlier, last⟩
      simp only [List.foldlM_cons, List.foldlM_nil, Outcome.bind_eq_ok] at last
      rcases last with ⟨_, ⟨sample, read, _⟩, _⟩
      rw [vectorAt_eq_ok_iff, List.getElem?_eq_some_iff] at read
      intro j bound
      by_cases final : j = ratio
      · subst final
        exact read.1
      · exact induction earlier j (by omega)

theorem bitsSum_returns {src : List (BitVec w)} {i ratio : Nat}
    (positions : ∀ j < ratio, wrap32 (i + j) < src.length) :
    ∃ sums, bitsSum src i ratio = .ok sums := by
  unfold bitsSum
  induction ratio with
  | zero => exact ⟨_, rfl⟩
  | succ ratio induction =>
      rcases induction (fun j bound => positions j (by omega)) with ⟨before, earlier⟩
      rw [List.range_succ, List.foldlM_append, earlier]
      simp only [Outcome.ok_bind, List.foldlM_cons, List.foldlM_nil]
      rw [vectorAt_of_lt (positions ratio (by omega))]
      exact ⟨_, rfl⟩

/-- A source the counter cannot index keeps the loop going for ever: the
counter wraps around below its size. -/
theorem decimationLoop_never_ends {src : List (BitVec w)} (large : 2 ^ 32 ≤ src.length)
    (ratio limit : Nat) : (decimationLoop src ratio).run limit ⟨0, []⟩ = none := by
  refine Loop.run_eq_none _ (fun state => state.i < 2 ^ 32) ?_ (by simp) limit
  intro state counter
  have positions : ∀ j < ratio, wrap32 (state.i + j) < src.length :=
    fun j _ => Nat.lt_of_lt_of_le (wrap32_lt _) large
  rcases bitsSum_returns positions with ⟨sums, counted⟩
  refine ⟨?_, ⟨wrap32 (state.i + ratio), state.dest ++ [votedSample sums ratio]⟩, ?_,
    wrap32_lt _⟩
  · simp only [decimationLoop, decide_eq_true_eq]
    omega
  · simp only [decimationLoop, counted]
    rfl

theorem length_of_digitalDecimation {src dest : List (BitVec w)} {ratio : Nat}
    (several : 2 ≤ ratio) (returned : digitalDecimation src ratio = .ok dest) :
    src.length < 2 ^ 32 ∧ dest.length * ratio = src.length := by
  unfold digitalDecimation at returned
  rw [if_neg (by omega)] at returned
  simp only [Outcome.bind_eq_ok, Outcome.pure_eq_ok, Except.ok.injEq] at returned
  rcases returned with ⟨_, _, final, looped, rfl⟩
  have small : src.length < 2 ^ 32 := by
    by_contra large
    rw [Loop.outcome_of_none _ (decimationLoop_never_ends (by omega) ratio _)] at looped
    cases looped
  have collected : (final.dest.length * ratio = final.i ∧ final.i ≤ src.length) ∧
      (decimationLoop src ratio).guard final = false := by
    refine Loop.outcome_invariant _
      (fun state => state.dest.length * ratio = state.i ∧ state.i ≤ src.length)
      ?_ (by simp) looped
    rintro state next ⟨position, _⟩ enters passed
    simp only [decimationLoop, decide_eq_true_eq] at enters
    simp only [decimationLoop, Outcome.bind_eq_ok, Outcome.pure_eq_ok,
      Except.ok.injEq] at passed
    rcases passed with ⟨sums, counted, rfl⟩
    have blockEnd : state.i + ratio ≤ src.length := by
      by_contra beyond
      have read := positions_of_bitsSum counted (src.length - state.i) (by omega)
      rw [show state.i + (src.length - state.i) = src.length by omega,
        wrap32_of_lt small] at read
      omega
    have counter : wrap32 (state.i + ratio) = state.i + ratio := wrap32_of_lt (by omega)
    simp only [List.length_append, List.length_singleton, counter]
    refine ⟨?_, blockEnd⟩
    rw [Nat.add_mul, position, Nat.one_mul]
  refine ⟨small, ?_⟩
  have left := collected.2
  simp only [decimationLoop, decide_eq_false_iff_not, Nat.not_lt] at left
  omega

end Digital

end IioEmu
