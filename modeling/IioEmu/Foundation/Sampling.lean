import Mathlib.Data.List.Basic
import Mathlib.Data.List.GetD
import Mathlib.Tactic.Ring

/-! # Cyclic windows and repeated samples

A buffer played in a loop is the periodic sequence of its elements, and a
reader takes consecutive windows of it. Repeating every element a fixed
number of times stretches the sequence without changing its windows. A block
for every two neighbours fills the sequence up. -/

namespace IioEmu

variable {α : Type}

/-- The window of `count` elements of the periodic sequence `xs, xs, …` from
position `start` on. -/
def cyclicWindow (xs : List α) (start count : Nat) : List α :=
  (List.range count).filterMap fun offset => xs[(start + offset) % xs.length]?

section Windows

variable {xs : List α}

theorem getElem?_mod_length (nonempty : xs ≠ []) (position : Nat) :
    ∃ value, xs[position % xs.length]? = some value := by
  have bound : position % xs.length < xs.length :=
    Nat.mod_lt _ (List.length_pos_iff.mpr nonempty)
  exact ⟨xs[position % xs.length], List.getElem?_eq_getElem bound⟩

@[simp] theorem cyclicWindow_zero (start : Nat) : cyclicWindow xs start 0 = [] := rfl

theorem cyclicWindow_succ (start count : Nat) :
    cyclicWindow xs start (count + 1) =
      cyclicWindow xs start count ++ (xs[(start + count) % xs.length]?).toList := by
  rw [cyclicWindow, List.range_succ, List.filterMap_append]
  cases found : xs[(start + count) % xs.length]? <;> simp [cyclicWindow, found]

theorem cyclicWindow_add (start first second : Nat) :
    cyclicWindow xs start (first + second) =
      cyclicWindow xs start first ++ cyclicWindow xs (start + first) second := by
  induction second with
  | zero => simp
  | succ second induction =>
      rw [← Nat.add_assoc, cyclicWindow_succ, induction, cyclicWindow_succ,
        List.append_assoc, Nat.add_assoc]

@[simp] theorem length_cyclicWindow (nonempty : xs ≠ []) (start count : Nat) :
    (cyclicWindow xs start count).length = count := by
  induction count with
  | zero => rfl
  | succ count induction =>
      rcases getElem?_mod_length nonempty (start + count) with ⟨value, found⟩
      rw [cyclicWindow_succ, List.length_append, induction, found]
      rfl

theorem getElem?_cyclicWindow (nonempty : xs ≠ []) {start count offset : Nat}
    (inside : offset < count) :
    (cyclicWindow xs start count)[offset]? = xs[(start + offset) % xs.length]? := by
  induction count with
  | zero => omega
  | succ count induction =>
      rcases getElem?_mod_length nonempty (start + count) with ⟨value, found⟩
      rw [cyclicWindow_succ, found]
      by_cases last : offset = count
      · subst last
        rw [List.getElem?_append_right (by simp [nonempty]), found]
        simp [nonempty]
      · rw [List.getElem?_append_left (by simp [nonempty]; omega)]
        exact induction (by omega)

theorem cyclicWindow_mod (start count : Nat) :
    cyclicWindow xs (start % xs.length) count = cyclicWindow xs start count := by
  simp [cyclicWindow]

theorem cyclicWindow_of_le {start count : Nat} (inside : start + count ≤ xs.length) :
    cyclicWindow xs start count = (xs.drop start).take count := by
  induction count with
  | zero => simp
  | succ count induction =>
      have last : start + count < xs.length := by omega
      rw [cyclicWindow_succ, induction (by omega), Nat.mod_eq_of_lt last,
        List.getElem?_eq_getElem last, List.take_succ_eq_append_getElem (by simp; omega),
        List.getElem_drop]
      rfl

def consecutiveWindows (xs : List α) : Nat → List Nat → List (List α)
  | _, [] => []
  | start, count :: counts =>
      cyclicWindow xs start count :: consecutiveWindows xs (start + count) counts

end Windows

/-! ## Repeating every element -/

def repeatEach (ratio : Nat) (xs : List α) : List α :=
  xs.flatMap fun value => List.replicate ratio value

section Repeated

variable {ratio : Nat}

@[simp] theorem repeatEach_nil : repeatEach ratio ([] : List α) = [] := rfl

theorem repeatEach_cons (value : α) (xs : List α) :
    repeatEach ratio (value :: xs) = List.replicate ratio value ++
    repeatEach ratio xs := by
  simp [repeatEach]

@[simp] theorem length_repeatEach (xs : List α) :
    (repeatEach ratio xs).length = xs.length * ratio := by
  induction xs with
  | nil => simp
  | cons value xs induction =>
      rw [repeatEach_cons, List.length_append, induction, List.length_replicate,
        List.length_cons]
      ring

theorem repeatEach_one (xs : List α) : repeatEach 1 xs = xs := by
  induction xs with
  | nil => rfl
  | cons value xs induction => simp [repeatEach_cons, induction]

theorem getElem?_repeatEach (positive : 0 < ratio) (xs : List α) (position : Nat) :
    (repeatEach ratio xs)[position]? = xs[position / ratio]? := by
  induction xs generalizing position with
  | nil => simp
  | cons value xs induction =>
      rw [repeatEach_cons]
      by_cases first : position < ratio
      · rw [List.getElem?_append_left (by simpa using first), Nat.div_eq_of_lt first]
        simp [first]
      · have later : position / ratio = (position - ratio) / ratio + 1 := by
          rw [← Nat.add_div_right _ positive]
          congr 1
          omega
        rw [List.getElem?_append_right (by simpa using first), List.length_replicate,
          induction, later]
        rfl

theorem repeatEach_ne_nil (positive : 0 < ratio) {xs : List α} (nonempty : xs ≠ []) :
    repeatEach ratio xs ≠ [] := by
  have length : (repeatEach ratio xs).length = xs.length * ratio := length_repeatEach xs
  have longer : 0 < xs.length * ratio :=
    Nat.mul_pos (List.length_pos_iff.mpr nonempty) positive
  intro empty
  rw [empty, List.length_nil] at length
  omega

theorem block_repeatEach (xs : List α) {block : Nat} (inside : block < xs.length) :
    ((repeatEach ratio xs).drop (block * ratio)).take ratio =
      List.replicate ratio xs[block] := by
  induction xs generalizing block with
  | nil => simp at inside
  | cons value xs induction =>
      rw [repeatEach_cons]
      cases block with
      | zero => simp
      | succ block =>
          have beyond : (block + 1) * ratio = ratio + block * ratio := by ring
          rw [beyond, ← List.drop_drop, List.drop_left' (by simp)]
          exact induction (by simpa using inside)

/-- A window of whole blocks of the repeated sequence repeats a window. -/
theorem cyclicWindow_repeatEach (positive : 0 < ratio) {xs : List α} (nonempty : xs ≠ [])
    (start count : Nat) :
    cyclicWindow (repeatEach ratio xs) (start * ratio) (count * ratio) =
      repeatEach ratio (cyclicWindow xs start count) := by
  apply List.ext_getElem?
  intro position
  by_cases inside : position < count * ratio
  · have block : position / ratio < count := (Nat.div_lt_iff_lt_mul positive).mpr inside
    have wrapped : (start * ratio + position) % (xs.length * ratio) / ratio =
        (start + position / ratio) % xs.length := by
      rw [Nat.mul_comm xs.length, Nat.mod_mul_right_div_self]
      congr 1
      rw [Nat.mul_comm start, Nat.mul_add_div positive]
    rw [getElem?_cyclicWindow (repeatEach_ne_nil positive nonempty) inside,
      getElem?_repeatEach positive, getElem?_repeatEach positive, length_repeatEach,
      wrapped, getElem?_cyclicWindow nonempty block]
  · rw [List.getElem?_eq_none (by
        rw [length_cyclicWindow (repeatEach_ne_nil positive nonempty)]
        omega),
      List.getElem?_eq_none (by
        rw [length_repeatEach, length_cyclicWindow nonempty]
        omega)]

end Repeated

/-! ## Blocks -/

def blockwise {β : Type} (combine : List α → β) (ratio count : Nat)
    (xs : List α) : List β :=
  (List.range count).map fun block => combine ((xs.drop (block * ratio)).take ratio)

section Blocks

variable {β : Type} (combine : List α → β) {ratio : Nat}

@[simp] theorem length_blockwise (count : Nat) (xs : List α) :
    (blockwise combine ratio count xs).length = count := by
  simp [blockwise]

theorem blockwise_succ (count : Nat) (xs : List α) :
    blockwise combine ratio (count + 1) xs =
      blockwise combine ratio count xs ++
        [combine ((xs.drop (count * ratio)).take ratio)] := by
  simp [blockwise, List.range_succ]

theorem blockwise_append {first : Nat} {xs : List α} (whole : xs.length = first * ratio)
    (second : Nat) (ys : List α) :
    blockwise combine ratio (first + second) (xs ++ ys) =
      blockwise combine ratio first xs ++ blockwise combine ratio second ys := by
  rw [blockwise, List.range_add, List.map_append, List.map_map]
  congr 1
  · apply List.map_congr_left
    intro block member
    have inside : (block + 1) * ratio ≤ first * ratio :=
      Nat.mul_le_mul_right _ (List.mem_range.mp member)
    have blockEnd : (block + 1) * ratio = block * ratio + ratio := Nat.succ_mul _ _
    rw [List.drop_append_of_le_length (by omega),
      List.take_append_of_le_length (by rw [List.length_drop]; omega)]
  · apply List.map_congr_left
    intro block _
    simp only [Function.comp_apply, Nat.add_mul]
    rw [← whole, ← List.drop_drop, List.drop_left]

def windowBlocks (ratio : Nat) (xs : List α) (start count : Nat) : List β :=
  blockwise combine ratio count (cyclicWindow xs start (count * ratio))

theorem windowBlocks_add {xs : List α} (nonempty : xs ≠ []) (start first second : Nat) :
    windowBlocks combine ratio xs start (first + second) =
      windowBlocks combine ratio xs start first ++
        windowBlocks combine ratio xs (start + first * ratio) second := by
  rw [windowBlocks, Nat.add_mul, cyclicWindow_add]
  exact blockwise_append combine (length_cyclicWindow nonempty _ _) _ _

/-- What a decimator makes of a window: a ratio below two leaves it as it is. -/
def decimatedWindow (combine : List α → α) (ratio : Nat) (xs : List α)
    (start count : Nat) :
    List α :=
  if ratio < 2 then cyclicWindow xs start (count * ratio)
  else windowBlocks combine ratio xs start count

section Decimated

variable (combine : List α → α) {ratio : Nat} {xs : List α}

@[simp] theorem decimatedWindow_zero (start : Nat) :
    decimatedWindow combine ratio xs start 0 = [] := by
  simp [decimatedWindow, windowBlocks, blockwise]

theorem decimatedWindow_add (nonempty : xs ≠ []) (start first second : Nat) :
    decimatedWindow combine ratio xs start (first + second) =
      decimatedWindow combine ratio xs start first ++
        decimatedWindow combine ratio xs (start + first * ratio) second := by
  unfold decimatedWindow
  split
  · rw [Nat.add_mul, cyclicWindow_add]
  · exact windowBlocks_add combine nonempty start first second

theorem length_decimatedWindow (nonempty : xs ≠ []) (positive : 1 ≤ ratio)
    (start count : Nat) :
    (decimatedWindow combine ratio xs start count).length = count := by
  unfold decimatedWindow
  split
  · have single : ratio = 1 := by omega
    rw [length_cyclicWindow nonempty, single, Nat.mul_one]
  · exact length_blockwise combine _ _

theorem decimatedWindow_mod (start count : Nat) :
    decimatedWindow combine ratio xs (start % xs.length) count =
      decimatedWindow combine ratio xs start count := by
  simp only [decimatedWindow, windowBlocks, cyclicWindow_mod]

end Decimated

end Blocks

/-! ## Blocks between neighbours -/

section Segments

variable {β : Type} (block : α → α → List β)

def segments : List α → List β
  | first :: second :: rest => block first second ++ segments (second :: rest)
  | _ => []

variable {block}

theorem segments_take_succ {xs : List α} {index : Nat} {first second : α}
    (current : xs[index]? = some first) (next : xs[index + 1]? = some second) :
    segments block (xs.take (index + 1 + 1)) =
      segments block (xs.take (index + 1)) ++ block first second := by
  induction xs generalizing index with
  | nil => simp at current
  | cons head tail induction =>
      cases tail with
      | nil => simp at next
      | cons neighbour rest =>
          cases index with
          | zero =>
              simp only [List.getElem?_cons_zero, Option.some.injEq] at current
              simp only [Nat.zero_add, List.getElem?_cons_succ, List.getElem?_cons_zero,
                Option.some.injEq] at next
              subst current next
              simp [segments]
          | succ index =>
              have shifted : segments block ((neighbour :: rest).take (index + 1 + 1)) =
                  segments block ((neighbour :: rest).take (index + 1)) ++
                    block first second :=
                induction (by simpa using current) (by simpa using next)
              simp only [List.take_succ_cons] at shifted
              simp only [List.take_succ_cons, segments, shifted, List.append_assoc]

variable {size : Nat}

theorem length_segments (uniform : ∀ first second, (block first second).length = size)
    (xs : List α) : (segments block xs).length = (xs.length - 1) * size := by
  induction xs with
  | nil => simp [segments]
  | cons head tail induction =>
      cases tail with
      | nil => simp [segments]
      | cons neighbour rest =>
          rw [segments, List.length_append, uniform, induction]
          simp only [List.length_cons, Nat.add_sub_cancel]
          ring

theorem getElem?_segments (uniform : ∀ first second, (block first second).length = size)
    {xs : List α} {index offset : Nat} {first second : α}
    (current : xs[index]? = some first) (next : xs[index + 1]? = some second)
    (inside : offset < size) :
    (segments block xs)[index * size + offset]? = (block first second)[offset]? := by
  induction xs generalizing index with
  | nil => simp at current
  | cons head tail induction =>
      cases tail with
      | nil => simp at next
      | cons neighbour rest =>
          rw [segments]
          cases index with
          | zero =>
              simp only [List.getElem?_cons_zero, Option.some.injEq] at current
              simp only [Nat.zero_add, List.getElem?_cons_succ, List.getElem?_cons_zero,
                Option.some.injEq] at next
              subst current next
              rw [Nat.zero_mul, Nat.zero_add,
                List.getElem?_append_left (by rw [uniform]; exact inside)]
          | succ index =>
              have beyond : (index + 1) * size + offset =
                  size + (index * size + offset) := by
                ring
              rw [beyond, List.getElem?_append_right (by rw [uniform]; omega), uniform,
                Nat.add_sub_cancel_left]
              exact induction (by simpa using current) (by simpa using next)

end Segments

end IioEmu
